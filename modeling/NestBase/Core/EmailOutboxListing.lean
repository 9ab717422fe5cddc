import NestBase.Core.Cursors
import NestBase.Core.EmailOutbox
import NestBase.Lib.Number
import NestBase.Lib.StableSort

/-!
# Listing the email outbox

`PrismaEmailOutboxStorage.listFiltered` sorts the matching rows by a key, the
greatest first, and rows of one key by their id.  The cursor of a page holds the
key and the id of its last row, and the next page is cut from the rows behind
that row.

No two rows have one id, so the order has no ties, and a client that follows the
cursors gets every matching row once, in order (`listFiltered_visitsEachOnce`).
-/

namespace NestBase
namespace EmailOutboxListing

open Lib
open EmailOutbox (DbStatus PrismaEmailOutboxRow EmailOutboxRecord toRecord)
open Examples (CursorSortValue CursorRecord encodeCursor decodeCursor)
open Files (UuidColumn takesInt)

/-! ## Filters -/

inductive SortBy where
  | time
  | attempts
deriving DecidableEq, Repr

structure EmailOutboxListFilter where
  status : Option String
  recipient : Option String
  template : Option String
  dateFrom : Option Int
  dateTo : Option Int
  sortBy : Option SortBy
  cursor : Option String
  limit : Option Nat

structure EmailOutboxListResult (Payload : Type) where
  items : List (EmailOutboxRecord Payload)
  nextCursor : Option String
  total : Nat

inductive PrismaError where
  /-- A value that the column does not take. -/
  | invalidValue
deriving DecidableEq, Repr

def STATUS_DOMAIN_TO_DB : List (String × DbStatus) :=
  [("pending", .PENDING), ("sent", .SENT), ("dead-letter", .DEAD_LETTER),
    ("cancelled", .CANCELLED)]

/-- The texts the status column takes. -/
def dbStatuses : List (String × DbStatus) :=
  [("PENDING", .PENDING), ("SENT", .SENT), ("DEAD_LETTER", .DEAD_LETTER),
    ("CANCELLED", .CANCELLED)]

/-- `VALID_STATUSES`, which the controller lets through. -/
def VALID_STATUSES : List String := ["pending", "sent", "dead-letter", "cancelled"]

def statusColumn (status : String) : Option DbStatus :=
  (STATUS_DOMAIN_TO_DB.lookup status).or (dbStatuses.lookup status)

/-- The filters of the client for a path into a JSON column. -/
structure JsonFilters (Payload : Type) where
  stringContains : Payload → List String → String → Bool
  equals : Payload → List String → String → Bool

/-- The values a `Date` can have. -/
def isDate (t : Int) : Bool :=
  decide (t.natAbs ≤ 8640000000000000)

/-- The table `email_outbox`; `createdAt` is read as a `Date`. -/
structure OutboxTable (uuid : UuidColumn) (Payload : Type) where
  rows : List (PrismaEmailOutboxRow Payload)
  ids_nodup : KeysNodup PrismaEmailOutboxRow.id rows
  ids_stored : ∀ row ∈ rows, uuid.parse row.id = some row.id
  attempts_stored : ∀ row ∈ rows, takesInt row.attemptCount = true
  dates_stored : ∀ row ∈ rows, isDate row.createdAt = true

section Listing

variable {Payload : Type}

def statusCondition (filter : EmailOutboxListFilter) :
    Except PrismaError (PrismaEmailOutboxRow Payload → Bool) :=
  match Text.truthy filter.status with
  | none => .ok fun _ => true
  | some status =>
      match statusColumn status with
      | none => .error .invalidValue
      | some value => .ok fun row => decide (row.status = value)

def payloadCondition
    (json : JsonFilters Payload) (filter : EmailOutboxListFilter)
    (row : PrismaEmailOutboxRow Payload) : Bool :=
  match Text.truthy filter.recipient, Text.truthy filter.template with
  | some recipient, some template =>
      json.stringContains row.payload ["to"] recipient &&
        json.equals row.payload ["template"] template
  | some recipient, none => json.stringContains row.payload ["to"] recipient
  | none, some template => json.equals row.payload ["template"] template
  | none, none => true

def createdAtCondition
    (filter : EmailOutboxListFilter) (row : PrismaEmailOutboxRow Payload) : Bool :=
  filter.dateFrom.all (fun dateFrom => decide (dateFrom ≤ row.createdAt)) &&
    filter.dateTo.all fun dateTo => decide (row.createdAt ≤ dateTo)

/-- `where` -/
def whereOf (json : JsonFilters Payload) (filter : EmailOutboxListFilter) :
    Except PrismaError (PrismaEmailOutboxRow Payload → Bool) := do
  let status ← statusCondition filter
  .ok fun row => status row && payloadCondition json filter row && createdAtCondition filter row

/-! ## The order -/

/-- The column of the order. -/
def rowKey (sortBy : Option SortBy) (row : PrismaEmailOutboxRow Payload) : Int :=
  match sortBy with
  | some .attempts => row.attemptCount
  | _ => row.createdAt

/-- The same column of a record. -/
def recordKey (sortBy : Option SortBy) (record : EmailOutboxRecord Payload) : Int :=
  match sortBy with
  | some .attempts => record.attemptCount
  | _ => record.createdAt

/-- The greatest key first, then by the id; uuids are compared as their texts. -/
def descThenId : Int × String → Int × String → Ordering :=
  compareLex (fun a b => compareOn Prod.fst b a) (compareOn Prod.snd)

def orderKey (sortBy : Option SortBy) (row : PrismaEmailOutboxRow Payload) : Int × String :=
  (rowKey sortBy row, row.id)

def emailOutboxFindMany
    {uuid : UuidColumn} (table : OutboxTable uuid Payload)
    (condition : PrismaEmailOutboxRow Payload → Bool) (sortBy : Option SortBy) (take : Nat) :
    List (PrismaEmailOutboxRow Payload) :=
  (StableSort.sortBy descThenId (orderKey sortBy) (table.rows.filter condition)).take take

/-! ## Cursors -/

/-- An integer column of 32 bits, compared with a sort value. -/
def intColumn : CursorSortValue → Option Int
  | .text _ => none
  | .number literal =>
      match Number.ofText literal with
      | .finite value =>
          if value.den = 1 ∧ takesInt value.num = true then some value.num else none
      | _ => none

/-- `new Date(sortValue)`, without a value for an invalid date. -/
def newDate (dateParse : String → Option Int) : CursorSortValue → Option Int
  | .text text => dateParse text
  | .number literal =>
      match Number.ofText literal with
      | .finite value =>
          if |value| ≤ 8640000000000000 then some (value.num.tdiv value.den) else none
      | _ => none

def sortValueOf (dateParse : String → Option Int) (sortBy : Option SortBy) :
    CursorSortValue → Option Int :=
  match sortBy with
  | some .attempts => intColumn
  | _ => newDate dateParse

/-- The rows behind the one of a key and an id. -/
def behind
    (sortBy : Option SortBy) (value : Int) (id : String) (row : PrismaEmailOutboxRow Payload) :
    Bool :=
  decide (rowKey sortBy row < value) || (decide (rowKey sortBy row = value) && decide (id < row.id))

/-- What the runtime does with texts: `new Date(text)`, and the message of `JSON.parse`. -/
structure TextRuntime where
  dateParse : String → Option Int
  syntaxError : List Char → String

def cursorCondition (runtime : TextRuntime) (uuid : UuidColumn) (filter : EmailOutboxListFilter) :
    Except PrismaError (PrismaEmailOutboxRow Payload → Bool) :=
  match Text.truthy filter.cursor with
  | none => .ok fun _ => true
  | some cursor =>
      match decodeCursor runtime.syntaxError cursor with
      -- ignore malformed cursor — start from beginning
      | .error _ => .ok fun _ => true
      | .ok decoded =>
          match sortValueOf runtime.dateParse filter.sortBy decoded.sortValue,
            uuid.parse decoded.id with
          | some value, some id => .ok (behind filter.sortBy value id)
          | _, _ => .error .invalidValue

def cursorOf (sortBy : Option SortBy) (record : EmailOutboxRecord Payload) : String :=
  encodeCursor { id := record.id, sortValue := .number (Text.ofInt (recordKey sortBy record)) }

/-- The page of the rows that were read, one more than the limit at most. -/
def pageOf (sortBy : Option SortBy) (limit : Nat) (rows : List (PrismaEmailOutboxRow Payload)) :
    CursorPage (EmailOutboxRecord Payload) String :=
  let hasMore := decide (limit < rows.length)
  let items := (if hasMore then rows.take limit else rows).map toRecord
  { items := items
    nextCursor :=
      if hasMore && decide (0 < items.length) then items.getLast?.map (cursorOf sortBy) else none }

variable {uuid : UuidColumn}

def listFiltered
    (runtime : TextRuntime) (json : JsonFilters Payload) (table : OutboxTable uuid Payload)
    (filter : EmailOutboxListFilter) :
    Except PrismaError (EmailOutboxListResult Payload) := do
  let limit := filter.limit.getD 50
  let matching ← whereOf json filter
  let condition ← cursorCondition runtime uuid filter
  let rows :=
    emailOutboxFindMany table (fun row => matching row && condition row) filter.sortBy (limit + 1)
  let total := table.rows.countP matching
  let page := pageOf filter.sortBy limit rows
  .ok { items := page.items, nextCursor := page.nextCursor, total := total }

/-- The calls of a client that passes the cursors on. -/
def pages
    (runtime : TextRuntime) (json : JsonFilters Payload) (table : OutboxTable uuid Payload)
    (filter : EmailOutboxListFilter) :
    CursorPage.Lists (EmailOutboxRecord Payload) String PrismaError :=
  fun _ cursor =>
    (listFiltered runtime json table { filter with cursor := cursor }).map fun result =>
      { items := result.items, nextCursor := result.nextCursor }

/-! ## What a client is promised -/

/-- The row is one the filter asks for. -/
structure Matches
    (json : JsonFilters Payload) (filter : EmailOutboxListFilter)
    (row : PrismaEmailOutboxRow Payload) : Prop where
  status :
    ∀ status, filter.status = some status → status ≠ "" → (status, row.status) ∈ STATUS_DOMAIN_TO_DB
  recipient :
    ∀ recipient, filter.recipient = some recipient → recipient ≠ "" →
      json.stringContains row.payload ["to"] recipient = true
  template :
    ∀ template, filter.template = some template → template ≠ "" →
      json.equals row.payload ["template"] template = true
  dateFrom : ∀ dateFrom, filter.dateFrom = some dateFrom → dateFrom ≤ row.createdAt
  dateTo : ∀ dateTo, filter.dateTo = some dateTo → row.createdAt ≤ dateTo

/-- The first row stands before the second one. -/
def Before (sortBy : Option SortBy) (a b : PrismaEmailOutboxRow Payload) : Prop :=
  rowKey sortBy b < rowKey sortBy a ∨ (rowKey sortBy a = rowKey sortBy b ∧ a.id < b.id)

structure VisitsEachOnce
    (runtime : TextRuntime) (json : JsonFilters Payload) (table : OutboxTable uuid Payload)
    (filter : EmailOutboxListFilter) (rows : List (PrismaEmailOutboxRow Payload)) : Prop where
  visited :
    ∃ fuel,
      CursorPage.visit (pages runtime json table filter) fuel 0 none = some (rows.map toRecord)
  once : KeysNodup PrismaEmailOutboxRow.id rows
  matching : ∀ row, row ∈ rows ↔ row ∈ table.rows ∧ Matches json filter row
  ordered : rows.Pairwise (Before filter.sortBy)
  total :
    ∀ cursor result,
      listFiltered runtime json table { filter with cursor := cursor } = .ok result →
        result.total = rows.length

/-! ## The filter -/

/-- A condition on a text that is given and not empty. -/
theorem forall_truthy_iff {text : Option String} {p : String → Prop} :
    (∀ value, text = some value → value ≠ "" → p value) ↔
      ∀ value, Text.truthy text = some value → p value := by
  simp only [Text.truthy_eq_some_iff, and_imp]

theorem payloadCondition_iff
    (json : JsonFilters Payload) (filter : EmailOutboxListFilter)
    (row : PrismaEmailOutboxRow Payload) :
    payloadCondition json filter row = true ↔
      (∀ recipient, Text.truthy filter.recipient = some recipient →
        json.stringContains row.payload ["to"] recipient = true) ∧
        ∀ template, Text.truthy filter.template = some template →
          json.equals row.payload ["template"] template = true := by
  unfold payloadCondition
  cases Text.truthy filter.recipient with
  | none =>
      cases Text.truthy filter.template with
      | none => simp
      | some template => simp
  | some recipient =>
      cases Text.truthy filter.template with
      | none => simp
      | some template => simp

theorem createdAtCondition_iff
    (filter : EmailOutboxListFilter) (row : PrismaEmailOutboxRow Payload) :
    createdAtCondition filter row = true ↔
      (∀ dateFrom, filter.dateFrom = some dateFrom → dateFrom ≤ row.createdAt) ∧
        ∀ dateTo, filter.dateTo = some dateTo → row.createdAt ≤ dateTo := by
  unfold createdAtCondition
  rw [Bool.and_eq_true, Option.all_eq_true, Option.all_eq_true]
  simp only [decide_eq_true_eq]

/-- A status the controller lets through is one of the column. -/
theorem statusColumn_of_valid {status : String} (h : status ∈ VALID_STATUSES) :
    ∃ value, statusColumn status = some value ∧
      ∀ other, (status, other) ∈ STATUS_DOMAIN_TO_DB ↔ other = value := by
  simp only [VALID_STATUSES, List.mem_cons, List.not_mem_nil, or_false] at h
  rcases h with rfl | rfl | rfl | rfl
  · exact ⟨.PENDING, by decide, fun other => by cases other <;> decide⟩
  · exact ⟨.SENT, by decide, fun other => by cases other <;> decide⟩
  · exact ⟨.DEAD_LETTER, by decide, fun other => by cases other <;> decide⟩
  · exact ⟨.CANCELLED, by decide, fun other => by cases other <;> decide⟩

/-- `where` holds of the rows that match. -/
theorem whereOf_eq_ok
    (json : JsonFilters Payload) (filter : EmailOutboxListFilter)
    (hstatus : ∀ status, filter.status = some status → status = "" ∨ status ∈ VALID_STATUSES) :
    ∃ matching, whereOf json filter = .ok matching ∧
      ∀ row, matching row = true ↔ Matches json filter row := by
  obtain ⟨status, hcondition, hholds⟩ :
      ∃ status : PrismaEmailOutboxRow Payload → Bool,
        statusCondition filter = .ok status ∧
          ∀ row, status row = true ↔
            ∀ text, Text.truthy filter.status = some text →
              (text, row.status) ∈ STATUS_DOMAIN_TO_DB := by
    unfold statusCondition
    cases htext : Text.truthy filter.status with
    | none => exact ⟨_, rfl, by simp⟩
    | some text =>
        obtain ⟨hgiven, hne⟩ := Text.truthy_eq_some_iff.mp htext
        obtain ⟨value, hcolumn, honly⟩ :=
          statusColumn_of_valid ((hstatus text hgiven).resolve_left hne)
        refine ⟨fun row => decide (row.status = value), by simp only [hcolumn], fun row => ?_⟩
        simp [honly]
  refine ⟨fun row => status row && payloadCondition json filter row &&
    createdAtCondition filter row, by unfold whereOf; rw [hcondition]; rfl, fun row => ?_⟩
  rw [Bool.and_eq_true, Bool.and_eq_true, hholds, payloadCondition_iff, createdAtCondition_iff]
  constructor
  · rintro ⟨⟨hs, hr, ht⟩, hfrom, hto⟩
    exact ⟨forall_truthy_iff.mpr hs, forall_truthy_iff.mpr hr, forall_truthy_iff.mpr ht, hfrom, hto⟩
  · intro h
    exact ⟨⟨forall_truthy_iff.mp h.status, forall_truthy_iff.mp h.recipient,
      forall_truthy_iff.mp h.template⟩, h.dateFrom, h.dateTo⟩

/-! ## The order has no ties -/

instance : Std.TransCmp descThenId := by
  unfold descThenId
  infer_instance

theorem before_iff {sortBy : Option SortBy} {a b : PrismaEmailOutboxRow Payload} :
    descThenId (orderKey sortBy a) (orderKey sortBy b) = .lt ↔ Before sortBy a b := by
  have hid : compare a.id b.id = .lt ↔ a.id < b.id := compareOfLessAndEq_eq_lt
  change ((compare (rowKey sortBy b) (rowKey sortBy a)).then (compare a.id b.id)) = .lt ↔ _
  rw [Ordering.then_eq_lt, compare_lt_iff_lt, compare_eq_iff_eq, hid, @eq_comm _ (rowKey sortBy b)]
  rfl

/-- Rows that tie have one id. -/
theorem id_eq_of_tie
    {sortBy : Option SortBy} {a b : PrismaEmailOutboxRow Payload}
    (h : descThenId (orderKey sortBy a) (orderKey sortBy b) = .eq) :
    a.id = b.id := by
  change ((compare (rowKey sortBy b) (rowKey sortBy a)).then (compare a.id b.id)) = .eq at h
  exact Std.compare_eq_iff_eq.mp (Ordering.then_eq_eq.mp h).2

variable {condition : PrismaEmailOutboxRow Payload → Bool}

theorem OutboxTable.no_ties (table : OutboxTable uuid Payload) (sortBy : Option SortBy) :
    ∀ a ∈ table.rows.filter condition, ∀ b ∈ table.rows.filter condition,
      descThenId (orderKey sortBy a) (orderKey sortBy b) = .eq → a = b := by
  intro a ha b hb htie
  exact List.inj_on_of_nodup_map table.ids_nodup (List.mem_filter.mp ha).1
    (List.mem_filter.mp hb).1 (id_eq_of_tie htie)

/-- The matching rows in their order. -/
def sorted
    (table : OutboxTable uuid Payload) (sortBy : Option SortBy)
    (matching : PrismaEmailOutboxRow Payload → Bool) : List (PrismaEmailOutboxRow Payload) :=
  StableSort.sortBy descThenId (orderKey sortBy) (table.rows.filter matching)

theorem sorted_perm
    (table : OutboxTable uuid Payload) (sortBy : Option SortBy)
    (matching : PrismaEmailOutboxRow Payload → Bool) :
    (sorted table sortBy matching).Perm (table.rows.filter matching) :=
  StableSort.sortBy_perm _ _ _

theorem sorted_pairwise
    (table : OutboxTable uuid Payload) (sortBy : Option SortBy)
    (matching : PrismaEmailOutboxRow Payload → Bool) :
    (sorted table sortBy matching).Pairwise fun a b =>
      descThenId (orderKey sortBy a) (orderKey sortBy b) = .lt :=
  StableSort.pairwise_lt_sortBy (table.ids_nodup.of_map.filter _) (table.no_ties sortBy)

/-! ## The rows behind a cursor -/

theorem intColumn_ofInt {n : Int} (h : takesInt n = true) :
    intColumn (.number (Text.ofInt n)) = some n := by
  have hrange : -2147483648 ≤ n ∧ n ≤ 2147483647 := of_decide_eq_true h
  have hvalue : Number.ofText (Text.ofInt n) = .finite n := Number.ofText_ofInt (by omega)
  simp only [intColumn, hvalue, Rat.den_intCast, Rat.num_intCast, h, and_self, if_true]

theorem newDate_ofInt (dateParse : String → Option Int) {n : Int} (h : isDate n = true) :
    newDate dateParse (.number (Text.ofInt n)) = some n := by
  have hrange : n.natAbs ≤ 8640000000000000 := of_decide_eq_true h
  have hvalue : Number.ofText (Text.ofInt n) = .finite n := Number.ofText_ofInt (by omega)
  have habs : |(n : ℚ)| ≤ 8640000000000000 := by
    have hint : |n| ≤ 8640000000000000 := by
      rw [Int.abs_eq_natAbs]
      omega
    exact_mod_cast hint
  simp only [newDate, hvalue, habs, if_true, Rat.den_intCast, Rat.num_intCast, Nat.cast_one,
    Int.tdiv_one]

variable {table : OutboxTable uuid Payload}

/-- The key of a row is decoded from the number it is printed as. -/
theorem sortValueOf_rowKey
    (dateParse : String → Option Int) (sortBy : Option SortBy)
    {row : PrismaEmailOutboxRow Payload}
    (hrow : row ∈ table.rows) :
    sortValueOf dateParse sortBy (.number (Text.ofInt (rowKey sortBy row))) =
      some (rowKey sortBy row) := by
  have htime := newDate_ofInt dateParse (table.dates_stored row hrow)
  have hattempts : intColumn (.number (Text.ofInt row.attemptCount)) = some ↑row.attemptCount :=
    intColumn_ofInt (table.attempts_stored row hrow)
  cases sortBy with
  | none => exact htime
  | some sortBy =>
      cases sortBy with
      | time => exact htime
      | attempts => exact hattempts

theorem recordKey_toRecord (sortBy : Option SortBy) (row : PrismaEmailOutboxRow Payload) :
    recordKey sortBy (toRecord row) = rowKey sortBy row := by
  unfold recordKey rowKey
  split <;> rfl

/-- The cursor of a row is decoded to its key and its id. -/
theorem decodeCursor_cursorOf
    (syntaxError : List Char → String) (sortBy : Option SortBy)
    (row : PrismaEmailOutboxRow Payload) :
    decodeCursor syntaxError (cursorOf sortBy (toRecord row)) =
      .ok { id := row.id, sortValue := .number (Text.ofInt (rowKey sortBy row)) } := by
  have hwhole : CursorSortValue.Whole (.number (Text.ofInt (rowKey sortBy row))) := .number _
  unfold cursorOf
  rw [recordKey_toRecord, Examples.decodeCursor_encodeCursor syntaxError hwhole]
  rfl

theorem behind_eq (sortBy : Option SortBy) (row other : PrismaEmailOutboxRow Payload) :
    behind sortBy (rowKey sortBy row) row.id other =
      (descThenId (orderKey sortBy row) (orderKey sortBy other) == .lt) := by
  rw [Bool.eq_iff_iff, beq_iff_eq, before_iff]
  unfold behind Before
  rw [Bool.or_eq_true, Bool.and_eq_true, decide_eq_true_eq, decide_eq_true_eq, decide_eq_true_eq,
    @eq_comm _ (rowKey sortBy other)]

/-- The condition of a row's cursor holds of the rows behind it. -/
theorem cursorCondition_cursorOf
    (runtime : TextRuntime) {filter : EmailOutboxListFilter}
    {row : PrismaEmailOutboxRow Payload}
    (hcursor : filter.cursor = some (cursorOf filter.sortBy (toRecord row)))
    (hrow : row ∈ table.rows) :
    cursorCondition runtime uuid filter =
      .ok (behind filter.sortBy (rowKey filter.sortBy row) row.id :
        PrismaEmailOutboxRow Payload → Bool) := by
  have hne : cursorOf filter.sortBy (toRecord row) ≠ "" := Examples.encodeCursor_ne_empty _
  have htruthy : Text.truthy filter.cursor = some (cursorOf filter.sortBy (toRecord row)) :=
    Text.truthy_eq_some_iff.mpr ⟨hcursor, hne⟩
  unfold cursorCondition
  simp only [htruthy, decodeCursor_cursorOf, table.ids_stored row hrow,
    sortValueOf_rowKey runtime.dateParse filter.sortBy hrow]

/-! ## Pages -/

theorem pageOf_eq_cut
    (sortBy : Option SortBy) (limit : Nat) (rows : List (PrismaEmailOutboxRow Payload)) :
    pageOf sortBy limit rows = CursorPage.cut (cursorOf sortBy) limit (rows.map toRecord) := by
  unfold pageOf CursorPage.cut
  by_cases hmore : limit < rows.length
  · simp only [hmore, decide_true, if_true, Bool.true_and, List.map_take, List.length_map]
    congr 1
    by_cases hlimit : limit = 0
    · subst hlimit
      rfl
    · have hitems : 0 < ((rows.map toRecord).take limit).length := by
        rw [List.length_take, List.length_map]
        omega
      rw [if_pos (decide_eq_true hitems)]
  · have hall : (rows.map toRecord).take limit = rows.map toRecord :=
      List.take_of_length_le (by rw [List.length_map]; omega)
    simp [hmore, hall]

variable {filter : EmailOutboxListFilter}

/-- The page of a condition is cut from the rows that meet it. -/
theorem listFiltered_eq
    {runtime : TextRuntime} {json : JsonFilters Payload} (table : OutboxTable uuid Payload)
    {matching : PrismaEmailOutboxRow Payload → Bool}
    (hmatching : whereOf json filter = .ok matching)
    (hcondition : cursorCondition runtime uuid filter = .ok condition) :
    ∃ result,
      listFiltered runtime json table filter = .ok result ∧
        CursorPage.mk result.items result.nextCursor =
            CursorPage.cut (cursorOf filter.sortBy) (filter.limit.getD 50)
              (((sorted table filter.sortBy matching).filter condition).map toRecord) ∧
          result.total = (sorted table filter.sortBy matching).length := by
  have hrows :
      emailOutboxFindMany table (fun row => matching row && condition row) filter.sortBy
          (filter.limit.getD 50 + 1) =
        ((sorted table filter.sortBy matching).filter condition).take
          (filter.limit.getD 50 + 1) := by
    unfold emailOutboxFindMany sorted
    rw [← StableSort.sortBy_filter condition (table.no_ties filter.sortBy), List.filter_filter]
    simp only [Bool.and_comm]
  unfold listFiltered
  rw [hmatching, hcondition]
  refine ⟨_, rfl, ?_, ?_⟩
  · rw [← CursorPage.cut_take (Nat.lt_succ_self _), ← List.map_take, hrows]
    exact pageOf_eq_cut _ _ _
  · rw [List.countP_eq_length_filter]
    exact (sorted_perm table filter.sortBy matching).length_eq.symm

/-- The pages of a client are the cuts. -/
theorem pages_eq
    {runtime : TextRuntime} {json : JsonFilters Payload}
    {matching : PrismaEmailOutboxRow Payload → Bool} {cursor : Option String}
    (hmatching : whereOf json filter = .ok matching)
    (hcondition : cursorCondition runtime uuid { filter with cursor := cursor } = .ok condition)
    (call : Nat) :
    pages runtime json table filter call cursor =
      .ok (CursorPage.cut (cursorOf filter.sortBy) (filter.limit.getD 50)
        (((sorted table filter.sortBy matching).filter condition).map toRecord)) := by
  have hother : whereOf json { filter with cursor := cursor } = .ok matching := hmatching
  obtain ⟨result, hresult, hpage, -⟩ := listFiltered_eq table hother hcondition
  unfold pages
  rw [hresult]
  exact congrArg Except.ok hpage

/-- The total does not depend on the page. -/
theorem total_eq
    {runtime : TextRuntime} {json : JsonFilters Payload}
    {matching : PrismaEmailOutboxRow Payload → Bool} {result : EmailOutboxListResult Payload}
    (hmatching : whereOf json filter = .ok matching)
    (hresult : listFiltered runtime json table filter = .ok result) :
    result.total = (sorted table filter.sortBy matching).length := by
  cases hcondition : @cursorCondition Payload runtime uuid filter with
  | error error =>
      unfold listFiltered at hresult
      rw [hmatching, hcondition] at hresult
      cases hresult
  | ok condition =>
      obtain ⟨other, hother, -, htotal⟩ := listFiltered_eq table hmatching hcondition
      rw [hother] at hresult
      cases hresult
      exact htotal

/-- A client that follows the cursors gets every matching row once, in the order asked for. -/
theorem listFiltered_visitsEachOnce
    (runtime : TextRuntime) (json : JsonFilters Payload) (table : OutboxTable uuid Payload)
    (filter : EmailOutboxListFilter)
    (hstatus : ∀ status, filter.status = some status → status = "" ∨ status ∈ VALID_STATUSES)
    (hlimit : 1 ≤ filter.limit.getD 50) :
    ∃ rows, VisitsEachOnce runtime json table filter rows := by
  obtain ⟨matching, hmatching, hmatches⟩ := whereOf_eq_ok json filter hstatus
  have hperm := sorted_perm table filter.sortBy matching
  have hsorted := sorted_pairwise table filter.sortBy matching
  refine ⟨sorted table filter.sortBy matching, ?_⟩
  constructor
  case visited =>
    refine CursorPage.visit_of_cut (cursorOf filter.sortBy) hlimit ?_ ?_
    · intro call
      have hall : @cursorCondition Payload runtime uuid { filter with cursor := none } =
          .ok fun _ => true := rfl
      rw [pages_eq hmatching hall call, List.filter_true]
    · intro call front record back hsplit
      obtain ⟨before, after, hrows, rfl, hafter⟩ := List.map_eq_append_iff.mp hsplit
      obtain ⟨row, rest, rfl, rfl, rfl⟩ := List.map_eq_cons_iff.mp hafter
      have hrow : row ∈ table.rows := by
        have hmem : row ∈ sorted table filter.sortBy matching := by
          rw [hrows]
          exact List.mem_append_right _ List.mem_cons_self
        exact (List.mem_filter.mp (hperm.mem_iff.mp hmem)).1
      rw [pages_eq hmatching (cursorCondition_cursorOf runtime rfl hrow) call]
      have hbehind :
          (sorted table filter.sortBy matching).filter
              (behind filter.sortBy (rowKey filter.sortBy row) row.id) = rest := by
        have hcondition := funext (behind_eq filter.sortBy row)
        rw [hrows] at hsorted ⊢
        rw [hcondition]
        exact StableSort.filter_greater hsorted
      rw [hbehind]
  case once =>
    unfold KeysNodup
    rw [(hperm.map _).nodup_iff]
    exact table.ids_nodup.sublist (List.filter_sublist.map _)
  case matching =>
    intro row
    rw [hperm.mem_iff, List.mem_filter, hmatches]
  case ordered => exact hsorted.imp fun h => before_iff.mp h
  case total =>
    intro cursor result hresult
    have hother : whereOf json { filter with cursor := cursor } = .ok matching := hmatching
    have htotal := total_eq hother hresult
    exact htotal

end Listing

/-! ## Two rows of one time -/

section TwoRows

def valueAt (payload : Json) (path : List String) : Option Json :=
  path.foldlM (fun value name => value.field? name) payload

def textAt (payload : Json) (path : List String) : Option String :=
  (valueAt payload path).bind Examples.stringOf

/-- The filters on payloads of texts. -/
def textFilters : JsonFilters Json where
  stringContains payload path part := (textAt payload path).any (Text.includes · part)
  equals payload path value := decide (textAt payload path = some value)

def enqueued (id recipient : String) : PrismaEmailOutboxRow Json where
  id := id
  kind := .send
  payload := .obj [("to", .str recipient)]
  idempotencyKey := none
  status := .PENDING
  attemptCount := 0
  nextAttemptAt := none
  claimedAt := none
  lastError := none
  succeededAt := none
  failedAt := none
  createdAt := 951827696789

def twoRows : List (PrismaEmailOutboxRow Json) :=
  [enqueued "00000000-0000-7000-8000-000000000002" "bob@acme.test",
    enqueued "00000000-0000-7000-8000-000000000001" "alice@acme.test"]

theorem ids_nodup_twoRows : KeysNodup PrismaEmailOutboxRow.id twoRows := by
  unfold KeysNodup
  decide

theorem ids_stored_twoRows :
    ∀ row ∈ twoRows, Examples.plainUuids.parse row.id = some row.id := by
  have hsecond : Files.isUuid "00000000-0000-7000-8000-000000000002" = true := by rfl
  have hfirst : Files.isUuid "00000000-0000-7000-8000-000000000001" = true := by rfl
  intro row hrow
  rcases List.mem_pair.mp hrow with rfl | rfl
  · exact Examples.plainUuids_parse hsecond
  · exact Examples.plainUuids_parse hfirst

theorem attempts_stored_twoRows : ∀ row ∈ twoRows, takesInt row.attemptCount = true := by
  intro row hrow
  rcases List.mem_pair.mp hrow with rfl | rfl <;> rfl

theorem dates_stored_twoRows : ∀ row ∈ twoRows, isDate row.createdAt = true := by
  intro row hrow
  rcases List.mem_pair.mp hrow with rfl | rfl <;> rfl

def twoPending : OutboxTable Examples.plainUuids Json where
  rows := twoRows
  ids_nodup := ids_nodup_twoRows
  ids_stored := ids_stored_twoRows
  attempts_stored := attempts_stored_twoRows
  dates_stored := dates_stored_twoRows

/-- The pending rows to one company, one a page. -/
def onePending : EmailOutboxListFilter where
  status := some "pending"
  recipient := some "acme"
  template := none
  dateFrom := none
  dateTo := none
  sortBy := none
  cursor := none
  limit := some 1

/-- No cursor of these pages is a text of a date, and all are read. -/
def plainRuntime : TextRuntime where
  dateParse := fun _ => none
  syntaxError := fun _ => "JSON Parse error"

theorem visitsEachOnce_twoPending :
    (twoRows.filter fun row => textFilters.stringContains row.payload ["to"] "acme").length = 2 ∧
      ∃ rows, VisitsEachOnce plainRuntime textFilters twoPending onePending rows := by
  have hstatus (status : String) (h : onePending.status = some status) :
      status = "" ∨ status ∈ VALID_STATUSES := by
    cases h
    exact Or.inr (by decide)
  exact ⟨by rfl,
    listFiltered_visitsEachOnce plainRuntime textFilters twoPending onePending hstatus le_rfl⟩

end TwoRows

end EmailOutboxListing
end NestBase
