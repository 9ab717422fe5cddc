import NestBase.Core.Examples
import NestBase.Core.StorageKeys
import NestBase.Lib.Base64
import NestBase.Lib.CursorPages

/-!
# Listing the examples

`buildCursorPage` gives out cursors that `encodeCursor` writes: base64url of a
JSON object with the sort value and the id.  `ExampleService.list`, and the
method the module scaffolder emits, take a cursor for the id of a row.

No such text is an id.  The database refuses it as the value of a uuid column,
and among the rows it is not found, which the scaffolded method takes for the
start.  So both visit every example once exactly when all of them fit one page
(`visitsEachOnce_iff`).
-/

namespace NestBase
namespace Examples

open Lib
open Files

/-! ## Cursors -/

inductive CursorSortValue where
  | text (value : String)
  /-- A number, as it is printed. -/
  | number (printed : String)

structure CursorRecord where
  id : String
  sortValue : CursorSortValue

def CursorSortValue.toJson : CursorSortValue → String
  | text value => Json.quote value
  | number printed => printed

def encodeCursor (record : CursorRecord) : String :=
  let payload :=
    "\x7b\"s\":" ++ record.sortValue.toJson ++ ",\"i\":" ++ Json.quote record.id ++ "\x7d"
  Base64.encodeUrl (Unicode.utf8 payload.toList)

/-- Every cursor begins alike, since every payload does. -/
theorem encodeCursor_begins (record : CursorRecord) :
    ∃ rest, (encodeCursor record).toList = 'e' :: 'y' :: rest := by
  unfold encodeCursor Base64.encodeUrl
  simp only [String.toList_append, String.toList_ofList]
  exact ⟨_, rfl⟩

theorem encodeCursor_ne_empty (record : CursorRecord) : encodeCursor record ≠ "" := by
  intro h
  obtain ⟨rest, hbegins⟩ := encodeCursor_begins record
  rw [h] at hbegins
  cases hbegins

/-! ## Pages -/

/-- A response with the sort value the cursor is made of. -/
structure ListItem extends ExampleResponse where
  sortValue : String
deriving DecidableEq, Repr

def toItem (record : Example) : ListItem where
  toExampleResponse := toResponse record
  sortValue := toISOString record.createdAt

def buildCursorPage (rows : List ListItem) (limit : Nat) :
    Except ServiceError (CursorPage ListItem String) :=
  if limit < 1 then .error (.error s!"cursor: limit must be a positive integer (got {limit})")
  else
    let hasMore := decide (limit < rows.length)
    let items := if hasMore then rows.take limit else rows
    if hasMore then
      .ok
        { items := items
          nextCursor :=
            items.getLast?.map fun last =>
              encodeCursor { id := last.id, sortValue := .text last.sortValue } }
    else .ok { items := items, nextCursor := none }

theorem buildCursorPage_of_le
    {rows : List ListItem} {limit : Nat}
    (hlimit : 1 ≤ limit)
    (hfits : rows.length ≤ limit) :
    buildCursorPage rows limit = .ok { items := rows, nextCursor := none } := by
  unfold buildCursorPage
  simp only [if_neg (Nat.not_lt.mpr hlimit), decide_eq_false (Nat.not_lt.mpr hfits),
    Bool.false_eq_true, if_false]

theorem buildCursorPage_of_lt
    {rows : List ListItem} {limit : Nat} {page : CursorPage ListItem String}
    (hlimit : 1 ≤ limit)
    (hmore : limit < rows.length)
    (hpage : buildCursorPage rows limit = .ok page) :
    ∃ record, page.nextCursor = some (encodeCursor record) := by
  unfold buildCursorPage at hpage
  simp only [if_neg (Nat.not_lt.mpr hlimit), decide_eq_true hmore, if_true] at hpage
  have hlength : (rows.take limit).length = limit := List.length_take_of_le hmore.le
  cases hlast : (rows.take limit).getLast? with
  | none =>
      rw [List.getLast?_eq_none_iff.mp hlast, List.length_nil] at hlength
      omega
  | some last =>
      rw [hlast] at hpage
      cases hpage
      exact ⟨_, rfl⟩

/-! ## Statements -/

/-- `orderBy: { createdAt: "desc" }`; rows of one instant may come in any order. -/
structure Descending where
  arrange : List Example → List Example
  perm : ∀ rows, (arrange rows).Perm rows
  sorted : ∀ rows, (arrange rows).Pairwise fun first second => second.createdAt ≤ first.createdAt

inductive ExampleStatus where
  | draft
  | published
  | archived
deriving DecidableEq, Repr

def ExampleStatus.text : ExampleStatus → String
  | draft => "draft"
  | published => "published"
  | archived => "archived"

structure ListExampleQuery where
  cursor : Option String
  limit : Nat
  status : Option ExampleStatus

section Statements

variable {uuid : UuidColumn}

/-- The rows a list is about. -/
def ExampleTable.matching
    (table : ExampleTable uuid) (tenantId : String) (status : Option ExampleStatus) :
    List Example :=
  table.rows.filter fun row =>
    decide (row.tenantId = tenantId) && status.all fun status => decide (row.status = status.text)

/-- `tx.example.findUnique({ where: { id } })` -/
def exampleFindUnique (setting id : String) (table : ExampleTable uuid) :
    Except ServiceError (Option Example × ExampleTable uuid) :=
  match uuid.parse id with
  | none => .error (.prisma .invalidValue)
  | some id' =>
      .ok
        ((findRow Example.id id' table.rows).filter fun row => decide (row.tenantId = setting),
          table)

/-- `tx.example.findMany` with the filters of a list. -/
def exampleFindMany
    (order : Descending) (setting tenantId : String) (status : Option ExampleStatus)
    (before : Option Int) (take : Option Nat) (table : ExampleTable uuid) :
    Except ServiceError (List Example × ExampleTable uuid) :=
  match uuid.parse tenantId with
  | none => .error (.prisma .invalidValue)
  | some tenantId' =>
      let visible :=
        (table.matching tenantId' status).filter fun row => decide (row.tenantId = setting)
      let rows := order.arrange (visible.filter fun row => before.all (row.createdAt < ·))
      .ok (take.elim rows rows.take, table)

/-! ## Both list methods -/

namespace ExampleService

/-- `createdAt` of the row the cursor is taken for; an empty cursor counts as none. -/
def cursorDate (tenantId : String) (cursor : Option String) (table : ExampleTable uuid) :
    Except ServiceError (Option Int) :=
  match cursor.filter (· ≠ "") with
  | none => .ok none
  | some cursor =>
      (runWithRlsTenant none (fun setting => exampleFindUnique setting cursor) tenantId table).1.map
        fun found => found.map Example.createdAt

def list
    (order : Descending) (tenantId : String) (query : ListExampleQuery)
    (table : ExampleTable uuid) :
    Except ServiceError (CursorPage ListItem String) := do
  let before ← cursorDate tenantId query.cursor table
  let records ←
    (runWithRlsTenant none
      (fun setting =>
        exampleFindMany order setting tenantId query.status before (some (query.limit + 1)))
      tenantId table).1
  buildCursorPage (records.map toItem) query.limit

end ExampleService

namespace ScaffoldedService

/-- `findIndex` -/
def findIndex (records : List Example) (id : String) : Int :=
  match records.findIdx? fun record => decide (record.id = id) with
  | none => -1
  | some index => index

/-- The method `renderService` emits, for a module with the columns of the example. -/
def list
    (order : Descending) (tenantId : String) (query : ListExampleQuery)
    (table : ExampleTable uuid) :
    Except ServiceError (CursorPage ListItem String) := do
  let records ←
    (runWithRlsTenant none
      (fun setting => exampleFindMany order setting tenantId query.status none none)
      tenantId table).1
  let startIndex :=
    match query.cursor.filter (· ≠ "") with
    | none => 0
    | some cursor => (max 0 (findIndex records cursor + 1)).toNat
  let page := (records.drop startIndex).take (query.limit + 1)
  buildCursorPage (page.map toItem) query.limit

end ScaffoldedService

/-! ## One call -/

/-- The texts a uuid column takes: hexadecimal digits, with dashes and braces. -/
structure UuidTexts (uuid : UuidColumn) : Prop where
  digits :
    ∀ text value, uuid.parse text = some value →
      ∀ c ∈ text.toList, isHexDigit c = true ∨ c ∈ ['-', '\x7b', '\x7d']

/-- A cursor is no id. -/
theorem parse_encodeCursor (htexts : UuidTexts uuid) (record : CursorRecord) :
    uuid.parse (encodeCursor record) = none := by
  obtain ⟨rest, hbegins⟩ := encodeCursor_begins record
  cases hparse : uuid.parse (encodeCursor record) with
  | none => rfl
  | some value =>
      have hdigit := htexts.digits _ value hparse 'y' (by rw [hbegins]; simp)
      exact absurd hdigit (by decide)

theorem filter_encodeCursor (record : CursorRecord) :
    (some (encodeCursor record)).filter (· ≠ "") = some (encodeCursor record) := by
  rw [Option.filter_some, if_pos (decide_eq_true (encodeCursor_ne_empty record))]

variable {order : Descending} {tenantId : String} {table : ExampleTable uuid}
variable {status : Option ExampleStatus} {limit : Nat}

theorem findMany_eq
    (htenant : isUuid tenantId = true)
    (hstored : uuid.parse tenantId = some tenantId)
    (take : Option Nat) :
    (runWithRlsTenant none
        (fun setting => exampleFindMany order setting tenantId status none take) tenantId table).1 =
      .ok
        (take.elim (order.arrange (table.matching tenantId status))
          (order.arrange (table.matching tenantId status)).take) := by
  have hvisible :
      (table.matching tenantId status).filter (fun row => decide (row.tenantId = tenantId)) =
        table.matching tenantId status := by
    refine List.filter_eq_self.mpr fun row hrow => ?_
    have hmatches := (List.mem_filter.mp hrow).2
    exact (Bool.and_eq_true_iff.mp hmatches).1
  have hfind :
      exampleFindMany order tenantId tenantId status none take table =
        .ok
          (take.elim (order.arrange (table.matching tenantId status))
            (order.arrange (table.matching tenantId status)).take, table) := by
    unfold exampleFindMany
    have hall (rows : List Example) :
        rows.filter (fun row => Option.all (row.createdAt < ·) none) = rows :=
      List.filter_eq_self.mpr fun _ _ => rfl
    rw [hstored]
    dsimp only
    rw [hvisible, hall]
  exact congrArg Prod.fst (runWithRlsTenant_eq_ok_iff.mpr ⟨htenant, rfl, hfind⟩)

/-- The first page of `ExampleService.list`. -/
theorem ExampleService.list_start
    (htenant : isUuid tenantId = true)
    (hstored : uuid.parse tenantId = some tenantId) :
    ExampleService.list order tenantId { cursor := none, limit := limit, status := status } table =
      buildCursorPage
        (((order.arrange (table.matching tenantId status)).take (limit + 1)).map toItem) limit := by
  unfold ExampleService.list
  have hdate : ExampleService.cursorDate tenantId none table = .ok none := rfl
  rw [hdate]
  change Except.bind (runWithRlsTenant none _ tenantId table).1 _ = _
  rw [findMany_eq htenant hstored]
  rfl

/-- The row of a cursor is not looked up: the database refuses the text. -/
theorem ExampleService.cursorDate_encodeCursor
    (htexts : UuidTexts uuid)
    (record : CursorRecord)
    (date : Option Int) :
    ExampleService.cursorDate tenantId (some (encodeCursor record)) table ≠ .ok date := by
  intro h
  unfold ExampleService.cursorDate at h
  rw [filter_encodeCursor] at h
  dsimp only at h
  rcases hrun :
    runWithRlsTenant none (fun setting => exampleFindUnique setting (encodeCursor record)) tenantId
      table with ⟨result, table'⟩
  rw [hrun] at h
  cases result with
  | error error => cases h
  | ok found =>
      have hfind := (runWithRlsTenant_eq_ok_iff.mp hrun).2.2
      unfold exampleFindUnique at hfind
      rw [parse_encodeCursor htexts] at hfind
      cases hfind

/-- With a cursor it has given out, `ExampleService.list` fails. -/
theorem ExampleService.list_encodeCursor
    (htexts : UuidTexts uuid)
    (record : CursorRecord)
    (page : CursorPage ListItem String) :
    ExampleService.list order tenantId
      { cursor := some (encodeCursor record), limit := limit, status := status } table ≠
        .ok page := by
  intro h
  unfold ExampleService.list at h
  cases hdate :
      ExampleService.cursorDate tenantId (some (encodeCursor record)) table with
  | error error =>
      dsimp only at h
      rw [hdate] at h
      cases h
  | ok date => exact ExampleService.cursorDate_encodeCursor htexts record date hdate

theorem ScaffoldedService.findIndex_encodeCursor
    (htexts : UuidTexts uuid)
    (record : CursorRecord)
    {records : List Example}
    (hrecords : ∀ row ∈ records, uuid.parse row.id = some row.id) :
    ScaffoldedService.findIndex records (encodeCursor record) = -1 := by
  have hnone : (records.findIdx? fun row => decide (row.id = encodeCursor record)) = none := by
    refine List.findIdx?_eq_none_iff.mpr fun row hrow => decide_eq_false fun hsame => ?_
    have hparse := hrecords row hrow
    rw [hsame, parse_encodeCursor htexts] at hparse
    cases hparse
  unfold ScaffoldedService.findIndex
  rw [hnone]

/-- The scaffolded method answers a cursor it has given out like none. -/
theorem ScaffoldedService.list_eq
    (htexts : UuidTexts uuid)
    (htenant : isUuid tenantId = true)
    (hstored : uuid.parse tenantId = some tenantId)
    {cursor : Option String}
    (hcursor : cursor = none ∨ ∃ record, cursor = some (encodeCursor record)) :
    ScaffoldedService.list order tenantId
        { cursor := cursor, limit := limit, status := status } table =
      buildCursorPage
        (((order.arrange (table.matching tenantId status)).take (limit + 1)).map toItem) limit := by
  have hrecords :
      ∀ row ∈ order.arrange (table.matching tenantId status), uuid.parse row.id = some row.id :=
    fun row hrow =>
      table.ids_stored row (List.mem_filter.mp ((order.perm _).mem_iff.mp hrow)).1
  unfold ScaffoldedService.list
  rw [findMany_eq htenant hstored none]
  change buildCursorPage _ limit = _
  rcases hcursor with rfl | ⟨record, rfl⟩
  · rfl
  · simp only [filter_encodeCursor, Option.elim_none,
      ScaffoldedService.findIndex_encodeCursor htexts record hrecords]
    rfl

/-! ## The whole list -/

/-- The pages end, and hold every row once, later rows first. -/
def VisitsEachOnce (list : CursorPage.Lists ListItem String ServiceError) (rows : List Example) :
    Prop :=
  ∃ (fuel : Nat) (visited : List Example),
    CursorPage.visit list fuel 0 none = some (visited.map toItem) ∧
      visited.Perm rows ∧
        visited.Pairwise fun first second => second.createdAt ≤ first.createdAt

/-- The calls of a client; each may see rows of one instant in another order. -/
def calls
    (list : Descending → ListExampleQuery → Except ServiceError (CursorPage ListItem String))
    (orders : Nat → Descending) (limit : Nat) (status : Option ExampleStatus) :
    CursorPage.Lists ListItem String ServiceError :=
  fun call cursor => list (orders call) { cursor := cursor, limit := limit, status := status }

/--
A method whose first page is the page of the first `limit + 1` rows, and which
fails or starts again with a cursor it has given out, visits every row once
exactly when the rows fit the first page.
-/
theorem visitsEachOnce_iff_of_start
    {list : Descending → ListExampleQuery → Except ServiceError (CursorPage ListItem String)}
    {orders : Nat → Descending} {rows : List Example}
    (hlimit : 1 ≤ limit)
    (hstart :
      ∀ order,
        list order { cursor := none, limit := limit, status := status } =
          buildCursorPage (((order.arrange rows).take (limit + 1)).map toItem) limit)
    (hagain :
      ∀ order record page,
        list order
            { cursor := some (encodeCursor record), limit := limit, status := status } =
              .ok page →
          buildCursorPage (((order.arrange rows).take (limit + 1)).map toItem) limit = .ok page) :
    VisitsEachOnce (calls list orders limit status) rows ↔ rows.length ≤ limit := by
  constructor
  · rintro ⟨fuel, visited, hvisit, -⟩
    by_contra hmore
    have hendless :
        CursorPage.Endless (calls list orders limit status)
          fun cursor => cursor = none ∨ ∃ record, cursor = some (encodeCursor record) := by
      intro call cursor hcursor page hpage
      have hbuild :
          buildCursorPage ((((orders call).arrange rows).take (limit + 1)).map toItem) limit =
            .ok page := by
        rcases hcursor with rfl | ⟨record, rfl⟩
        · exact (hstart (orders call)).symm.trans hpage
        · exact hagain (orders call) record page hpage
      have hlength :
          limit < ((((orders call).arrange rows).take (limit + 1)).map toItem).length := by
        rw [List.length_map, List.length_take, ((orders call).perm rows).length_eq]
        omega
      obtain ⟨record, hnext⟩ := buildCursorPage_of_lt hlimit hlength hbuild
      exact ⟨_, hnext, Or.inr ⟨record, rfl⟩⟩
    rw [CursorPage.visit_eq_none hendless (Or.inl rfl)] at hvisit
    cases hvisit
  · intro hfits
    have hlength : ((orders 0).arrange rows).length = rows.length :=
      ((orders 0).perm rows).length_eq
    have hall : ((orders 0).arrange rows).take (limit + 1) = (orders 0).arrange rows :=
      List.take_of_length_le (by omega)
    have hpage :
        calls list orders limit status 0 none =
          .ok { items := ((orders 0).arrange rows).map toItem, nextCursor := none } := by
      refine (hstart (orders 0)).trans ?_
      rw [hall]
      exact buildCursorPage_of_le hlimit (by rw [List.length_map]; omega)
    exact ⟨1, (orders 0).arrange rows, CursorPage.visit_of_last hpage rfl, (orders 0).perm rows,
      (orders 0).sorted rows⟩

section Methods

variable (orders : Nat → Descending)

theorem ExampleService.visits_iff
    (htexts : UuidTexts uuid)
    (htenant : isUuid tenantId = true)
    (hstored : uuid.parse tenantId = some tenantId)
    (hlimit : 1 ≤ limit) :
    VisitsEachOnce
        (calls (fun order query => ExampleService.list order tenantId query table) orders limit
          status)
        (table.matching tenantId status) ↔
      (table.matching tenantId status).length ≤ limit := by
  refine visitsEachOnce_iff_of_start hlimit (fun order => ?_) fun order record page hpage => ?_
  · exact ExampleService.list_start htenant hstored
  · exact absurd hpage (ExampleService.list_encodeCursor htexts record page)

theorem ScaffoldedService.visits_iff
    (htexts : UuidTexts uuid)
    (htenant : isUuid tenantId = true)
    (hstored : uuid.parse tenantId = some tenantId)
    (hlimit : 1 ≤ limit) :
    VisitsEachOnce
        (calls (fun order query => ScaffoldedService.list order tenantId query table) orders limit
          status)
        (table.matching tenantId status) ↔
      (table.matching tenantId status).length ≤ limit := by
  refine visitsEachOnce_iff_of_start hlimit (fun order => ?_) fun order record page hpage => ?_
  · exact ScaffoldedService.list_eq htexts htenant hstored (Or.inl rfl)
  · rw [← ScaffoldedService.list_eq htexts htenant hstored (Or.inr ⟨record, rfl⟩)]
    exact hpage

/--
Both list methods visit every matching example once exactly when the matching
examples fit one page.
-/
theorem visitsEachOnce_iff
    (htexts : UuidTexts uuid)
    (htenant : isUuid tenantId = true)
    (hstored : uuid.parse tenantId = some tenantId)
    (hlimit : 1 ≤ limit) :
    (VisitsEachOnce
        (calls (fun order query => ExampleService.list order tenantId query table) orders limit
          status)
        (table.matching tenantId status) ↔
      (table.matching tenantId status).length ≤ limit) ∧
    (VisitsEachOnce
        (calls (fun order query => ScaffoldedService.list order tenantId query table) orders limit
          status)
        (table.matching tenantId status) ↔
      (table.matching tenantId status).length ≤ limit) :=
  ⟨ExampleService.visits_iff orders htexts htenant hstored hlimit,
    ScaffoldedService.visits_iff orders htexts htenant hstored hlimit⟩

end Methods

end Statements

/-! ## Two examples of one instant -/

section TwoExamples

theorem plainUuids_texts : UuidTexts plainUuids where
  digits text value hparse c hc := by
    change (if isUuid text = true then some text else none) = some value at hparse
    split at hparse
    · next hvalid =>
      rcases isHexDigit_of_mem_uuid ⟨text, hvalid⟩ hc with rfl | hdigit
      · exact Or.inr List.mem_cons_self
      · exact Or.inl hdigit
    · cases hparse

def notOlder (first second : Example) : Bool :=
  decide (second.createdAt ≤ first.createdAt)

def newestFirst : Descending where
  arrange rows := rows.mergeSort notOlder
  perm rows := List.mergeSort_perm rows notOlder
  sorted rows := by
    have htrans (a b c : Example) (hab : notOlder a b = true) (hbc : notOlder b c = true) :
        notOlder a c = true :=
      decide_eq_true ((of_decide_eq_true hbc).trans (of_decide_eq_true hab))
    have htotal (a b : Example) : (notOlder a b || notOlder b a) = true := by
      rw [notOlder, notOlder, Bool.or_eq_true, decide_eq_true_eq, decide_eq_true_eq]
      exact le_total _ _
    exact (List.pairwise_mergeSort htrans htotal rows).imp fun h => of_decide_eq_true h

def secondStored : Example :=
  { stored "draft" with id := "00000000-0000-7000-8000-000000000002" }

theorem ids_nodup_two : KeysNodup Example.id [stored "draft", secondStored] := by
  unfold KeysNodup
  decide

theorem ids_stored_two :
    ∀ row ∈ [stored "draft", secondStored], plainUuids.parse row.id = some row.id := by
  have hsecond : isUuid "00000000-0000-7000-8000-000000000002" = true := by rfl
  intro row hrow
  rcases List.mem_cons.mp hrow with rfl | hrest
  · exact plainUuids_parse isUuid_storedId
  · rw [List.mem_singleton.mp hrest]
    exact plainUuids_parse hsecond

def twoExamples : ExampleTable plainUuids where
  rows := [stored "draft", secondStored]
  ids_nodup := ids_nodup_two
  ids_stored := ids_stored_two

theorem visitsEachOnce_twenty :
    VisitsEachOnce
        (calls (fun order query => ExampleService.list order acme query twoExamples)
          (fun _ => newestFirst) 20 (some .draft))
        (twoExamples.matching acme (some .draft)) ∧
      VisitsEachOnce
        (calls (fun order query => ScaffoldedService.list order acme query twoExamples)
          (fun _ => newestFirst) 20 (some .draft))
        (twoExamples.matching acme (some .draft)) := by
  have hacme : isUuid acme = true := by rfl
  have hfits : (twoExamples.matching acme (some .draft)).length ≤ 20 := by decide
  have hstored := plainUuids_parse hacme
  exact
    ⟨(visitsEachOnce_iff _ plainUuids_texts hacme hstored (by decide)).1.mpr hfits,
      (visitsEachOnce_iff _ plainUuids_texts hacme hstored (by decide)).2.mpr hfits⟩

/-- With one example a page, neither method comes to the second example. -/
theorem not_visitsEachOnce_one :
    ¬ VisitsEachOnce
        (calls (fun order query => ExampleService.list order acme query twoExamples)
          (fun _ => newestFirst) 1 none)
        (twoExamples.matching acme none) ∧
      ¬ VisitsEachOnce
        (calls (fun order query => ScaffoldedService.list order acme query twoExamples)
          (fun _ => newestFirst) 1 none)
        (twoExamples.matching acme none) := by
  have hacme : isUuid acme = true := by rfl
  have hmore : ¬ (twoExamples.matching acme none).length ≤ 1 := by decide
  have hstored := plainUuids_parse hacme
  exact
    ⟨mt (ExampleService.visits_iff _ plainUuids_texts hacme hstored le_rfl).mp hmore,
      mt (ScaffoldedService.visits_iff _ plainUuids_texts hacme hstored le_rfl).mp hmore⟩

end TwoExamples

end Examples
end NestBase
