import Mathlib.Algebra.Order.Floor.Semiring
import Mathlib.Data.Rat.Floor
import NestBase.Lib.Number
import NestBase.Lib.OrderedMap

/-!
# The throttler's windows

`upsert` counts a call in the row of its key, or opens a fresh window when the row has
expired.  `increment` blocks the calls over the limit and reports the seconds
that the window has left, rounded down.

A window lets at most `limit` calls through (`unblocked_le_limit`).  The reported
time is honest when the window ends a whole number of seconds after the call:
otherwise it still runs when the reported seconds are over.
-/

namespace NestBase
namespace Core
namespace Throttler

open Lib

/-- The window that the calls for a key are counted in, short enough that its end is a date. -/
structure Window where
  limit : ℚ
  ttlMs : ℚ
  limit_nonneg : 0 ≤ limit
  ttlMs_pos : 0 < ttlMs
  ttlMs_le : ttlMs ≤ 10 ^ 15

/-- A row of `throttler_records`; times in milliseconds. -/
structure ThrottlerRow where
  count : Nat
  expiresAt : Nat
deriving DecidableEq

abbrev Rows : Type :=
  Record String ThrottlerRow

/-- The largest `INTEGER` of the database. -/
def MAX_INTEGER : Nat := 2147483647

/-- `new Date(now + ttlMs)`: the sum of two doubles, cut to whole milliseconds.  Among dates it is
not before `now` by itself (`newExpiresAt_eq`). -/
def newExpiresAt (ttlMs : ℚ) (now : Nat) : Nat :=
  max now ⌊Number.plus now ttlMs⌋₊

/-- The last date, in milliseconds after 1970. -/
def LAST_DATE : Nat := 8640000000000000

theorem newExpiresAt_eq (window : Window) {now : Nat} (hnow : now ≤ 7 * 10 ^ 15) :
    newExpiresAt window.ttlMs now = ⌊Number.plus now window.ttlMs⌋₊ ∧
      newExpiresAt window.ttlMs now ≤ LAST_DATE := by
  have hpos := window.ttlMs_pos
  have hsum : now + window.ttlMs ≤ ((8 * 10 ^ 15 : Nat) : ℚ) := by
    have hcast : (now : ℚ) ≤ 7 * 10 ^ 15 := by exact_mod_cast hnow
    have hshort := window.ttlMs_le
    push_cast
    linarith
  have hsmall : now + window.ttlMs < 2 ^ 53 := hsum.trans_lt (by norm_num)
  have hlow : now ≤ ⌊Number.plus now window.ttlMs⌋₊ :=
    Nat.le_floor (Number.le_plus (by linarith) hsmall)
  have hhigh : Number.plus now window.ttlMs ≤ ((8 * 10 ^ 15 : Nat) : ℚ) + 1 :=
    Number.plus_le (by positivity) hsum hsmall
  refine ⟨max_eq_right hlow, max_le (hnow.trans (by decide)) (Nat.floor_le_of_le ?_)⟩
  exact hhigh.trans (by norm_num [LAST_DATE])

/-- The row after the statement; none when it raises an error. -/
def upsert (key : String) (ttlMs : ℚ) (now : Nat) (rows : Rows) : Option (ThrottlerRow × Rows) :=
  if ttlMs ≤ 0 then none
  else
    let fresh : ThrottlerRow := { count := 1, expiresAt := newExpiresAt ttlMs now }
    match rows.get key with
    | none => some (fresh, rows.set key fresh)
    | some row =>
        if row.expiresAt > now then
          let counted : ThrottlerRow := { count := row.count + 1, expiresAt := row.expiresAt }
          if counted.count > MAX_INTEGER then none else some (counted, rows.set key counted)
        else some (fresh, rows.set key fresh)

structure ThrottlerStorageRecord where
  totalHits : Nat
  /-- Seconds remaining in the window. -/
  timeToExpire : Int
  isBlocked : Bool
  /-- Seconds remaining in the block. -/
  timeToBlockExpire : Int
deriving DecidableEq

def storageRecord (limit : ℚ) (now : Nat) (row : ThrottlerRow) : ThrottlerStorageRecord :=
  let timeToExpire := max 0 (((row.expiresAt : Int) - now) / 1000)
  { totalHits := row.count
    timeToExpire := timeToExpire
    isBlocked := decide (limit < row.count)
    timeToBlockExpire := timeToExpire }

def increment (key : String) (window : Window) (now : Nat) (rows : Rows) :
    Option (ThrottlerStorageRecord × Rows) :=
  (upsert key window.ttlMs now rows).map fun result =>
    (storageRecord window.limit now result.1, result.2)

/-! ## Histories -/

structure Call where
  key : String
  now : Nat

/-- The rows, and the records reported so far with their keys, the latest first. -/
structure World where
  rows : Rows
  reported : List (String × ThrottlerStorageRecord)

def World.initial : World where
  rows := Record.empty
  reported := []

section Histories

-- Each key has its own window.
variable (windows : String → Window)

def step (w : World) (call : Call) : World :=
  match increment call.key (windows call.key) call.now w.rows with
  | none => w
  | some (record, rows) => { rows := rows, reported := (call.key, record) :: w.reported }

def playFrom (w : World) (calls : List Call) : World :=
  calls.foldl (step windows) w

def play (calls : List Call) : World :=
  playFrom windows World.initial calls

/-- The records of a key, the latest first. -/
def recordsOf (key : String) (w : World) : List ThrottlerStorageRecord :=
  (w.reported.filter fun entry => entry.1 = key).map Prod.snd

end Histories

/-- The records of the window that the latest one belongs to. -/
def currentWindow : List ThrottlerStorageRecord → List ThrottlerStorageRecord
  | [] => []
  | record :: earlier =>
      if record.totalHits = 1 then [record] else record :: currentWindow earlier

def unblocked (records : List ThrottlerStorageRecord) : Nat :=
  records.countP fun record => !record.isBlocked

/-! ## One statement -/

/-- The count that a call brings its window to. -/
def hits (rows : Rows) (call : Call) : Nat :=
  match rows.get call.key with
  | none => 1
  | some row => if row.expiresAt > call.now then row.count + 1 else 1

/-- The end of the window that a call is counted in. -/
def windowEnd (ttlMs : ℚ) (rows : Rows) (call : Call) : Nat :=
  match rows.get call.key with
  | none => newExpiresAt ttlMs call.now
  | some row => if row.expiresAt > call.now then row.expiresAt else newExpiresAt ttlMs call.now

theorem upsert_eq {ttlMs : ℚ} (hpos : 0 < ttlMs) (rows : Rows) (call : Call) :
    upsert call.key ttlMs call.now rows =
      if hits rows call > MAX_INTEGER then none
      else
        some ({ count := hits rows call, expiresAt := windowEnd ttlMs rows call },
          rows.set call.key
            { count := hits rows call, expiresAt := windowEnd ttlMs rows call }) := by
  have hone : ¬ 1 > MAX_INTEGER := by decide
  unfold upsert hits windowEnd
  rw [if_neg (not_le.mpr hpos)]
  cases hrow : rows.get call.key with
  | none => simp only [if_neg hone]
  | some row =>
      by_cases hlive : row.expiresAt > call.now
      · simp only [if_pos hlive]
      · simp only [if_neg hlive, if_neg hone]

theorem increment_eq (window : Window) (rows : Rows) (call : Call) :
    increment call.key window call.now rows =
      if hits rows call > MAX_INTEGER then none
      else
        some (storageRecord window.limit call.now
            { count := hits rows call, expiresAt := windowEnd window.ttlMs rows call },
          rows.set call.key
            { count := hits rows call, expiresAt := windowEnd window.ttlMs rows call }) := by
  rw [increment, upsert_eq window.ttlMs_pos]
  split <;> rfl

theorem hits_pos (rows : Rows) (call : Call) : 0 < hits rows call := by
  unfold hits
  split
  · exact Nat.one_pos
  · split <;> omega

/-- A window ends when the call comes or later. -/
theorem now_le_windowEnd (window : Window) (rows : Rows) (call : Call) :
    call.now ≤ windowEnd window.ttlMs rows call := by
  have hfresh : call.now ≤ newExpiresAt window.ttlMs call.now := le_max_left _ _
  unfold windowEnd
  split
  · exact hfresh
  · split <;> omega

/-- The reported seconds in milliseconds are at most what the window has left. -/
theorem timeToBlockExpire_eq
    {limit : ℚ} {now : Nat} {row : ThrottlerRow}
    (h : now ≤ row.expiresAt) :
    (storageRecord limit now row).timeToBlockExpire = ((row.expiresAt - now) / 1000 : Nat) := by
  simp only [storageRecord]
  omega

/-! ## Calls for other keys -/

section Runs

variable (windows : String → Window)

theorem get_step_of_ne {key : String} {call : Call} (h : call.key ≠ key) (w : World) :
    (step windows w call).rows.get key = w.rows.get key := by
  rw [step, increment_eq]
  by_cases hmany : hits w.rows call > MAX_INTEGER
  · simp only [if_pos hmany]
  · simp only [if_neg hmany]
    rw [Record.get_set, if_neg h]

theorem get_playFrom_of_ne
    {key : String} {calls : List Call}
    (h : ∀ call ∈ calls, call.key ≠ key)
    (w : World) :
    (playFrom windows w calls).rows.get key = w.rows.get key := by
  induction calls generalizing w with
  | nil => rfl
  | cons call calls ih =>
      rw [List.forall_mem_cons] at h
      rw [playFrom, List.foldl_cons]
      exact (ih h.2 _).trans (get_step_of_ne windows h.1 w)

/-! ## At most `limit` calls in a window -/

/-- The current window of every key has let at most `limit` calls through, and no
more than it has counted. -/
def WithinLimits (w : World) : Prop :=
  ∀ key, ((unblocked (currentWindow (recordsOf key w)) : ℚ) ≤ (windows key).limit) ∧
    ∀ row, w.rows.get key = some row → unblocked (currentWindow (recordsOf key w)) ≤ row.count

theorem withinLimits_initial : WithinLimits windows World.initial := by
  intro key
  refine ⟨?_, ?_⟩
  · have hzero : unblocked (currentWindow (recordsOf key World.initial)) = 0 := rfl
    rw [hzero]
    exact_mod_cast (windows key).limit_nonneg
  · intro row hrow
    cases hrow

theorem recordsOf_cons
    (key other : String)
    (record : ThrottlerStorageRecord)
    (rows rows' : Rows)
    (reported : List (String × ThrottlerStorageRecord)) :
    recordsOf key { rows := rows, reported := (other, record) :: reported } =
      if other = key then record :: recordsOf key { rows := rows', reported := reported }
      else recordsOf key { rows := rows', reported := reported } := by
  by_cases h : other = key <;> simp [recordsOf, h]

theorem hits_cases (rows : Rows) (call : Call) :
    hits rows call = 1 ∨
      ∃ row, rows.get call.key = some row ∧ hits rows call = row.count + 1 := by
  unfold hits
  cases hrow : rows.get call.key with
  | none => exact .inl rfl
  | some row =>
      by_cases hlive : row.expiresAt > call.now
      · exact .inr ⟨row, rfl, if_pos hlive⟩
      · exact .inl (if_neg hlive)

theorem unblocked_cons (record : ThrottlerStorageRecord) (records : List ThrottlerStorageRecord) :
    unblocked (record :: records) =
      unblocked records + if record.isBlocked = true then 0 else 1 := by
  unfold unblocked
  rw [List.countP_cons]
  cases record.isBlocked <;> rfl

/-- One record more: a fresh window starts at most with one call let through, and a
running one lets a call through only within the limit. -/
theorem unblocked_currentWindow_cons
    {window : Window} {record : ThrottlerStorageRecord} {earlier : List ThrottlerStorageRecord}
    (hblocked : record.isBlocked = decide (window.limit < record.totalHits))
    (hlimit : (unblocked (currentWindow earlier) : ℚ) ≤ window.limit)
    (hcount : record.totalHits ≠ 1 →
      unblocked (currentWindow earlier) + 1 ≤ record.totalHits) :
    (unblocked (currentWindow (record :: earlier)) : ℚ) ≤ window.limit ∧
      unblocked (currentWindow (record :: earlier)) ≤ record.totalHits := by
  have hopen : record.isBlocked = false → (record.totalHits : ℚ) ≤ window.limit := by
    intro h
    rw [h] at hblocked
    exact not_lt.mp (of_decide_eq_false hblocked.symm)
  by_cases hone : record.totalHits = 1
  · rw [currentWindow, if_pos hone, unblocked_cons]
    cases hrecord : record.isBlocked with
    | true => exact ⟨by simpa [unblocked] using window.limit_nonneg, by simp [unblocked]⟩
    | false =>
        have hle := hopen hrecord
        rw [hone] at hle
        exact ⟨by simpa [unblocked] using hle, by simp [unblocked, hone]⟩
  · have hnext := hcount hone
    rw [currentWindow, if_neg hone, unblocked_cons]
    cases hrecord : record.isBlocked with
    | true => exact ⟨by simpa using hlimit, by simp; omega⟩
    | false =>
        have hle := hopen hrecord
        have hcast : ((unblocked (currentWindow earlier) + 1 : Nat) : ℚ) ≤ record.totalHits := by
          exact_mod_cast hnext
        exact ⟨by simpa using hcast.trans hle, by simpa using hnext⟩

theorem withinLimits_step {w : World} (h : WithinLimits windows w) (call : Call) :
    WithinLimits windows (step windows w call) := by
  rw [step, increment_eq]
  by_cases hmany : hits w.rows call > MAX_INTEGER
  · simp only [if_pos hmany]
    exact h
  · simp only [if_neg hmany]
    intro key
    rw [recordsOf_cons _ _ _ _ w.rows, Record.get_set]
    by_cases hkey : call.key = key
    · subst hkey
      rw [if_pos rfl, if_pos rfl]
      obtain ⟨hlimit, hcount⟩ := h call.key
      have hnext : hits w.rows call ≠ 1 →
          unblocked (currentWindow (recordsOf call.key w)) + 1 ≤ hits w.rows call := by
        intro hne
        rcases hits_cases w.rows call with hone | ⟨row, hrow, hhits⟩
        · exact absurd hone hne
        · have hle := hcount row hrow
          omega
      have hwindow := @unblocked_currentWindow_cons (windows call.key)
        (storageRecord (windows call.key).limit call.now
          { count := hits w.rows call
            expiresAt := windowEnd (windows call.key).ttlMs w.rows call })
        _ rfl hlimit hnext
      refine ⟨hwindow.1, fun row hrow => ?_⟩
      obtain rfl := Option.some.inj hrow
      exact hwindow.2
    · rw [if_neg hkey, if_neg hkey]
      exact h key

theorem withinLimits_playFrom {w : World} (h : WithinLimits windows w) (calls : List Call) :
    WithinLimits windows (playFrom windows w calls) := by
  induction calls generalizing w with
  | nil => exact h
  | cons call calls ih => exact ih (withinLimits_step windows h call)

/-! ## Honest reset times -/

/-- After the history, the reset time reported for the call is honest, and its
window has let at most `limit` calls through. -/
structure Honest (history : List Call) (call : Call) : Prop where
  reset : ∀ record rows,
    increment call.key (windows call.key) call.now (play windows history).rows =
        some (record, rows) →
      record.isBlocked = true →
        ∀ (others : List Call) (now : Nat), (∀ other ∈ others, other.key ≠ call.key) →
          (call.now : Int) + 1000 * record.timeToBlockExpire ≤ now →
            ∃ record' rows',
              increment call.key (windows call.key) now
                  (play windows (history ++ call :: others)).rows = some (record', rows') ∧
                record'.totalHits = 1
  limit :
    (unblocked (currentWindow (recordsOf call.key (play windows (history ++ [call])))) : ℚ) ≤
      (windows call.key).limit

/-- A call that is counted over the limit has a window that ends a whole number of
seconds after it. -/
def EndsOnSecond (history : List Call) (call : Call) : Prop :=
  hits (play windows history).rows call ≤ MAX_INTEGER →
    (windows call.key).limit < hits (play windows history).rows call →
      1000 ∣ windowEnd (windows call.key).ttlMs (play windows history).rows call - call.now

variable {rows : Rows}

theorem hits_of_live
    {call : Call} {row : ThrottlerRow}
    (hrow : rows.get call.key = some row)
    (hlive : call.now < row.expiresAt) :
    hits rows call = row.count + 1 := by
  rw [hits, hrow]
  exact if_pos hlive

theorem hits_of_expired
    {call : Call} {row : ThrottlerRow}
    (hrow : rows.get call.key = some row)
    (hexpired : row.expiresAt ≤ call.now) :
    hits rows call = 1 := by
  rw [hits, hrow]
  exact if_neg (not_lt.mpr hexpired)

theorem play_append (history calls : List Call) :
    play windows (history ++ calls) = playFrom windows (play windows history) calls :=
  List.foldl_append

variable {history : List Call}

/-- The row of the key after a counted call and calls for other keys. -/
theorem get_play_append
    {others : List Call} {call : Call}
    (hothers : ∀ other ∈ others, other.key ≠ call.key)
    (hfew : ¬ hits (play windows history).rows call > MAX_INTEGER) :
    (play windows (history ++ call :: others)).rows.get call.key =
      some
        { count := hits (play windows history).rows call
          expiresAt := windowEnd (windows call.key).ttlMs (play windows history).rows call } := by
  rw [play_append, playFrom, List.foldl_cons]
  refine (get_playFrom_of_ne windows hothers _).trans ?_
  rw [step, increment_eq]
  simp only [if_neg hfew]
  rw [Record.get_set, if_pos rfl]

/-- The call that comes as soon as the reported seconds are over. -/
def asSoonAsReported (windowEnd : Nat) (call : Call) : Call where
  key := call.key
  now := call.now + 1000 * ((windowEnd - call.now) / 1000)

theorem endsOnSecond_of_honest {call : Call} (h : Honest windows history call) :
    EndsOnSecond windows history call := by
  intro hfew hover
  let row : ThrottlerRow :=
    { count := hits (play windows history).rows call
      expiresAt := windowEnd (windows call.key).ttlMs (play windows history).rows call }
  let next := asSoonAsReported row.expiresAt call
  have hend : call.now ≤ row.expiresAt :=
    now_le_windowEnd (windows call.key) (play windows history).rows call
  have hreported := increment_eq (windows call.key) (play windows history).rows call
  rw [if_neg (not_lt.mpr hfew)] at hreported
  by_contra hnot
  have hlater : (call.now : Int) +
      1000 * (storageRecord (windows call.key).limit call.now row).timeToBlockExpire ≤
        next.now := by
    rw [timeToBlockExpire_eq hend]
    simp [next, asSoonAsReported]
  have hnone : ∀ other ∈ ([] : List Call), other.key ≠ call.key := by simp
  obtain ⟨record, rows, hnext, hfresh⟩ :=
    h.reset _ _ hreported (decide_eq_true hover) [] next.now hnone hlater
  have hrow := get_play_append windows hnone (not_lt.mpr hfew)
  have hlive : next.now < row.expiresAt := by
    have hpart : ¬ 1000 ∣ row.expiresAt - call.now := hnot
    simp only [next, asSoonAsReported]
    omega
  have hhits := @hits_of_live _ next row hrow hlive
  have hagain := increment_eq (windows call.key) (play windows (history ++ [call])).rows next
  rw [hhits] at hagain
  split at hagain
  · cases hnext.symm.trans hagain
  · obtain ⟨rfl, -⟩ := Prod.mk.inj (Option.some.inj (hnext.symm.trans hagain))
    have hpos : 0 < row.count := hits_pos (play windows history).rows call
    simp only [storageRecord] at hfresh
    omega

theorem reset_of_endsOnSecond {call : Call}
    (h : EndsOnSecond windows history call)
    {record : ThrottlerStorageRecord}
    (hreported : increment call.key (windows call.key) call.now (play windows history).rows =
      some (record, rows))
    (hblocked : record.isBlocked = true)
    {others : List Call}
    (hothers : ∀ other ∈ others, other.key ≠ call.key)
    {now : Nat}
    (hlater : (call.now : Int) + 1000 * record.timeToBlockExpire ≤ now) :
    ∃ record' rows',
      increment call.key (windows call.key) now (play windows (history ++ call :: others)).rows =
          some (record', rows') ∧
        record'.totalHits = 1 := by
  rw [increment_eq] at hreported
  by_cases hmany : hits (play windows history).rows call > MAX_INTEGER
  · rw [if_pos hmany] at hreported
    cases hreported
  · rw [if_neg hmany] at hreported
    obtain ⟨rfl, -⟩ := Prod.mk.inj (Option.some.inj hreported)
    have hwhole := h (not_lt.mp hmany) (of_decide_eq_true hblocked)
    have hend := now_le_windowEnd (windows call.key) (play windows history).rows call
    rw [timeToBlockExpire_eq hend] at hlater
    let next : Call := { key := call.key, now := now }
    have hrow := get_play_append windows hothers hmany
    have hexpired :
        windowEnd (windows call.key).ttlMs (play windows history).rows call ≤ next.now := by
      simp only [next]
      push_cast at hlater
      omega
    have hhits := @hits_of_expired _ next _ hrow hexpired
    have hnext := increment_eq (windows call.key)
      (play windows (history ++ call :: others)).rows next
    have hone : ¬ 1 > MAX_INTEGER := by decide
    rw [hhits, if_neg hone] at hnext
    exact ⟨_, _, hnext, rfl⟩

/-- The reported time is honest exactly for a window that ends a whole number of
seconds after the call. -/
theorem honest_iff (history : List Call) (call : Call) :
    Honest windows history call ↔ EndsOnSecond windows history call := by
  constructor
  · exact endsOnSecond_of_honest windows
  · intro h
    refine ⟨?_, ?_⟩
    · intro record rows hreported hblocked others now hothers hlater
      exact reset_of_endsOnSecond windows h hreported hblocked hothers hlater
    · have hlimits := withinLimits_playFrom windows (withinLimits_initial windows)
        (history ++ [call])
      exact (hlimits call.key).1

end Runs

/-- One call in one and a half seconds. -/
def oneInWindow : Window where
  limit := 1
  ttlMs := 1500
  limit_nonneg := by norm_num
  ttlMs_pos := by norm_num
  ttlMs_le := by norm_num

def firstCall : Call where
  key := "ip"
  now := 0

/-- A second call at the same time is blocked for one second, and half a second later
than that the window still runs. -/
theorem not_honest_secondCall : ¬ Honest (fun _ => oneInWindow) [firstCall] firstCall := by
  intro h
  have hone : hits World.initial.rows firstCall = 1 := rfl
  have hfew : ¬ hits (play (fun _ => oneInWindow) []).rows firstCall > MAX_INTEGER := by
    change ¬ hits World.initial.rows firstCall > MAX_INTEGER
    rw [hone]
    decide
  have hnone : ∀ other ∈ ([] : List Call), other.key ≠ firstCall.key := by simp
  have hrow : (play (fun _ => oneInWindow) [firstCall]).rows.get firstCall.key =
      some { count := 1, expiresAt := newExpiresAt 1500 0 } :=
    get_play_append (fun _ => oneInWindow) hnone hfew
  have hend : newExpiresAt 1500 0 = 1500 := by
    have hsum : Number.plus ((0 : Nat) : ℚ) 1500 = (1500 : Nat) :=
      Number.plus_eq (by norm_num) (by decide)
    rw [newExpiresAt, hsum, Nat.floor_natCast]
    rfl
  rw [hend] at hrow
  have hhits : hits (play (fun _ => oneInWindow) [firstCall]).rows firstCall = 2 := by
    rw [hits, hrow]
    rfl
  have hwindow : windowEnd oneInWindow.ttlMs
      (play (fun _ => oneInWindow) [firstCall]).rows firstCall = 1500 := by
    rw [windowEnd, hrow]
    rfl
  have hwhole := endsOnSecond_of_honest _ h
  rw [EndsOnSecond, hhits, hwindow] at hwhole
  have hover : (oneInWindow.limit : ℚ) < ((2 : Nat) : ℚ) := by norm_num [oneInWindow]
  have hdvd := hwhole (by decide) hover
  simp [firstCall] at hdvd

end Throttler
end Core
end NestBase
