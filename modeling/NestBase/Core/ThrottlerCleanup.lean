import NestBase.Core.Throttler
import NestBase.Lib.Upkeep

/-!
# The cleanup of expired throttler rows

`ThrottlerCleanupCron` deletes the rows whose `expires_at` lies more than a day
before its clock.  `upsert` opens a fresh window for a missing row as it does for an
expired one, so a deleted row is missed by no call whose clock is less than a day
behind the tick: with and without the ticks every call is reported the same hits,
seconds and block (`reported_sweeps`).
-/

namespace NestBase
namespace Core
namespace Throttler

open Lib
open Lib.Upkeep

/-! ## The cron -/

def DEFAULT_THROTTLER_RETENTION_DAYS : Nat := 1

/-- The time before which a tick deletes, for the time the clock shows. -/
def cleanupCutoffMs (now : Nat) : Int :=
  (now : Int) - DEFAULT_THROTTLER_RETENTION_DAYS * 24 * 60 * 60 * 1000

/-- `DELETE FROM "throttler_records" WHERE "expires_at" < $1` -/
def deleteExpired (cutoffMs : Int) (rows : Rows) : Rows :=
  removeWhere (fun row => decide ((row.expiresAt : Int) < cutoffMs)) rows

/-- The number of rows that the statement reports. -/
def deletedCount (cutoffMs : Int) (rows : Rows) : Nat :=
  (keysWhere (fun row => decide ((row.expiresAt : Int) < cutoffMs)) rows).length

structure CleanupReport where
  cutoffMs : Int
  /-- `none` where the source has `null`: the statement was refused. -/
  deleted : Option Nat
deriving DecidableEq

/-- A tick of the cron; the database may refuse its statement. -/
structure Tick where
  now : Nat
  refused : Bool

def runOnce (tick : Tick) (rows : Rows) : CleanupReport × Rows :=
  let cutoffMs := cleanupCutoffMs tick.now
  if tick.refused then ({ cutoffMs := cutoffMs, deleted := none }, rows)
  else
    ({ cutoffMs := cutoffMs, deleted := some (deletedCount cutoffMs rows) },
      deleteExpired cutoffMs rows)

def sweep (tick : Tick) (w : World) : World :=
  { w with rows := (runOnce tick w.rows).2 }

/-- The calls with ticks between them. -/
abbrev Log := List (Upkept Call Tick)

/-- A call whose clock is at most a day behind the tick. -/
def WithinRetention (tick : Tick) (call : Call) : Prop :=
  cleanupCutoffMs tick.now ≤ call.now

/-! ## With and without the ticks -/

/-- A row that none of these calls finds live. -/
def ExpiredFor (rest : List Call) (row : ThrottlerRow) : Prop :=
  ∀ call ∈ rest, row.expiresAt ≤ call.now

structure Agrees (rest : List Call) (w t : World) : Prop where
  rows : ∀ key, AgreesBut (ExpiredFor rest) (w.rows.get key) (t.rows.get key)
  reported : w.reported = t.reported

/-- The row that a call counts in. -/
def liveRow (rows : Rows) (call : Call) : Option ThrottlerRow :=
  live (fun row => (row.expiresAt : Int)) call.now (rows.get call.key)

theorem liveRow_of_live {rows : Rows} {call : Call} {row : ThrottlerRow}
    (hrow : rows.get call.key = some row) (hlive : row.expiresAt > call.now) :
    liveRow rows call = some row := by
  unfold liveRow live
  rw [hrow, Option.filter_some_pos]
  exact decide_eq_true (Int.ofNat_lt.mpr hlive)

theorem liveRow_of_expired {rows : Rows} {call : Call} {row : ThrottlerRow}
    (hrow : rows.get call.key = some row) (hexpired : ¬ row.expiresAt > call.now) :
    liveRow rows call = none := by
  unfold liveRow live
  rw [hrow, Option.filter_some_neg]
  exact decide_eq_false (Int.ofNat_lt.not.mpr hexpired)

/-- The count and the end of a window depend on the row that the call counts in. -/
theorem hits_eq_of_liveRow (rows : Rows) (call : Call) :
    hits rows call = (liveRow rows call).elim 1 fun row => row.count + 1 := by
  unfold hits
  cases hrow : rows.get call.key with
  | none =>
      unfold liveRow live
      rw [hrow]
      rfl
  | some row =>
      by_cases hlive : row.expiresAt > call.now
      · rw [liveRow_of_live hrow hlive]
        exact if_pos hlive
      · rw [liveRow_of_expired hrow hlive]
        exact if_neg hlive

theorem windowEnd_eq_of_liveRow (ttlMs : ℚ) (rows : Rows) (call : Call) :
    windowEnd ttlMs rows call =
      (liveRow rows call).elim (newExpiresAt ttlMs call.now) ThrottlerRow.expiresAt := by
  unfold windowEnd
  cases hrow : rows.get call.key with
  | none =>
      unfold liveRow live
      rw [hrow]
      rfl
  | some row =>
      by_cases hlive : row.expiresAt > call.now
      · rw [liveRow_of_live hrow hlive]
        exact if_pos hlive
      · rw [liveRow_of_expired hrow hlive]
        exact if_neg hlive

namespace Agrees

variable {rest : List Call} {w t : World}

theorem refl (rest : List Call) (w : World) : Agrees rest w w where
  rows _ := .refl _ _
  reported := rfl

theorem liveRow_eq {call : Call} (h : Agrees (call :: rest) w t) :
    liveRow w.rows call = liveRow t.rows call :=
  live_of_agreesBut
    (fun _ hdead => Int.ofNat_le.mpr (hdead call List.mem_cons_self)) (h.rows call.key)

theorem tail {call : Call} (h : Agrees (call :: rest) w t) : Agrees rest w t where
  rows key := (h.rows key).mono fun _ hdead other hmem =>
    hdead other (List.mem_cons_of_mem call hmem)
  reported := h.reported

/-- A tick that no later call is more than a day behind. -/
theorem sweep
    (h : Agrees rest w t) (tick : Tick) (htick : ∀ call ∈ rest, WithinRetention tick call) :
    Agrees rest (Throttler.sweep tick w) t := by
  refine ⟨fun key => ?_, h.reported⟩
  unfold Throttler.sweep runOnce
  dsimp only
  split
  · exact h.rows key
  · have hold : ∀ row : ThrottlerRow, (row.expiresAt : Int) < cleanupCutoffMs tick.now →
        ExpiredFor rest row := by
      intro row hrow call hmem
      exact Int.ofNat_le.mp (Int.le_of_lt (Int.lt_of_lt_of_le hrow (htick call hmem)))
    unfold deleteExpired
    rw [get_removeWhere, filter_not_before_eq_swept fun row : ThrottlerRow => (row.expiresAt : Int)]
    exact (h.rows key).swept hold

/-- A call is counted in both tables in the same way. -/
theorem step {call : Call} (h : Agrees (call :: rest) w t) (windows : String → Window) :
    Agrees rest (Throttler.step windows w call) (Throttler.step windows t call) := by
  have hhits : hits w.rows call = hits t.rows call := by
    rw [hits_eq_of_liveRow, hits_eq_of_liveRow, h.liveRow_eq]
  have hend : windowEnd (windows call.key).ttlMs w.rows call =
      windowEnd (windows call.key).ttlMs t.rows call := by
    rw [windowEnd_eq_of_liveRow, windowEnd_eq_of_liveRow, h.liveRow_eq]
  rw [Throttler.step, Throttler.step, increment_eq, increment_eq, hhits, hend]
  by_cases hmany : hits t.rows call > MAX_INTEGER
  · simp only [if_pos hmany]
    exact h.tail
  · simp only [if_neg hmany]
    refine ⟨fun key => ?_, congrArg (List.cons _) h.reported⟩
    rw [Record.get_set, Record.get_set]
    split
    · exact .refl _ _
    · exact h.tail.rows key

end Agrees

section Runs

variable (windows : String → Window)

def playWithCleanup (log : Log) : Option World :=
  runEvents (stepUpkept (fun w call => some (step windows w call)) sweep) World.initial log

/-- Every call is reported what it is reported without the ticks, when no call comes more than a
day behind an earlier tick. -/
theorem reported_sweeps {log : Log} (hclock : Timely WithinRetention log) :
    (playWithCleanup windows log).map World.reported =
      some (play windows (eventsOf log)).reported := by
  have hruns := observed_runUpkept (R := Agrees)
    (fun _ tick _ _ htick h => h.sweep tick htick)
    (fun _ _ _ _ h => .some (h.step windows))
    (fun _ _ h => h.reported)
    hclock (.refl _ World.initial)
  rw [runEvents_some] at hruns
  exact hruns

end Runs

/-- A call, a tick after its window has been over for a day, and a call again. -/
def sweptLog : Log :=
  [.event { key := "u", now := 0 }, .upkeep { now := 86500000, refused := false },
    .event { key := "u", now := 86500000 }]

theorem withinRetention_of_le {tick : Tick} {call : Call} (h : tick.now ≤ call.now) :
    WithinRetention tick call := by
  have hday : (0 : Int) ≤ (DEFAULT_THROTTLER_RETENTION_DAYS : Int) * 24 * 60 * 60 * 1000 := by
    positivity
  unfold WithinRetention cleanupCutoffMs
  omega

theorem reported_sweeps_sweptLog :
    (playWithCleanup (fun _ => oneInWindow) sweptLog).map World.reported =
      some (play (fun _ => oneInWindow) (eventsOf sweptLog)).reported :=
  reported_sweeps _
    (.cons (fun _ _ => trivial)
      (.cons (fun _ hmem => List.mem_singleton.mp hmem ▸ withinRetention_of_le (Nat.le_refl _))
        (.cons (fun _ hmem => absurd hmem List.not_mem_nil) .nil)))

end Throttler
end Core
end NestBase
