import NestBase.Core.GdprErasure
import Mathlib.Data.List.Perm.Subperm

/-!
# The daily erasure run

`GdprErasureRunner.tick` reads the active requests, lets the planner part the
due ones from those still in their grace window, and erases the due ones one by
one; a failing erasure does not keep it from the others.

The read is an unordered `LIMIT 500` query, so it returns some 500 of the
active requests.  Requests in their grace window can fill it.
-/

namespace NestBase
namespace Gdpr

open Lib

/-! ## The planner -/

def DEFAULT_GRACE_PERIOD_MS : Int := 30 * 24 * 60 * 60 * 1000

structure GracePlanOutput where
  readyForErasure : List GraceErasureCandidate
  stillInGrace : List PendingErasureRow
  skipped : List PendingErasureRow

def PendingErasureRow.toCandidate (grace : Int) (record : PendingErasureRow) :
    GraceErasureCandidate where
  id := record.id
  userId := record.userId
  requestedAt := record.requestedAt
  graceExpiredAt := record.requestedAt + grace

/-- The loop of the planner over the records it has not seen. -/
def planRecords (grace now : Int) : GracePlanOutput → List PendingErasureRow → GracePlanOutput
  | plan, [] => plan
  | plan, record :: rest =>
      if record.cancelledAt.isSome || record.completedAt.isSome then
        planRecords grace now { plan with skipped := plan.skipped ++ [record] } rest
      else if record.requestedAt + grace ≤ now then
        planRecords grace now
          { plan with readyForErasure := plan.readyForErasure ++ [record.toCandidate grace] } rest
      else planRecords grace now { plan with stillInGrace := plan.stillInGrace ++ [record] } rest

/-- The record was cancelled or completed. -/
def PendingErasureRow.settled (record : PendingErasureRow) : Bool :=
  record.cancelledAt.isSome || record.completedAt.isSome

/-- The loop parts the records into three lists, each in their order. -/
theorem planRecords_eq
    (grace now : Int) (plan : GracePlanOutput) (records : List PendingErasureRow) :
    planRecords grace now plan records =
      { readyForErasure :=
          plan.readyForErasure ++
            (records.filter fun record =>
              !record.settled && decide (record.requestedAt + grace ≤ now)).map
                (PendingErasureRow.toCandidate grace)
        stillInGrace :=
          plan.stillInGrace ++
            records.filter fun record =>
              !record.settled && !decide (record.requestedAt + grace ≤ now)
        skipped := plan.skipped ++ records.filter PendingErasureRow.settled } := by
  induction records generalizing plan with
  | nil =>
      simp [planRecords]
  | cons record rest ih =>
      rw [planRecords]
      change (if record.settled then _ else _) = _
      by_cases hsettled : record.settled
      · rw [if_pos hsettled, ih]
        simp [hsettled]
      · rw [if_neg hsettled]
        by_cases hdue : record.requestedAt + grace ≤ now
        · rw [if_pos hdue, ih]
          simp [hsettled, hdue]
        · rw [if_neg hdue, ih]
          simp [hsettled, hdue]

def planGdprGracePeriodErasures
    (gracePeriodMs : Option Int) (now : Int) (pending : List PendingErasureRow) :
    Except String GracePlanOutput :=
  let grace := gracePeriodMs.getD DEFAULT_GRACE_PERIOD_MS
  if grace < 0 then
    .error s!"gdpr-grace: gracePeriodMs must be non-negative (received: {grace})"
  else
    .ok (planRecords grace now { readyForErasure := [], stillInGrace := [], skipped := [] } pending)

theorem planGdprGracePeriodErasures_default (now : Int) (pending : List PendingErasureRow) :
    planGdprGracePeriodErasures none now pending =
      .ok
        (planRecords DEFAULT_GRACE_PERIOD_MS now
          { readyForErasure := [], stillInGrace := [], skipped := [] } pending) := by
  have hgrace : ¬ DEFAULT_GRACE_PERIOD_MS < 0 := by decide
  unfold planGdprGracePeriodErasures
  dsimp only [Option.getD_none]
  rw [if_neg hgrace]

/-! ## The runner -/

/-- The closures of the runner but for its read, on a state they change. -/
structure GdprErasureRunnerInput (σ ε : Type) where
  eraseUser : GraceErasureCandidate → σ → Except ε Unit × σ
  markCompleted : String → Int → σ → Except ε Unit × σ
  gracePeriodMs : Option Int

/-- How far the loop of a tick is, and the candidates `eraseUser` was called for. -/
structure Progress (σ : Type) where
  erased : Nat
  called : List GraceErasureCandidate
  state : σ

structure TickResult (σ : Type) where
  erased : Nat
  stillInGrace : Nat
  skipped : Nat
  called : List GraceErasureCandidate
  state : σ

section Runner

variable {σ ε : Type}

/-- One turn of the loop; its `catch` only logs. -/
def eraseOne
    (input : GdprErasureRunnerInput σ ε) (now : Int)
    (progress : Progress σ) (candidate : GraceErasureCandidate) : Progress σ :=
  let called := progress.called ++ [candidate]
  match input.eraseUser candidate progress.state with
  | (.error _, state) => { progress with called := called, state := state }
  | (.ok (), state) =>
      match input.markCompleted candidate.id now state with
      | (.error _, state) => { progress with called := called, state := state }
      | (.ok (), state) => { erased := progress.erased + 1, called := called, state := state }

theorem called_eraseOne
    (input : GdprErasureRunnerInput σ ε) (now : Int)
    (progress : Progress σ) (candidate : GraceErasureCandidate) :
    (eraseOne input now progress candidate).called = progress.called ++ [candidate] := by
  unfold eraseOne
  dsimp only
  split
  · rfl
  · split <;> rfl

/-- The loop calls `eraseUser` for every candidate, whatever the outcomes. -/
theorem called_foldl_eraseOne
    (input : GdprErasureRunnerInput σ ε) (now : Int)
    (candidates : List GraceErasureCandidate) (progress : Progress σ) :
    (candidates.foldl (eraseOne input now) progress).called = progress.called ++ candidates := by
  induction candidates generalizing progress with
  | nil =>
      rw [List.foldl_nil, List.append_nil]
  | cons candidate rest ih =>
      rw [List.foldl_cons, ih, called_eraseOne, List.append_assoc, List.singleton_append]

/-- A tick after its read has returned the pending records. -/
def tick
    (input : GdprErasureRunnerInput σ ε) (planNow now : Int)
    (pending : List PendingErasureRow) (state : σ) : Except String (TickResult σ) :=
  match planGdprGracePeriodErasures input.gracePeriodMs planNow pending with
  | .error message => .error message
  | .ok plan =>
      let progress :=
        plan.readyForErasure.foldl (eraseOne input now) { erased := 0, called := [], state := state }
      .ok
        { erased := progress.erased
          stillInGrace := plan.stillInGrace.length
          skipped := plan.skipped.length
          called := progress.called
          state := progress.state }

theorem tick_of_plan
    (input : GdprErasureRunnerInput σ ε) {planNow : Int} (now : Int)
    {pending : List PendingErasureRow} (state : σ) {plan : GracePlanOutput}
    (hplan : planGdprGracePeriodErasures input.gracePeriodMs planNow pending = .ok plan) :
    ∃ result, tick input planNow now pending state = .ok result ∧
      result.called = plan.readyForErasure := by
  unfold tick
  rw [hplan]
  exact ⟨_, rfl, called_foldl_eraseOne input now plan.readyForErasure _⟩

end Runner

/-! ## The production input -/

section Default

variable {κ : Type}

/-- The rows the query of `readPendingErasures` selects from. -/
def active (database : Database κ) : List PendingErasureRow :=
  database.pendingErasures.filter fun row => row.completedAt.isNone && row.cancelledAt.isNone

/-- The query may return these rows: active ones, and as many as its limit admits. -/
structure ReadPendingErasures (database : Database κ) (pending : List PendingErasureRow) : Prop where
  subperm : pending.Subperm (active database)
  length : pending.length = min 500 (active database).length

/-- The closures of the factory; each erasure has its own surroundings. -/
def buildDefaultGdprErasureRunnerInput (env : GraceErasureCandidate → Surroundings) :
    GdprErasureRunnerInput (Database κ) DbError where
  eraseUser candidate database := eraseUser (env candidate) candidate database
  markCompleted _ _ database := (.ok (), database)
  gracePeriodMs := none

/-! ## Starved requests -/

/-- The grace window of the request is over. -/
def graceOver (now : Int) (row : PendingErasureRow) : Bool :=
  decide (row.requestedAt + DEFAULT_GRACE_PERIOD_MS ≤ now)

/-- The active requests whose grace window is over. -/
def due (now : Int) (database : Database κ) : List PendingErasureRow :=
  (active database).filter (graceOver now)

/-- The active requests still in their grace window. -/
def inGrace (now : Int) (database : Database κ) : List PendingErasureRow :=
  (active database).filter fun row => !graceOver now row

/--
Whatever the query returns, the tick calls `eraseUser` for due requests only,
and for all of them or at least 500.
-/
def NeverStarved
    (env : GraceErasureCandidate → Surroundings) (planNow now : Int) (database : Database κ) :
    Prop :=
  ∀ pending, ReadPendingErasures database pending →
    ∃ (result : TickResult (Database κ)) (rows : List PendingErasureRow),
      tick (buildDefaultGdprErasureRunnerInput env) planNow now pending database = .ok result ∧
      result.called = rows.map (PendingErasureRow.toCandidate DEFAULT_GRACE_PERIOD_MS) ∧
      rows.Subperm (due planNow database) ∧
      min (due planNow database).length 500 ≤ rows.length

/-! ## One tick -/

variable {env : GraceErasureCandidate → Surroundings} {planNow now : Int}
variable {database : Database κ} {pending : List PendingErasureRow}

theorem not_settled_of_mem_active {row : PendingErasureRow} (hrow : row ∈ active database) :
    row.settled = false := by
  have hopen := (List.mem_filter.mp hrow).2
  unfold PendingErasureRow.settled
  cases hcancelled : row.cancelledAt <;> cases hcompleted : row.completedAt <;>
    simp [hcancelled, hcompleted] at hopen ⊢

/-- A tick erases the due ones among the rows it has read. -/
theorem tick_called
    (env : GraceErasureCandidate → Surroundings) (planNow now : Int)
    (hread : ReadPendingErasures database pending) :
    ∃ result,
      tick (buildDefaultGdprErasureRunnerInput env) planNow now pending database = .ok result ∧
      result.called =
        (pending.filter (graceOver planNow)).map
          (PendingErasureRow.toCandidate DEFAULT_GRACE_PERIOD_MS) := by
  obtain ⟨result, hresult, hcalled⟩ :=
    tick_of_plan (buildDefaultGdprErasureRunnerInput env) now database
      (planGdprGracePeriodErasures_default planNow pending)
  refine ⟨result, hresult, hcalled.trans ?_⟩
  rw [planRecords_eq]
  have hsame :
      (pending.filter fun row =>
          !row.settled && decide (row.requestedAt + DEFAULT_GRACE_PERIOD_MS ≤ planNow)) =
        pending.filter (graceOver planNow) := by
    refine List.filter_congr fun row hrow => ?_
    rw [not_settled_of_mem_active (hread.subperm.subset hrow), Bool.not_false, Bool.true_and]
    rfl
  rw [hsame]
  rfl

theorem filter_graceOver_subperm (hread : ReadPendingErasures database pending) :
    (pending.filter (graceOver planNow)).Subperm (due planNow database) :=
  hread.subperm.filter _

theorem length_due_add_inGrace (planNow : Int) (database : Database κ) :
    (due planNow database).length + (inGrace planNow database).length =
      (active database).length := by
  have hperm := (List.filter_append_perm (graceOver planNow) (active database)).length_eq
  rwa [List.length_append] at hperm

/-- Where every active request fits the limit, or all or none are due, no due one waits. -/
theorem neverStarved_of_fits (env : GraceErasureCandidate → Surroundings) (now : Int)
    (hfits :
      (active database).length ≤ 500 ∨ (due planNow database).length = 0 ∨
        (inGrace planNow database).length = 0) :
    NeverStarved env planNow now database := by
  intro pending hread
  obtain ⟨result, hresult, hcalled⟩ := tick_called env planNow now hread
  refine ⟨result, _, hresult, hcalled, filter_graceOver_subperm hread, ?_⟩
  have hparts := length_due_add_inGrace planNow database
  rcases hfits with hsmall | hnone | hall
  · have hlength : pending.length = (active database).length := by
      rw [hread.length]
      omega
    have hperm : pending.Perm (active database) :=
      hread.subperm.perm_of_length_le hlength.ge
    have hdue := (hperm.filter (graceOver planNow)).length_eq
    change _ = (due planNow database).length at hdue
    omega
  · omega
  · have hdue : pending.filter (graceOver planNow) = pending := by
      rw [List.filter_eq_self]
      intro row hrow
      have hactive := hread.subperm.subset hrow
      by_contra hopen
      have hmem : row ∈ inGrace planNow database :=
        List.mem_filter.mpr ⟨hactive, by simpa using hopen⟩
      rw [List.eq_nil_of_length_eq_zero hall] at hmem
      exact absurd hmem List.not_mem_nil
    rw [hdue, hread.length]
    omega

/-- The query may prefer the requests in their grace window. -/
theorem readPendingErasures_inGraceFirst (planNow : Int) (database : Database κ) :
    ReadPendingErasures database
      ((inGrace planNow database ++ due planNow database).take 500) := by
  have hperm : (inGrace planNow database ++ due planNow database).Perm (active database) :=
    List.perm_append_comm.trans (List.filter_append_perm (graceOver planNow) (active database))
  constructor
  · exact (List.take_sublist _ _).subperm.trans hperm.subperm
  · rw [List.length_take, hperm.length_eq]

theorem length_filter_inGraceFirst (planNow : Int) (database : Database κ) :
    (((inGrace planNow database ++ due planNow database).take 500).filter
        (graceOver planNow)).length =
      min (500 - (inGrace planNow database).length) (due planNow database).length := by
  rw [List.take_append, List.filter_append, List.length_append]
  have hnone : ((inGrace planNow database).take 500).filter (graceOver planNow) = [] := by
    rw [List.filter_eq_nil_iff]
    intro row hrow
    have hopen := (List.mem_filter.mp (List.mem_of_mem_take hrow)).2
    simpa using hopen
  have hall :
      ((due planNow database).take (500 - (inGrace planNow database).length)).filter
          (graceOver planNow) =
        (due planNow database).take (500 - (inGrace planNow database).length) := by
    rw [List.filter_eq_self]
    exact fun row hrow => (List.mem_filter.mp (List.mem_of_mem_take hrow)).2
  rw [hnone, hall, List.length_nil, Nat.zero_add, List.length_take]

/-- With more active requests than the limit, some due and some not, a due one may wait. -/
theorem not_neverStarved_of_crowded
    (env : GraceErasureCandidate → Surroundings) (now : Int)
    (hmany : 500 < (active database).length)
    (hdue : 0 < (due planNow database).length)
    (hgrace : 0 < (inGrace planNow database).length) :
    ¬ NeverStarved env planNow now database := by
  intro h
  have hread := readPendingErasures_inGraceFirst planNow database
  obtain ⟨result, rows, hresult, hrows, -, hcount⟩ := h _ hread
  obtain ⟨result', hresult', hcalled⟩ := tick_called env planNow now hread
  rw [hresult] at hresult'
  cases hresult'
  have hlength := congrArg List.length (hrows.symm.trans hcalled)
  rw [List.length_map, List.length_map, length_filter_inGraceFirst] at hlength
  have hparts := length_due_add_inGrace planNow database
  omega

/--
A due request is never starved exactly when all active requests fit the limit
of the query, or none of them is due, or all are.
-/
theorem neverStarved_iff
    (env : GraceErasureCandidate → Surroundings) (planNow now : Int) (database : Database κ) :
    NeverStarved env planNow now database ↔
      (active database).length ≤ 500 ∨ (due planNow database).length = 0 ∨
        (inGrace planNow database).length = 0 := by
  refine ⟨fun h => ?_, neverStarved_of_fits env now⟩
  by_contra hcrowded
  rw [not_or, not_or] at hcrowded
  exact
    not_neverStarved_of_crowded env now (Nat.lt_of_not_le hcrowded.1)
      (Nat.pos_of_ne_zero hcrowded.2.1) (Nat.pos_of_ne_zero hcrowded.2.2) h

end Default

/-! ## A full page of young requests -/

section Crowd

def crowdUser (n : Nat) : UserRow :=
  { personRow "Ada" s!"ada{n}@example.org" none with id := s!"u{n}" }

def crowdRequest (requestedAt : Int) (n : Nat) : PendingErasureRow where
  id := s!"r{n}"
  userId := s!"u{n}"
  requestedAt := requestedAt
  cancelledAt := none
  completedAt := none

/-- When the first request is due, and the others are a second old. -/
def crowdNow : Int := DEFAULT_GRACE_PERIOD_MS

/-- 500 young requests and an old one. -/
def crowd : Database String where
  users := (List.range 501).map crowdUser
  secondary _ := []
  pendingErasures :=
    (List.range 500).map (crowdRequest (crowdNow - 1000)) ++ [crowdRequest 0 500]

theorem active_crowd : active crowd = crowd.pendingErasures := by
  unfold active
  rw [List.filter_eq_self]
  intro row hrow
  rcases List.mem_append.mp hrow with hyoung | hold
  · obtain ⟨n, -, rfl⟩ := List.mem_map.mp hyoung
    rfl
  · cases List.mem_singleton.mp hold
    rfl

theorem graceOver_young (n : Nat) :
    graceOver crowdNow (crowdRequest (crowdNow - 1000) n) = false := by
  have hgrace : DEFAULT_GRACE_PERIOD_MS = 2592000000 := by decide
  unfold graceOver crowdRequest crowdNow
  dsimp only
  rw [decide_eq_false_iff_not]
  omega

theorem due_crowd : due crowdNow crowd = [crowdRequest 0 500] := by
  have hyoung :
      ((List.range 500).map (crowdRequest (crowdNow - 1000))).filter (graceOver crowdNow) = [] := by
    rw [List.filter_eq_nil_iff]
    intro row hrow
    obtain ⟨n, -, rfl⟩ := List.mem_map.mp hrow
    rw [graceOver_young]
    exact Bool.false_ne_true
  unfold due
  rw [active_crowd]
  unfold crowd
  dsimp only
  rw [List.filter_append, hyoung]
  rfl

/-- The due request waits behind the young ones. -/
theorem not_neverStarved_crowd : ¬ NeverStarved (fun _ => quiet) crowdNow crowdNow crowd := by
  have hactive : (active crowd).length = 501 := by
    rw [active_crowd]
    simp [crowd]
  have hdue : (due crowdNow crowd).length = 1 := by
    rw [due_crowd]
    rfl
  have hparts := length_due_add_inGrace crowdNow crowd
  refine not_neverStarved_of_crowded _ crowdNow ?_ ?_ ?_ <;> omega

end Crowd

end Gdpr
end NestBase
