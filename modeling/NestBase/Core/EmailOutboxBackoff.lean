import NestBase.Core.EmailOutboxTerminal

/-!
# Backoff and attempt accounting of the email outbox

A tick lists records once and claims them later, and `claim` tests only the
status and the claim of the row.  When another tick has failed on the record
in between, the claim still succeeds: the record is sent again before its
`nextAttemptAt`, and the failure that follows stores an attempt count computed
from the old listing.

The runs considered here have a monotone clock and no admin action
(`inScope`); for the accounting, no tick ends while it holds a claim
(`keepsClaim`).  Under the condition `ClaimsListedState` on the claims both
parts hold (`backoffAndAccounting_of_claimsListedState`).  The invariant
`Accounted` ties every record in work to one tick and to the attempt data of
its row.
-/

namespace NestBase
namespace EmailOutbox

open Lib

section Backoff

variable {Payload : Type}

/-! ## What a tick is doing -/

/-- The record a tick has claimed and how far it is with it. -/
def Tick.work : Tick Payload → Option (EmailOutboxRecord Payload × Stage)
  | working candidate _ stage _ _ => some (candidate, stage)
  | _ => none

/-- The listed records a tick has not treated yet. -/
def Tick.todo : Tick Payload → List (EmailOutboxRecord Payload)
  | looping todo _ => todo
  | working _ _ _ todo _ => todo
  | _ => []

/-- `nextAttemptAt` is absent or reached. -/
def Due (nextAttemptAt : Option Int) (now : Int) : Prop :=
  ∀ n, nextAttemptAt = some n → n ≤ now

theorem Due.mono
    {nextAttemptAt : Option Int} {now now' : Int}
    (hdue : Due nextAttemptAt now)
    (hle : now ≤ now') :
    Due nextAttemptAt now' := by
  intro n hn
  exact le_trans (hdue n hn) hle

/-- Monotone clock and no admin action. -/
def inScope (w : World Payload) : Event Payload → Bool
  | .clock now => decide (w.clock ≤ now)
  | .adminFind _ _ _ => false
  | .adminWrite _ => false
  | _ => true

/--
No tick ends while it holds a claim, be it by a crash or because the write of
its `catch` block rejects.
-/
def keepsClaim (w : World Payload) : Event Payload → Bool
  | .crash k => (w.ticks k).work.isNone
  | .recordFailureFails _ _ => false
  | _ => true

/--
A claim that succeeds finds the attempt data its tick has listed, and no tick
still at work on the record.
-/
def ClaimsListedState (w : World Payload) (e : Event Payload) : Prop :=
  ∀ k candidate todo result row,
    e = .claim k →
    w.ticks k = .looping (candidate :: todo) result →
    rowById candidate.id w.rows = some row →
    (StorageWrite.claim candidate.id w.clock).matching row = true →
    row.attemptCount = candidate.attemptCount ∧
    row.nextAttemptAt = candidate.nextAttemptAt ∧
    ∀ k' other stage, (w.ticks k').work = some (other, stage) → other.id ≠ candidate.id

/-- No dispatch happens before the `nextAttemptAt` stored on the record. -/
def DispatchesWhenDue (options : WorkerOptions) (w : World Payload) : Prop :=
  ∀ k candidate w' row,
    (w.ticks k).work = some (candidate, .claimed) →
    step options w (.dispatch k) = some w' →
    rowById candidate.id w.rows = some row →
    Due row.nextAttemptAt w.clock

/--
The stored attempt count is the number of recorded transient failures, and no
record was dispatched more than `maxAttempts` times.
-/
def AttemptsCounted (options : WorkerOptions) (w : World Payload) : Prop :=
  (∀ id row,
    rowById id w.rows = some row →
    row.attemptCount = w.log.count (.transientFailure id)) ∧
  (∀ id, w.log.count (.dispatched id) ≤ options.retry.maxAttempts)

/-- Backoff in all runs in scope; accounting in those where no claim is left behind. -/
def BackoffAndAccounting
    (options : WorkerOptions)
    (guard : World Payload → Event Payload → Prop) : Prop :=
  (∀ clock w,
    Reaches (step options) (fun t e => inScope t e = true ∧ guard t e)
      (initialWorld clock) w →
    DispatchesWhenDue options w) ∧
  (∀ clock w,
    Reaches (step options)
      (fun t e => inScope t e = true ∧ keepsClaim t e = true ∧ guard t e)
      (initialWorld clock) w →
    AttemptsCounted options w)

/-! ## The invariant -/

section Invariant

variable {crashFree : Prop} {options : WorkerOptions} {w w' : World Payload}

/-- The counters of a row agree with the history. -/
structure RowAccounted
    (options : WorkerOptions)
    (w : World Payload)
    (id : String)
    (row : PrismaEmailOutboxRow Payload) : Prop where
  attempts : row.attemptCount = w.log.count (.transientFailure id)
  below : row.attemptCount < options.retry.maxAttempts
  dispatches : w.log.count (.dispatched id) ≤ row.attemptCount + 1
  undispatched :
    row.status = .PENDING →
    (∀ k candidate stage,
      (w.ticks k).work = some (candidate, stage) → candidate.id = id → stage = .claimed) →
    w.log.count (.dispatched id) ≤ row.attemptCount

/-- The writes the `catch` block can have chosen for a record. -/
def FailureWrite
    (options : WorkerOptions)
    (candidate : EmailOutboxRecord Payload)
    (write : StorageWrite) : Prop :=
  (∃ at_ error, write = .markDeadLetter candidate.id at_ error) ∨
  (∃ nextAttemptAt error,
    write =
      .recordTransientFailure candidate.id (candidate.attemptCount + 1) nextAttemptAt error ∧
    candidate.attemptCount + 1 < options.retry.maxAttempts)

/-- Until its `catch` block the row of a claimed record is pending. -/
def Stage.Fits
    (options : WorkerOptions)
    (candidate : EmailOutboxRecord Payload)
    (row : PrismaEmailOutboxRow Payload) : Stage → Prop
  | failing write => FailureWrite options candidate write
  | _ => row.status = .PENDING

/-- A record in work still has the attempt data it was listed with. -/
structure InWork
    (options : WorkerOptions)
    (w : World Payload)
    (candidate : EmailOutboxRecord Payload)
    (stage : Stage) : Prop where
  as_listed :
    ∃ row,
      rowById candidate.id w.rows = some row ∧
      row.attemptCount = candidate.attemptCount ∧
      row.nextAttemptAt = candidate.nextAttemptAt ∧
      stage.Fits options candidate row
  due : Due candidate.nextAttemptAt w.clock

/-- The counters are exact in runs where no claim was left behind (`crashFree`). -/
structure Accounted (crashFree : Prop) (options : WorkerOptions) (w : World Payload) : Prop where
  ids_nodup : KeysNodup PrismaEmailOutboxRow.id w.rows
  rows :
    crashFree →
    ∀ id row, rowById id w.rows = some row → RowAccounted options w id row
  absent :
    crashFree →
    ∀ id, rowById id w.rows = none →
      w.log.count (.dispatched id) = 0 ∧ w.log.count (.transientFailure id) = 0
  listed : ∀ k, ∀ candidate ∈ (w.ticks k).todo, Due candidate.nextAttemptAt w.clock
  work :
    ∀ k candidate stage,
      (w.ticks k).work = some (candidate, stage) → InWork options w candidate stage
  worker_unique :
    ∀ k k' candidate candidate' stage stage',
      (w.ticks k).work = some (candidate, stage) →
      (w.ticks k').work = some (candidate', stage') →
      candidate.id = candidate'.id →
      k = k'

theorem accounted_initialWorld (options : WorkerOptions) (clock : Int) :
    Accounted crashFree options (initialWorld clock : World Payload) := by
  constructor
  · exact List.nodup_nil
  · intro _ id row hrow
    simp [initialWorld, rowById, findRow] at hrow
  · intro _ id _
    simp [initialWorld]
  · intro k candidate hmem
    simp [initialWorld, Tick.todo] at hmem
  · intro k candidate stage hwork
    simp [initialWorld, Tick.work] at hwork
  · intro k k' candidate candidate' stage stage' hwork
    simp [initialWorld, Tick.work] at hwork

/-! ## Events that leave the records in work alone -/

theorem Tick.work_setTick (w : World Payload) (k k' : Nat) (tick : Tick Payload) :
    ((w.setTick k tick).ticks k').work = if k' = k then tick.work else (w.ticks k').work := by
  simp only [World.setTick, Function.update_apply]
  split <;> rfl

theorem Tick.todo_setTick (w : World Payload) (k k' : Nat) (tick : Tick Payload) :
    ((w.setTick k tick).ticks k').todo = if k' = k then tick.todo else (w.ticks k').todo := by
  simp only [World.setTick, Function.update_apply]
  split <;> rfl

/-- A row keeps its accounting while no dispatched record leaves its tick. -/
theorem RowAccounted.congr
    {id : String} {row row' : PrismaEmailOutboxRow Payload}
    (hrow : RowAccounted options w id row)
    (hlog : w'.log = w.log)
    (hattempts : row'.attemptCount = row.attemptCount)
    (hstatus : row'.status = row.status)
    (hwork :
      ∀ k candidate stage,
        (w.ticks k).work = some (candidate, stage) →
        candidate.id = id →
        stage ≠ .claimed →
        (w'.ticks k).work = some (candidate, stage)) :
    RowAccounted options w' id row' := by
  constructor
  · rw [hlog, hattempts]
    exact hrow.attempts
  · rw [hattempts]
    exact hrow.below
  · rw [hlog, hattempts]
    exact hrow.dispatches
  · intro hpending hclaimed
    rw [hlog, hattempts]
    refine hrow.undispatched (hstatus ▸ hpending) ?_
    intro k candidate stage hk hid
    by_contra hne
    exact hne (hclaimed k candidate stage (hwork k candidate stage hk hid hne) hid)

variable {k : Nat}

/-- A tick that holds no claim moves on without taking one. -/
theorem Accounted.setTick_of_work_none
    (hinv : Accounted crashFree options w)
    {tick : Tick Payload}
    (hbefore : (w.ticks k).work = none)
    (hafter : tick.work = none)
    (htodo : ∀ candidate ∈ tick.todo, Due candidate.nextAttemptAt w.clock) :
    Accounted crashFree options (w.setTick k tick) := by
  have hwork : ∀ k', ((w.setTick k tick).ticks k').work = (w.ticks k').work := by
    intro k'
    rw [Tick.work_setTick]
    split
    · next heq => rw [heq, hbefore, hafter]
    · rfl
  constructor
  · exact hinv.ids_nodup
  · intro hfree id row hrow
    refine (hinv.rows hfree id row hrow).congr rfl rfl rfl ?_
    intro k' candidate stage hk' _ _
    rw [hwork, hk']
  · exact hinv.absent
  · intro k' candidate hmem
    rw [Tick.todo_setTick] at hmem
    split at hmem
    · exact htodo candidate hmem
    · exact hinv.listed k' candidate hmem
  · intro k' candidate stage hk'
    rw [hwork] at hk'
    exact ⟨(hinv.work k' candidate stage hk').as_listed, (hinv.work k' candidate stage hk').due⟩
  · intro k₁ k₂ candidate candidate' stage stage' h₁ h₂ hid
    rw [hwork] at h₁ h₂
    exact hinv.worker_unique k₁ k₂ candidate candidate' stage stage' h₁ h₂ hid

/-- `claim` writes the claim stamp and nothing else. -/
theorem Accounted.write_claim
    (hinv : Accounted crashFree options w)
    (id : String) (claimedAt : Int) :
    Accounted crashFree options (w.write (.claim id claimedAt)) := by
  have hrows :
      ∀ id', rowById id' (w.write (.claim id claimedAt)).rows =
        (rowById id' w.rows).map fun row =>
          if (StorageWrite.claim id claimedAt).matching row
          then { row with claimedAt := some claimedAt } else row := by
    intro id'
    exact rowById_apply (.claim id claimedAt) id' w.rows
  constructor
  · exact hinv.ids_nodup.updateMany _ (StorageWrite.claim id claimedAt).id_change
  · intro hfree id' row' hrow'
    rw [hrows, Option.map_eq_some_iff] at hrow'
    obtain ⟨row, hrow, rfl⟩ := hrow'
    refine (hinv.rows hfree id' row hrow).congr rfl ?_ ?_ (fun _ _ _ h _ _ => h)
    · split <;> rfl
    · split <;> rfl
  · intro hfree id' hnone
    rw [hrows, Option.map_eq_none_iff] at hnone
    exact hinv.absent hfree id' hnone
  · exact hinv.listed
  · intro k candidate stage hk
    obtain ⟨⟨row, hrow, hattempts, hnext, hfits⟩, hdue⟩ := hinv.work k candidate stage hk
    refine ⟨⟨_, by rw [hrows, hrow]; rfl, ?_, ?_, ?_⟩, hdue⟩
    · rw [← hattempts]
      dsimp only
      split <;> rfl
    · rw [← hnext]
      dsimp only
      split <;> rfl
    · dsimp only
      cases stage <;> simp only [Stage.Fits] at hfits ⊢
      all_goals first
        | exact hfits
        | (split <;> exact hfits)
  · exact hinv.worker_unique

variable {candidate : EmailOutboxRecord Payload}
variable {result : EmailOutboxRunResult}
variable {claimedAt : Int}

/-- A tick without a claim takes one on a record nobody works on. -/
theorem Accounted.setTick_claimed
    (hinv : Accounted crashFree options w)
    {todo : List (EmailOutboxRecord Payload)}
    (hbefore : (w.ticks k).work = none)
    (htodo : ∀ other ∈ todo, Due other.nextAttemptAt w.clock)
    (hwork : InWork options w candidate .claimed)
    (hfree :
      ∀ k' other stage, (w.ticks k').work = some (other, stage) → other.id ≠ candidate.id) :
    Accounted crashFree options (w.setTick k (.working candidate claimedAt .claimed todo result)) := by
  constructor
  · exact hinv.ids_nodup
  · intro hfree id row hrow
    refine (hinv.rows hfree id row hrow).congr rfl rfl rfl ?_
    intro k' other stage hk' _ _
    rw [Tick.work_setTick]
    split
    · next heq =>
      rw [heq, hbefore] at hk'
      cases hk'
    · exact hk'
  · exact hinv.absent
  · intro k' other hmem
    rw [Tick.todo_setTick] at hmem
    split at hmem
    · exact htodo other hmem
    · exact hinv.listed k' other hmem
  · intro k' other stage hk'
    rw [Tick.work_setTick] at hk'
    split at hk'
    · cases hk'
      exact ⟨hwork.as_listed, hwork.due⟩
    · exact ⟨(hinv.work k' other stage hk').as_listed, (hinv.work k' other stage hk').due⟩
  · intro k₁ k₂ other other' stage stage' h₁ h₂ hid
    rw [Tick.work_setTick] at h₁ h₂
    split at h₁ <;> split at h₂
    · next heq₁ heq₂ => rw [heq₁, heq₂]
    · cases h₁
      exact absurd hid.symm (hfree k₂ other' stage' h₂)
    · cases h₂
      exact absurd hid (hfree k₁ other stage h₁)
    · exact hinv.worker_unique k₁ k₂ other other' stage stage' h₁ h₂ hid

/-! ## Events of the tick that works on a record -/

variable {stage : Stage}

/--
An event of the one tick that works on a record touches nothing that belongs
to another record.
-/
theorem Accounted.focus
    (hinv : Accounted crashFree options w)
    {tick : Tick Payload}
    (hwork : (w.ticks k).work = some (candidate, stage))
    (hticks : w'.ticks = Function.update w.ticks k tick)
    (hclock : w'.clock = w.clock)
    (hnodup : KeysNodup PrismaEmailOutboxRow.id w'.rows)
    (hother :
      ∀ id, id ≠ candidate.id →
        rowById id w'.rows = rowById id w.rows ∧
        w'.log.count (.dispatched id) = w.log.count (.dispatched id) ∧
        w'.log.count (.transientFailure id) = w.log.count (.transientFailure id))
    (hrow :
      ∃ row, rowById candidate.id w'.rows = some row ∧
        (crashFree → RowAccounted options w' candidate.id row))
    (htodo : tick.todo ⊆ (w.ticks k).todo)
    (htick :
      ∀ candidate' stage', tick.work = some (candidate', stage') →
        candidate' = candidate ∧ InWork options w' candidate stage') :
    Accounted crashFree options w' := by
  have htick_k : w'.ticks k = tick := by rw [hticks, Function.update_self]
  have htick_ne : ∀ k', k' ≠ k → w'.ticks k' = w.ticks k' := by
    intro k' hne
    rw [hticks, Function.update_of_ne hne]
  -- Another tick works on another record.
  have hforeign :
      ∀ k' other stage', k' ≠ k → (w.ticks k').work = some (other, stage') →
        other.id ≠ candidate.id := by
    intro k' other stage' hne hk' hid
    exact hne (hinv.worker_unique k' k other candidate stage' stage hk' hwork hid)
  constructor
  · exact hnodup
  · intro hfree id row hid
    by_cases heq : id = candidate.id
    · obtain ⟨row', hrow', haccounted⟩ := hrow
      subst heq
      rw [hrow'] at hid
      cases hid
      exact haccounted hfree
    · obtain ⟨hsame, hdispatched, hfailures⟩ := hother id heq
      rw [hsame] at hid
      have hold := hinv.rows hfree id row hid
      refine ⟨by rw [hfailures]; exact hold.attempts, hold.below,
        by rw [hdispatched]; exact hold.dispatches, ?_⟩
      intro hpending hclaimed
      rw [hdispatched]
      refine hold.undispatched hpending ?_
      intro k' other stage' hk' hother_id
      by_cases hkk : k' = k
      · subst hkk
        rw [hwork] at hk'
        cases hk'
        exact absurd hother_id.symm heq
      · exact hclaimed k' other stage' (by rw [htick_ne k' hkk]; exact hk') hother_id
  · intro hfree id hnone
    by_cases heq : id = candidate.id
    · obtain ⟨row', hrow', -⟩ := hrow
      rw [heq, hrow'] at hnone
      cases hnone
    · obtain ⟨hsame, hdispatched, hfailures⟩ := hother id heq
      rw [hsame] at hnone
      rw [hdispatched, hfailures]
      exact hinv.absent hfree id hnone
  · intro k' other hmem
    rw [hclock]
    by_cases hkk : k' = k
    · rw [hkk, htick_k] at hmem
      exact hinv.listed k other (htodo hmem)
    · rw [htick_ne k' hkk] at hmem
      exact hinv.listed k' other hmem
  · intro k' other stage' hk'
    by_cases hkk : k' = k
    · rw [hkk, htick_k] at hk'
      obtain ⟨rfl, hin⟩ := htick other stage' hk'
      exact hin
    · rw [htick_ne k' hkk] at hk'
      obtain ⟨⟨row, hrow', hlisted⟩, hdue⟩ := hinv.work k' other stage' hk'
      refine ⟨⟨row, ?_, hlisted⟩, by rw [hclock]; exact hdue⟩
      rw [(hother other.id (hforeign k' other stage' hkk hk')).1]
      exact hrow'
  · intro k₁ k₂ other other' stage₁ stage₂ h₁ h₂ hid
    by_cases hk₁ : k₁ = k <;> by_cases hk₂ : k₂ = k
    · rw [hk₁, hk₂]
    · rw [hk₁, htick_k] at h₁
      rw [htick_ne k₂ hk₂] at h₂
      obtain ⟨rfl, -⟩ := htick other stage₁ h₁
      exact absurd hid.symm (hforeign k₂ other' stage₂ hk₂ h₂)
    · rw [hk₂, htick_k] at h₂
      rw [htick_ne k₁ hk₁] at h₁
      obtain ⟨rfl, -⟩ := htick other' stage₂ h₂
      exact absurd hid (hforeign k₁ other stage₁ hk₁ h₁)
    · rw [htick_ne k₁ hk₁] at h₁
      rw [htick_ne k₂ hk₂] at h₂
      exact hinv.worker_unique k₁ k₂ other other' stage₁ stage₂ h₁ h₂ hid

/-- The statements of a tick change only the row they name. -/
theorem rowById_apply_of_ne
    {write : StorageWrite} {id : String}
    (hne : id ≠ write.id)
    (rows : List (PrismaEmailOutboxRow Payload)) :
    rowById id (write.apply rows) = rowById id rows := by
  rw [rowById_apply]
  cases hrow : rowById id rows with
  | none => rfl
  | some row =>
      have hid : row.id = id := key_of_findRow hrow
      have hmatch : write.matching row = false := by
        simp [StorageWrite.matching, hid, hne]
      simp [hmatch]

variable {rows : List (PrismaEmailOutboxRow Payload)}

/-- A finishing write changes the row it names whatever its state. -/
theorem rowById_apply_self
    {write : StorageWrite} {id : String} {row : PrismaEmailOutboxRow Payload}
    (hid : write.id = id)
    (hadmits : write.admits row = true)
    (hrow : rowById id rows = some row) :
    rowById id (write.apply rows) = some (write.change row) := by
  have hrowid : row.id = id := key_of_findRow hrow
  have hmatch : write.matching row = true := by
    simp [StorageWrite.matching, hrowid, hid, hadmits]
  rw [rowById_apply, hrow]
  simp [hmatch]

/-- The `catch` block always finds a write, and one that fits the listed record. -/
theorem planFailure_spec
    (options : WorkerOptions)
    (candidate : EmailOutboxRecord Payload)
    (raw : ThrownValue)
    (now : Int) :
    ∃ write,
      planFailure options.retry candidate raw now = .ok write ∧
      FailureWrite options candidate write := by
  unfold planFailure planEmailRetry
  dsimp only
  have hpos : ¬ candidate.attemptCount + 1 < 1 := by omega
  rw [if_neg hpos]
  by_cases hkind : classifyErrorKind raw = .permanent
  · rw [if_pos hkind]
    exact ⟨_, rfl, Or.inl ⟨_, _, rfl⟩⟩
  · rw [if_neg hkind]
    by_cases hcap : candidate.attemptCount + 1 ≥ options.retry.maxAttempts
    · rw [if_pos hcap]
      exact ⟨_, rfl, Or.inl ⟨_, _, rfl⟩⟩
    · rw [if_neg hcap]
      exact ⟨_, rfl, Or.inr ⟨_, _, rfl, by omega⟩⟩

/-- After a failure the tick holds the planned write. -/
theorem Tick.failed_spec
    (options : WorkerOptions)
    (candidate : EmailOutboxRecord Payload)
    (claimedAt : Int)
    (todo : List (EmailOutboxRecord Payload))
    (result : EmailOutboxRunResult)
    (raw : ThrownValue)
    (now : Int) :
    ∃ write,
      Tick.failed options candidate claimedAt todo result raw now =
        .working candidate claimedAt (.failing write) todo result ∧
      FailureWrite options candidate write := by
  obtain ⟨write, hplan, hwrite⟩ := planFailure_spec options candidate raw now
  refine ⟨write, ?_, hwrite⟩
  unfold Tick.failed
  rw [hplan]

/-- The tick moves on from a record past its dispatch; table and history stay. -/
theorem Accounted.setTick_advance
    (hinv : Accounted crashFree options w)
    {stage' : Stage} {todo : List (EmailOutboxRecord Payload)}
    (htick : w.ticks k = .working candidate claimedAt stage todo result)
    (hpast : stage' ≠ .claimed)
    (hfits :
      ∀ row, stage.Fits options candidate row → stage'.Fits options candidate row) :
    Accounted crashFree options
      (w.setTick k (.working candidate claimedAt stage' todo result)) := by
  have hwork : (w.ticks k).work = some (candidate, stage) := by rw [htick]; rfl
  obtain ⟨⟨row, hrow, hattempts, hnext, hstage⟩, hdue⟩ := hinv.work k candidate stage hwork
  refine hinv.focus hwork rfl rfl hinv.ids_nodup (fun _ _ => ⟨rfl, rfl, rfl⟩)
    ⟨row, hrow, ?_⟩ (by rw [htick]; exact List.Subset.refl _) ?_
  · intro hfree
    have hold := hinv.rows hfree candidate.id row hrow
    refine ⟨hold.attempts, hold.below, hold.dispatches, ?_⟩
    intro _ hclaimed
    refine absurd (hclaimed k candidate stage' ?_ rfl) hpast
    rw [Tick.work_setTick, if_pos rfl]
    rfl
  · intro candidate' stage'' hsame
    cases hsame
    exact ⟨rfl, ⟨row, hrow, hattempts, hnext, hfits row hstage⟩, hdue⟩

/-- The driver is called: the first dispatch since the row's last failure. -/
theorem Accounted.dispatch
    (hinv : Accounted crashFree options w)
    {todo : List (EmailOutboxRecord Payload)}
    (htick : w.ticks k = .working candidate claimedAt .claimed todo result) :
    Accounted crashFree options
      ((w.record (.dispatched candidate.id)).setTick k
        (.working candidate claimedAt .dispatching todo result)) := by
  have hwork : (w.ticks k).work = some (candidate, .claimed) := by rw [htick]; rfl
  obtain ⟨⟨row, hrow, hattempts, hnext, hpending⟩, hdue⟩ :=
    hinv.work k candidate .claimed hwork
  refine hinv.focus hwork rfl rfl hinv.ids_nodup ?_ ⟨row, hrow, ?_⟩
    (by rw [htick]; exact List.Subset.refl _) ?_
  · intro id hne
    refine ⟨rfl, ?_, ?_⟩
    · exact List.count_cons_of_ne (by simpa using hne.symm)
    · exact List.count_cons_of_ne (by simp)
  · intro hfree
    have hold := hinv.rows hfree candidate.id row hrow
    have hcount : w.log.count (.dispatched candidate.id) ≤ row.attemptCount := by
      refine hold.undispatched hpending ?_
      intro k' other stage hk' hid
      have hkk := hinv.worker_unique k' k other candidate stage .claimed hk' hwork hid
      rw [hkk, hwork] at hk'
      cases hk'
      rfl
    refine ⟨?_, hold.below, ?_, ?_⟩
    · rw [hold.attempts]
      exact (List.count_cons_of_ne (by simp)).symm
    · show List.count _ (_ :: w.log) ≤ _
      rw [List.count_cons_self]
      omega
    · intro _ hclaimed
      have hstage := hclaimed k candidate .dispatching
        (by rw [Tick.work_setTick, if_pos rfl]; rfl) rfl
      cases hstage
  · intro candidate' stage' hsame
    cases hsame
    exact ⟨rfl, ⟨row, hrow, hattempts, hnext, hpending⟩, hdue⟩

/-- `markSent` takes effect; the tick may still be caught by a rejection. -/
theorem Accounted.markSent
    (hinv : Accounted crashFree options w)
    {at_ : Int} {todo : List (EmailOutboxRecord Payload)} {tick : Tick Payload}
    (htick : w.ticks k = .working candidate claimedAt stage todo result)
    (htodo : tick.todo = todo)
    (hafter :
      ∀ candidate' stage', tick.work = some (candidate', stage') →
        candidate' = candidate ∧
        ∃ write, stage' = .failing write ∧ FailureWrite options candidate write) :
    Accounted crashFree options ((w.write (.markSent candidate.id at_)).setTick k tick) := by
  have hwork : (w.ticks k).work = some (candidate, stage) := by rw [htick]; rfl
  obtain ⟨⟨row, hrow, hattempts, hnext, -⟩, hdue⟩ := hinv.work k candidate stage hwork
  have hwritten :
      rowById candidate.id (StorageWrite.apply (.markSent candidate.id at_) w.rows) =
        some (StorageWrite.change row (.markSent candidate.id at_)) :=
    rowById_apply_self rfl rfl hrow
  refine hinv.focus hwork rfl rfl
    (hinv.ids_nodup.updateMany _ (StorageWrite.markSent candidate.id at_).id_change)
    (fun id hne => ⟨rowById_apply_of_ne hne w.rows, rfl, rfl⟩)
    ⟨_, hwritten, ?_⟩ (by rw [htick, htodo]; exact List.Subset.refl _) ?_
  · intro hfree
    have hold := hinv.rows hfree candidate.id row hrow
    refine ⟨hold.attempts, hold.below, hold.dispatches, ?_⟩
    intro hpending
    cases hpending
  · intro candidate' stage' hsame
    obtain ⟨rfl, write, rfl, hwrite⟩ := hafter candidate' stage' hsame
    exact ⟨rfl, ⟨_, hwritten, hattempts, hnext, hwrite⟩, hdue⟩

/-- The write of the `catch` block takes effect and is entered in the history. -/
theorem Accounted.recordFailure
    (hinv : Accounted crashFree options w)
    {write : StorageWrite}
    {todo : List (EmailOutboxRecord Payload)} {result' : EmailOutboxRunResult}
    (htick : w.ticks k = .working candidate claimedAt (.failing write) todo result) :
    Accounted crashFree options
      (((w.write write).recordOutcome write).setTick k (.looping todo result')) := by
  have hwork : (w.ticks k).work = some (candidate, .failing write) := by rw [htick]; rfl
  obtain ⟨⟨row, hrow, hattempts, -, hwrite⟩, -⟩ :=
    hinv.work k candidate (.failing write) hwork
  have htodo : (Tick.looping todo result').todo ⊆ (w.ticks k).todo := by
    rw [htick]
    exact List.Subset.refl _
  rcases hwrite with ⟨at_, error, rfl⟩ | ⟨nextAttemptAt, error, rfl, hbelow⟩
  · refine hinv.focus hwork rfl rfl (hinv.ids_nodup.updateMany _ (StorageWrite.id_change _))
      (fun id hne => ⟨rowById_apply_of_ne hne w.rows, rfl, rfl⟩)
      ⟨_, rowById_apply_self rfl rfl hrow, ?_⟩ htodo (by intro _ _ hsame; cases hsame)
    intro hfree
    have hold := hinv.rows hfree candidate.id row hrow
    refine ⟨hold.attempts, hold.below, hold.dispatches, ?_⟩
    intro hpending
    cases hpending
  · refine hinv.focus hwork rfl rfl (hinv.ids_nodup.updateMany _ (StorageWrite.id_change _))
      ?_ ⟨_, rowById_apply_self rfl rfl hrow, ?_⟩ htodo (by intro _ _ hsame; cases hsame)
    · intro id hne
      refine ⟨rowById_apply_of_ne hne w.rows, ?_, ?_⟩
      · exact List.count_cons_of_ne (by simp)
      · exact List.count_cons_of_ne (by simpa using hne.symm)
    · intro hfree
      have hold := hinv.rows hfree candidate.id row hrow
      have hdispatches := hold.dispatches
      -- The failure enters the history together with the new attempt count.
      have hsame :
          List.count (.dispatched candidate.id) (.transientFailure candidate.id :: w.log) =
            w.log.count (.dispatched candidate.id) :=
        List.count_cons_of_ne (by simp)
      refine ⟨?_, hbelow, ?_, ?_⟩
      · show candidate.attemptCount + 1 = List.count _ (_ :: w.log)
        rw [List.count_cons_self, ← hold.attempts, hattempts]
      · show List.count _ (_ :: w.log) ≤ candidate.attemptCount + 1 + 1
        omega
      · intro _ _
        show List.count _ (_ :: w.log) ≤ candidate.attemptCount + 1
        omega

/-- A tick ends and leaves its claim behind, with or without a last write. -/
theorem Accounted.abandon
    (hinv : Accounted crashFree options w)
    (hcrash : ¬ crashFree)
    (hwork : (w.ticks k).work = some (candidate, stage))
    (hrows :
      w'.rows = w.rows ∨
      ∃ write, FailureWrite options candidate write ∧ w'.rows = write.apply w.rows)
    (hclock : w'.clock = w.clock)
    (hlog : w'.log = w.log)
    (hticks : w'.ticks = Function.update w.ticks k .rejected) :
    Accounted crashFree options w' := by
  obtain ⟨⟨row, hrow, -⟩, -⟩ := hinv.work k candidate stage hwork
  have hend :
      ∀ candidate' stage', (Tick.rejected : Tick Payload).work = some (candidate', stage') →
        candidate' = candidate ∧ InWork options w' candidate stage' := by
    intro _ _ hsame
    cases hsame
  rcases hrows with hrows | ⟨write, hwrite, hrows⟩
  · refine hinv.focus hwork hticks hclock (by rw [hrows]; exact hinv.ids_nodup)
      (fun id _ => by rw [hrows, hlog]; exact ⟨rfl, rfl, rfl⟩)
      ⟨row, by rw [hrows]; exact hrow, fun hfree => absurd hfree hcrash⟩
      (List.nil_subset _) hend
  · have hid : write.id = candidate.id := by
      rcases hwrite with ⟨_, _, rfl⟩ | ⟨_, _, rfl, -⟩ <;> rfl
    have hadmits : write.admits row = true := by
      rcases hwrite with ⟨_, _, rfl⟩ | ⟨_, _, rfl, -⟩ <;> rfl
    refine hinv.focus hwork hticks hclock
      (by rw [hrows]; exact hinv.ids_nodup.updateMany _ (StorageWrite.id_change _))
      (fun id hne => by
        rw [hrows, hlog, rowById_apply_of_ne (hid ▸ hne)]
        exact ⟨rfl, rfl, rfl⟩)
      ⟨_, by rw [hrows]; exact rowById_apply_self hid hadmits hrow,
        fun hfree => absurd hfree hcrash⟩
      (List.nil_subset _) hend

/-! ## Steps and runs -/

/-- Time passes, or a party that works on no record moves. -/
theorem Accounted.congr
    (hinv : Accounted crashFree options w)
    (hrows : w'.rows = w.rows)
    (hclock : w.clock ≤ w'.clock)
    (hlog : w'.log = w.log)
    (hticks : w'.ticks = w.ticks) :
    Accounted crashFree options w' := by
  constructor
  · rw [hrows]
    exact hinv.ids_nodup
  · intro hfree id row hrow
    rw [hrows] at hrow
    refine (hinv.rows hfree id row hrow).congr hlog rfl rfl ?_
    intro k candidate stage hk _ _
    rw [hticks]
    exact hk
  · intro hfree id hnone
    rw [hrows] at hnone
    rw [hlog]
    exact hinv.absent hfree id hnone
  · intro k candidate hmem
    rw [hticks] at hmem
    exact (hinv.listed k candidate hmem).mono hclock
  · intro k candidate stage hk
    rw [hticks] at hk
    obtain ⟨⟨row, hrow, hlisted⟩, hdue⟩ := hinv.work k candidate stage hk
    exact ⟨⟨row, by rw [hrows]; exact hrow, hlisted⟩, hdue.mono hclock⟩
  · rw [hticks]
    exact hinv.worker_unique

/-- A new record starts with no attempt and no history. -/
theorem Accounted.append
    (hinv : Accounted crashFree options w)
    (hmax : 0 < options.retry.maxAttempts)
    {input : EnqueueInput Payload} {id : String} {now : Int}
    (happend : append (newRow input id now) w.rows = some rows) :
    Accounted crashFree options { w with rows := rows } := by
  have hfound := fun id' => (rowById_append happend id').2
  have hnew : rowById id w.rows = none := (rowById_append happend id).1
  have hkept :
      ∀ id' row, rowById id' w.rows = some row → rowById id' rows = some row := by
    intro id' row hrow
    rw [hfound, if_neg ?_]
    · exact hrow
    · intro heq
      rw [show id' = id from heq.symm, hnew] at hrow
      cases hrow
  constructor
  · unfold EmailOutbox.append at happend
    split at happend
    · cases happend
    · exact hinv.ids_nodup.insertRow happend
  · intro hfree id' row hrow
    change rowById id' rows = some row at hrow
    rw [hfound] at hrow
    split at hrow
    · next heq =>
      cases hrow
      have hid : id' = id := heq.symm
      subst hid
      obtain ⟨hdispatched, hfailures⟩ := hinv.absent hfree id' hnew
      refine ⟨hfailures.symm, hmax, ?_, ?_⟩
      · show List.count _ w.log ≤ _
        omega
      · intro _ _
        show List.count _ w.log ≤ _
        omega
    · exact (hinv.rows hfree id' row hrow).congr rfl rfl rfl (fun _ _ _ h _ _ => h)
  · intro hfree id' hnone
    refine hinv.absent hfree id' ?_
    cases hrow : rowById id' w.rows with
    | none => rfl
    | some row =>
        change rowById id' rows = none at hnone
        rw [hkept id' row hrow] at hnone
        cases hnone
  · exact hinv.listed
  · intro k candidate stage hk
    obtain ⟨⟨row, hrow, hlisted⟩, hdue⟩ := hinv.work k candidate stage hk
    exact ⟨⟨row, hkept _ _ hrow, hlisted⟩, hdue⟩
  · exact hinv.worker_unique

/-- `listDispatchable` returns due records. -/
theorem due_of_mem_listDispatchable
    {now : Int} {limit : Nat}
    (hmem : candidate ∈ listDispatchable now limit rows) :
    Due candidate.nextAttemptAt now := by
  simp only [listDispatchable, List.mem_map] at hmem
  obtain ⟨row, hrow, rfl⟩ := hmem
  have hfilter := List.mem_of_mem_take hrow
  rw [List.mem_insertionSort, List.mem_filter] at hfilter
  have hdispatchable := hfilter.2
  simp only [dispatchable, Bool.and_eq_true] at hdispatchable
  intro n hn
  have hdue := hdispatchable.1.2
  change row.nextAttemptAt = some n at hn
  rw [hn] at hdue
  simpa using hdue

/-- A claim that succeeds matches the row with the candidate's id. -/
theorem exists_row_of_claim_succeeds
    (hinv : Accounted crashFree options w)
    {id : String}
    (hsucceeds : (StorageWrite.claim id claimedAt).succeeds w.rows = true) :
    ∃ row,
      rowById id w.rows = some row ∧
      (StorageWrite.claim id claimedAt).matching row = true ∧
      row.status = .PENDING := by
  have hpos : 0 < updateCount (StorageWrite.claim id claimedAt).matching w.rows := by
    simpa [StorageWrite.succeeds] using hsucceeds
  obtain ⟨row, hrow, hadmits⟩ :=
    (updateCount_pos_iff hinv.ids_nodup).mp hpos
  have hid : row.id = id := key_of_findRow hrow
  have hparts := hadmits
  simp only [StorageWrite.admits, Bool.and_eq_true, decide_eq_true_eq] at hparts
  refine ⟨row, hrow, ?_, hparts.1⟩
  simp [StorageWrite.matching, StorageWrite.id, hid, hadmits]

/-- What a tick has listed and not yet tried is due. -/
theorem Accounted.due_looping
    (hinv : Accounted crashFree options w)
    {todo : List (EmailOutboxRecord Payload)}
    (htick : w.ticks k = .looping (candidate :: todo) result) :
    Due candidate.nextAttemptAt w.clock ∧
      ∀ other ∈ todo, Due other.nextAttemptAt w.clock := by
  have htodo := hinv.listed k
  rw [htick] at htodo
  refine ⟨htodo candidate List.mem_cons_self, ?_⟩
  intro other hmem
  exact htodo other (List.mem_cons_of_mem _ hmem)

/-- A claim that finds the state its tick had listed starts the work on the record. -/
theorem Accounted.claim
    (hinv : Accounted crashFree options w)
    {todo : List (EmailOutboxRecord Payload)}
    (htick : w.ticks k = .looping (candidate :: todo) result)
    (hsucceeds : (StorageWrite.claim candidate.id w.clock).succeeds w.rows = true)
    (hlisted : ClaimsListedState w (.claim k)) :
    Accounted crashFree options
      ((w.write (.claim candidate.id w.clock)).setTick k
        (.working candidate w.clock .claimed todo result)) := by
  obtain ⟨hdue, hrest⟩ := hinv.due_looping htick
  obtain ⟨row, hrow, hmatch, hpending⟩ := exists_row_of_claim_succeeds hinv hsucceeds
  obtain ⟨hattempts, hnext, hfree⟩ :=
    hlisted k candidate todo result row rfl htick hrow hmatch
  have hnone : (w.ticks k).work = none := by rw [htick]; rfl
  have hwritten :
      rowById candidate.id (StorageWrite.apply (.claim candidate.id w.clock) w.rows) =
        some (StorageWrite.change row (.claim candidate.id w.clock)) := by
    rw [rowById_apply, hrow]
    simp [hmatch]
  exact (hinv.write_claim candidate.id w.clock).setTick_claimed hnone hrest
    ⟨⟨_, hwritten, hattempts, hnext, hpending⟩, hdue⟩ hfree

theorem accounted_step
    (hmax : 0 < options.retry.maxAttempts)
    (hinv : Accounted crashFree options w)
    {e : Event Payload}
    (hscope : inScope w e = true)
    (hkeeps : crashFree → keepsClaim w e = true)
    (hlisted : ClaimsListedState w e)
    (hstep : step options w e = some w') :
    Accounted crashFree options w' := by
  cases stepped_of_step hstep with
  | clock now => exact hinv.congr rfl (by simpa [inScope] using hscope) rfl rfl
  | enqueueFound q input record hfound => exact hinv.congr rfl le_rfl rfl rfl
  | enqueueAbsent q input hfound => exact hinv.congr rfl le_rfl rfl rfl
  | enqueueAppended q id input rows hcall happend =>
      exact (hinv.append hmax happend).congr rfl le_rfl rfl rfl
  | enqueueRejected q id input hcall happend => exact hinv.congr rfl le_rfl rfl rfl
  | list k htick =>
      refine hinv.setTick_of_work_none (by rw [htick]; rfl) rfl ?_
      intro candidate hmem
      exact due_of_mem_listDispatchable hmem
  | listFails k htick =>
      exact hinv.setTick_of_work_none (by rw [htick]; rfl) rfl (by simp [Tick.todo])
  | claimed k candidate todo result htick hsucceeds => exact hinv.claim htick hsucceeds hlisted
  | claimLost k candidate todo result htick hfails =>
      exact hinv.setTick_of_work_none (by rw [htick]; rfl) rfl (hinv.due_looping htick).2
  | claimFails k applied candidate todo result htick =>
      obtain ⟨-, hrest⟩ := hinv.due_looping htick
      have hnone : (w.ticks k).work = none := by rw [htick]; rfl
      cases applied with
      | true =>
          exact (hinv.write_claim candidate.id w.clock).setTick_of_work_none hnone rfl hrest
      | false => exact hinv.setTick_of_work_none hnone rfl hrest
  | dispatch k candidate claimedAt todo result htick => exact hinv.dispatch htick
  | dispatchReturns k candidate claimedAt todo result htick =>
      exact hinv.setTick_advance htick (by simp) (fun _ hfits => hfits)
  | dispatchThrows k raw candidate claimedAt todo result htick =>
      obtain ⟨write, hfailed, hwrite⟩ :=
        Tick.failed_spec options candidate claimedAt todo result raw w.clock
      rw [hfailed]
      exact hinv.setTick_advance htick (by simp) (fun _ _ => hwrite)
  | markSent k candidate claimedAt at_ todo result htick =>
      refine hinv.markSent htick rfl ?_
      intro candidate' stage' hsame
      cases hsame
  | markSentFails k applied raw candidate claimedAt at_ todo result htick =>
      obtain ⟨write, hfailed, hwrite⟩ :=
        Tick.failed_spec options candidate claimedAt todo result raw w.clock
      rw [hfailed]
      cases applied with
      | true =>
          refine hinv.markSent htick rfl ?_
          intro candidate' stage' hsame
          cases hsame
          exact ⟨rfl, write, rfl, hwrite⟩
      | false => exact hinv.setTick_advance htick (by simp) (fun _ _ => hwrite)
  | recordFailure k candidate claimedAt write todo result htick => exact hinv.recordFailure htick
  | recordFailureFails k applied candidate claimedAt write todo result htick =>
      have hcrash : ¬ crashFree := by
        intro hfree
        simpa [keepsClaim] using hkeeps hfree
      have hwork : (w.ticks k).work = some (candidate, .failing write) := by
        rw [htick]
        rfl
      cases applied with
      | true =>
          obtain ⟨⟨_, _, _, _, hwrite⟩, -⟩ := hinv.work k candidate _ hwork
          exact hinv.abandon hcrash hwork (Or.inr ⟨write, hwrite, rfl⟩) rfl rfl rfl
      | false => exact hinv.abandon hcrash hwork (Or.inl rfl) rfl rfl rfl
  | endOfLoop k result htick =>
      exact hinv.setTick_of_work_none (by rw [htick]; rfl) rfl (by simp [Tick.todo])
  | crash k =>
      cases hwork : (w.ticks k).work with
      | none => exact hinv.setTick_of_work_none hwork rfl (by simp [Tick.todo])
      | some held =>
          refine hinv.abandon ?_ hwork (Or.inl rfl) rfl rfl rfl
          intro hfree
          simpa [keepsClaim, hwork] using hkeeps hfree
  | adminFind a action id request hadmin => simp [inScope] at hscope
  | adminWrite a action id hadmin => simp [inScope] at hscope

theorem accounted_of_reaches
    {guard : World Payload → Event Payload → Prop} {clock : Int}
    (hmax : 0 < options.retry.maxAttempts)
    (hguard :
      ∀ t e, guard t e →
        inScope t e = true ∧ (crashFree → keepsClaim t e = true) ∧ ClaimsListedState t e)
    (hrun : Reaches (step options) guard (initialWorld clock) w) :
    Accounted crashFree options w := by
  refine hrun.invariant (accounted_initialWorld options clock) ?_
  intro t e t' hinv hadmitted hstep
  obtain ⟨hscope, hkeeps, hlisted⟩ := hguard t e hadmitted
  exact accounted_step hmax hinv hscope hkeeps hlisted hstep

theorem Accounted.dispatchesWhenDue (hinv : Accounted crashFree options w) :
    DispatchesWhenDue options w := by
  intro k candidate w' row hwork _ hrow
  obtain ⟨⟨row', hrow', -, hnext, -⟩, hdue⟩ := hinv.work k candidate .claimed hwork
  rw [hrow] at hrow'
  cases hrow'
  rw [hnext]
  exact hdue

theorem Accounted.attemptsCounted (hinv : Accounted True options w) :
    AttemptsCounted options w := by
  constructor
  · intro id row hrow
    exact (hinv.rows trivial id row hrow).attempts
  · intro id
    cases hrow : rowById id w.rows with
    | none =>
        have hzero := (hinv.absent trivial id hrow).1
        omega
    | some row =>
        have haccounted := hinv.rows trivial id row hrow
        have hdispatches := haccounted.dispatches
        have hbelow := haccounted.below
        omega

end Invariant

theorem backoffAndAccounting_of_claimsListedState
    (options : WorkerOptions)
    (hmax : 0 < options.retry.maxAttempts) :
    @BackoffAndAccounting Payload options ClaimsListedState := by
  constructor
  · intro clock w hrun
    have hinv : Accounted False options w :=
      accounted_of_reaches hmax (fun _ _ h => ⟨h.1, False.elim, h.2⟩) hrun
    exact hinv.dispatchesWhenDue
  · intro clock w hrun
    have hinv : Accounted True options w :=
      accounted_of_reaches hmax (fun _ _ h => ⟨h.1, fun _ => h.2.1, h.2.2⟩) hrun
    exact hinv.attemptsCounted

theorem backoffAndAccounting_default :
    0 < defaultOptions.retry.maxAttempts ∧
    @BackoffAndAccounting Unit defaultOptions ClaimsListedState :=
  ⟨by decide, backoffAndAccounting_of_claimsListedState defaultOptions (by decide)⟩

/-! ## A record sent again before its time -/

def smtpTimeout : ThrownValue where
  message := "timeout"
  kind := none

/-- Tick 1 lists the record, tick 0 fails on it, then tick 1 claims it. -/
def claimAfterSiblingFailure : List (Event Unit) :=
  [.enqueueFind 0 mailInput, .enqueueAppend 0 "m",
    .list 1,
    .list 0, .claim 0, .dispatch 0, .dispatchThrows 0 smtpTimeout, .recordFailure 0,
    .claim 1]

theorem not_backoffAndAccounting_claimAfterSiblingFailure :
    ¬ @BackoffAndAccounting Unit defaultOptions anyEvent := by
  rintro ⟨hdispatches, -⟩
  obtain ⟨w, hrun⟩ :
      ∃ w, runEvents (checked inScope (step defaultOptions)) (initialWorld 0)
        claimAfterSiblingFailure = some w := ⟨_, rfl⟩
  have hreach :
      Reaches (step defaultOptions) (fun t e => inScope t e = true ∧ anyEvent t e)
        (initialWorld 0) w :=
    reaches_of_runEvents_checked (fun _ _ hpass => ⟨hpass, trivial⟩) hrun
  have hdue := hdispatches 0 w hreach
  cases hrun
  have hnext := hdue 1 _ _ _ rfl rfl rfl 60000 rfl
  exact absurd hnext (by decide)

end Backoff

end EmailOutbox
end NestBase
