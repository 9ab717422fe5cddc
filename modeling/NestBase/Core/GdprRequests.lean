import NestBase.Core.GdprErasureRunner
import NestBase.Lib.Transition
import Mathlib.Data.List.MinMax
import Mathlib.Logic.Function.Basic

/-!
# Requests for erasure

`deleteAccount` looks for an active request of the user and inserts one when it
finds none.  The two are separate statements, and the table has no constraint
on the active requests of a user, so calls may overlap between them.

In every run in which an INSERT runs only while the user has no active request
(`InsertsAlone`), a user has at most one, and every call returns the time of it.
-/

namespace NestBase
namespace Gdpr

open Lib

section Requests

variable {κ : Type}

/-! ## The controller -/

/-- The rows of the user that the SELECT of `deleteAccount` finds. -/
def activeOf (userId : String) (database : Database κ) : List PendingErasureRow :=
  (active database).filter fun row => decide (row.userId = userId)

/-- `ORDER BY requested_at ASC LIMIT 1` -/
def selectRequestedAt (userId : String) (database : Database κ) : Option Int :=
  ((activeOf userId database).map PendingErasureRow.requestedAt).min?

/-- The INSERT of `insertPendingErasure`, under the table's key and its reference to `users`. -/
def insertPendingErasure (userId id : String) (now : Int) (database : Database κ) :
    Except DbError (Int × Database κ) :=
  if (findRow UserRow.id userId database.users).isNone then
    .error (.other "pending_erasures_user_id_fkey")
  else
    match
      insertRow PendingErasureRow.id
        { id := id, userId := userId, requestedAt := now, cancelledAt := none, completedAt := none }
        database.pendingErasures
    with
    | none => .error (.uniqueConstraint "id")
    | some rows => .ok (now, { database with pendingErasures := rows })

/-- How far a call is. -/
inductive Phase where
  | called
  /-- The SELECT has found nothing. -/
  | inserting
  /-- The `requestedAt` that is returned, or what is thrown. -/
  | finished (outcome : Except DbError Int)
deriving DecidableEq

/-- What a call is resumed with. -/
inductive Turn where
  | select
  | selectFails (error : DbError)
  /-- The INSERT runs with a drawn id and `NOW()`. -/
  | insert (id : String) (now : Int)
  | insertFails (error : DbError)

def deleteAccount (userId : String) (database : Database κ) :
    Phase → Turn → Option (Phase × Database κ)
  | .called, .select =>
      match selectRequestedAt userId database with
      | some requestedAt => some (.finished (.ok requestedAt), database)
      | none => some (.inserting, database)
  | .called, .selectFails error => some (.finished (.error error), database)
  | .inserting, .insert id now =>
      match insertPendingErasure userId id now database with
      | .error error => some (.finished (.error error), database)
      | .ok (requestedAt, database') => some (.finished (.ok requestedAt), database')
  | .inserting, .insertFails error => some (.finished (.error error), database)
  | _, _ => none

/-! ## Calls and ticks -/

structure Call where
  userId : String
  phase : Phase
deriving DecidableEq

structure World (κ : Type) where
  database : Database κ
  calls : Nat → Option Call
  /-- The candidates a tick has yet to erase. -/
  ticks : Nat → Option (List GraceErasureCandidate)

inductive Event where
  | call (c : Nat) (userId : String)
  | turn (c : Nat) (turn : Turn)
  /-- A tick reads these rows and plans. -/
  | tick (k : Nat) (pending : List PendingErasureRow) (planNow : Int)
  /-- A tick runs its next erasure. -/
  | erase (k : Nat) (env : Surroundings)

def initialWorld (database : Database κ) : World κ where
  database := database
  calls _ := none
  ticks _ := none

def World.set (w : World κ) (database : Database κ) (c : Nat) (call : Call) : World κ :=
  { w with database := database, calls := Function.update w.calls c (some call) }

instance (database : Database κ) (pending : List PendingErasureRow) :
    Decidable (ReadPendingErasures database pending) :=
  decidable_of_iff
    (pending.Subperm (active database) ∧ pending.length = min 500 (active database).length)
    ⟨fun h => ⟨h.1, h.2⟩, fun h => ⟨h.subperm, h.length⟩⟩

def step (w : World κ) : Event → Option (World κ)
  | .call c userId =>
      if (w.calls c).isNone then
        some (w.set w.database c { userId := userId, phase := .called })
      else none
  | .turn c turn =>
      (w.calls c).bind fun call =>
        (deleteAccount call.userId w.database call.phase turn).map fun next =>
          w.set next.2 c { call with phase := next.1 }
  | .tick k pending planNow =>
      if (w.ticks k).isNone ∧ ReadPendingErasures w.database pending then
        match planGdprGracePeriodErasures none planNow pending with
        | .error _ => none
        | .ok plan => some { w with ticks := Function.update w.ticks k (some plan.readyForErasure) }
      else none
  | .erase k env =>
      match w.ticks k with
      | some (candidate :: rest) =>
          some
            { w with
              database := (eraseUser env candidate w.database).2
              ticks := Function.update w.ticks k (some rest) }
      | _ => none

/-! ## One active request -/

/-- No user has two active requests. -/
def AtMostOne (database : Database κ) : Prop :=
  ∀ userId, (activeOf userId database).length ≤ 1

/-- An INSERT runs only while the user has no active request. -/
def InsertsAlone (w : World κ) : Event → Prop
  | .turn c (.insert _ _) =>
      ∀ call, w.calls c = some call → activeOf call.userId w.database = []
  | _ => True

/-- A call that returns in the step returns the time of the one active request. -/
def Returned (w w' : World κ) : Prop :=
  ∀ c call requestedAt, w.calls c = some call → (∀ outcome, call.phase ≠ .finished outcome) →
    w'.calls c = some { call with phase := .finished (.ok requestedAt) } →
      ∃ row, activeOf call.userId w'.database = [row] ∧ row.requestedAt = requestedAt

/-! ## The statements -/

variable {database database' : Database κ}

/-- An erasure leaves no more active requests than there were. -/
theorem length_activeOf_eraseUser_le
    (userId : String) (env : Surroundings) (candidate : GraceErasureCandidate)
    (database : Database κ) :
    (activeOf userId (eraseUser env candidate database).2).length ≤
      (activeOf userId database).length := by
  cases hrun : eraseUser env candidate database with
  | mk outcome after =>
      cases outcome with
      | error error =>
          rw [transaction_of_error hrun]
      | ok result =>
          rw [eraseUser_eq_ok hrun]
          unfold activeOf active erased updateMany
          dsimp only
          rw [List.filter_filter, List.filter_filter, ← List.countP_eq_length_filter,
            ← List.countP_eq_length_filter, List.countP_map]
          refine List.countP_mono_left fun row _ hactive => ?_
          simp only [Function.comp_apply] at hactive
          split at hactive
          · simp at hactive
          · exact hactive

theorem AtMostOne.eraseUser
    (h : AtMostOne database)
    (env : Surroundings) (candidate : GraceErasureCandidate) :
    AtMostOne (eraseUser env candidate database).2 :=
  fun userId => (length_activeOf_eraseUser_le userId env candidate database).trans (h userId)

/-- What is found is the time of the one active request. -/
theorem selectRequestedAt_eq_some
    {userId : String} {requestedAt : Int}
    (h : AtMostOne database)
    (hfound : selectRequestedAt userId database = some requestedAt) :
    ∃ row, activeOf userId database = [row] ∧ row.requestedAt = requestedAt := by
  unfold selectRequestedAt at hfound
  have hone := h userId
  cases hrows : activeOf userId database with
  | nil =>
      rw [hrows] at hfound
      cases hfound
  | cons row rest =>
      rw [hrows] at hone hfound
      have hrest : rest = [] := by
        rw [← List.length_eq_zero_iff]
        rw [List.length_cons] at hone
        omega
      subst hrest
      cases hfound
      exact ⟨row, rfl, rfl⟩

/-- An INSERT adds one active request of its user and none of the others. -/
theorem activeOf_insertPendingErasure
    {userId id : String} {now requestedAt : Int}
    (hinserted : insertPendingErasure userId id now database = .ok (requestedAt, database'))
    (other : String) :
    ∃ row, row.requestedAt = requestedAt ∧
      activeOf other database' =
        activeOf other database ++ if other = userId then [row] else [] := by
  unfold insertPendingErasure at hinserted
  split at hinserted
  · cases hinserted
  · split at hinserted
    · cases hinserted
    · next rows hrows =>
      cases hinserted
      obtain ⟨-, rfl⟩ := insertRow_eq_some_iff.mp hrows
      refine
        ⟨{ id := id, userId := userId, requestedAt := now, cancelledAt := none, completedAt := none },
          rfl, ?_⟩
      unfold activeOf active
      dsimp only
      rw [List.filter_append, List.filter_append]
      by_cases hother : other = userId
      · simp [hother]
      · simp [hother, Ne.symm hother]

/-- A turn writes nothing and returns only what it finds, or is an INSERT that returns its time. -/
theorem deleteAccount_cases
    {userId : String} {phase phase' : Phase} {turn : Turn}
    (h : deleteAccount userId database phase turn = some (phase', database')) :
    (database' = database ∧
      ∀ requestedAt, phase' = .finished (.ok requestedAt) →
        selectRequestedAt userId database = some requestedAt) ∨
    ∃ id now requestedAt, turn = .insert id now ∧ phase' = .finished (.ok requestedAt) ∧
      insertPendingErasure userId id now database = .ok (requestedAt, database') := by
  cases phase with
  | called =>
      cases turn with
      | select =>
          simp only [deleteAccount] at h
          cases hfound : selectRequestedAt userId database with
          | none =>
              rw [hfound] at h
              cases h
              exact Or.inl ⟨rfl, nofun⟩
          | some found =>
              rw [hfound] at h
              cases h
              refine Or.inl ⟨rfl, fun requestedAt hphase => ?_⟩
              cases hphase
              rfl
      | selectFails error =>
          cases h
          exact Or.inl ⟨rfl, nofun⟩
      | _ => cases h
  | inserting =>
      cases turn with
      | insert id now =>
          simp only [deleteAccount] at h
          cases hinserted : insertPendingErasure userId id now database with
          | error error =>
              rw [hinserted] at h
              cases h
              exact Or.inl ⟨rfl, nofun⟩
          | ok result =>
              rw [hinserted] at h
              cases h
              exact Or.inr ⟨id, now, result.1, rfl, rfl, hinserted⟩
      | insertFails error =>
          cases h
          exact Or.inl ⟨rfl, nofun⟩
      | _ => cases h
  | finished outcome => cases h

/-- A turn that returns a time it has not inserted has found it. -/
theorem deleteAccount_returns
    {userId : String} {phase : Phase} {turn : Turn} {requestedAt : Int}
    (h :
      deleteAccount userId database phase turn = some (.finished (.ok requestedAt), database')) :
    (selectRequestedAt userId database = some requestedAt ∧ database' = database) ∨
    ∃ id now, turn = .insert id now ∧
      insertPendingErasure userId id now database = .ok (requestedAt, database') := by
  rcases deleteAccount_cases h with
    ⟨hsame, hfound⟩ | ⟨id, now, inserted, hturn, hphase, hinserted⟩
  · exact Or.inl ⟨hfound requestedAt rfl, hsame⟩
  · cases hphase
    exact Or.inr ⟨id, now, hturn, hinserted⟩

/-! ## Runs -/

variable {w w' : World κ}

theorem AtMostOne.insert
    (h : AtMostOne database)
    {userId id : String} {now requestedAt : Int}
    (halone : activeOf userId database = [])
    (hinserted : insertPendingErasure userId id now database = .ok (requestedAt, database')) :
    AtMostOne database' := by
  intro other
  obtain ⟨row, -, hrows⟩ := activeOf_insertPendingErasure hinserted other
  rw [hrows]
  by_cases hother : other = userId
  · rw [if_pos hother, hother, halone]
    exact Nat.le_refl 1
  · rw [if_neg hother, List.append_nil]
    exact h other

theorem atMostOne_step
    (h : AtMostOne w.database)
    {event : Event}
    (hguard : InsertsAlone w event)
    (hstep : step w event = some w') :
    AtMostOne w'.database := by
  cases event with
  | call c userId =>
      rw [step] at hstep
      split at hstep
      · cases hstep
        exact h
      · cases hstep
  | turn c turn =>
      rw [step, Option.bind_eq_some_iff] at hstep
      obtain ⟨call, hcall, hnext⟩ := hstep
      obtain ⟨⟨phase, after⟩, hturn, rfl⟩ := Option.map_eq_some_iff.mp hnext
      rcases deleteAccount_cases hturn with ⟨hsame, -⟩ | ⟨id, now, requestedAt, rfl, -, hinserted⟩
      · change AtMostOne after
        have hdatabase : after = w.database := hsame
        rw [hdatabase]
        exact h
      · exact h.insert (hguard call hcall) hinserted
  | tick k pending planNow =>
      rw [step] at hstep
      split at hstep
      · split at hstep
        · cases hstep
        · cases hstep
          exact h
      · cases hstep
  | erase k env =>
      rw [step] at hstep
      split at hstep
      · next candidate rest _ =>
        cases hstep
        exact h.eraseUser env candidate
      · cases hstep

theorem returned_step
    (h : AtMostOne w.database)
    {event : Event}
    (hguard : InsertsAlone w event)
    (hstep : step w event = some w') :
    Returned w w' := by
  intro c call requestedAt hcall hopen hafter
  have hchanged : w'.calls c ≠ w.calls c := by
    rw [hafter, hcall]
    intro hsame
    cases call
    cases hsame
    exact hopen _ rfl
  cases event with
  | call d userId =>
      rw [step] at hstep
      split at hstep
      · next hnone =>
        cases hstep
        rcases update_some_cases hafter with ⟨rfl, -⟩ | ⟨-, hsame⟩
        · rw [Option.isNone_iff_eq_none.mp hnone] at hcall
          cases hcall
        · exact absurd (hafter.trans hsame.symm) hchanged
      · cases hstep
  | turn d turn =>
      rw [step, Option.bind_eq_some_iff] at hstep
      obtain ⟨other, hother, hnext⟩ := hstep
      obtain ⟨⟨phase, after⟩, hturn, rfl⟩ := Option.map_eq_some_iff.mp hnext
      rcases update_some_cases hafter with ⟨rfl, hfinished⟩ | ⟨-, hsame⟩
      · rw [hcall] at hother
        cases hother
        have hphase : phase = .finished (.ok requestedAt) := (congrArg Call.phase hfinished).symm
        subst hphase
        rcases deleteAccount_returns hturn with ⟨hfound, rfl⟩ | ⟨id, now, rfl, hinserted⟩
        · exact selectRequestedAt_eq_some h hfound
        · obtain ⟨row, htime, hrows⟩ := activeOf_insertPendingErasure hinserted call.userId
          rw [if_pos rfl, hguard call hcall, List.nil_append] at hrows
          exact ⟨row, hrows, htime⟩
      · exact absurd (hafter.trans hsame.symm) hchanged
  | tick k pending planNow =>
      rw [step] at hstep
      split at hstep
      · split at hstep
        · cases hstep
        · cases hstep
          exact absurd rfl hchanged
      · cases hstep
  | erase k env =>
      rw [step] at hstep
      split at hstep
      · cases hstep
        exact absurd rfl hchanged
      · cases hstep

/--
A user has at most one active request at every moment, and the next step
returns no other time than that of it.
-/
theorem atMostOne_of_reaches
    (hstart : AtMostOne database)
    (hrun : Reaches step InsertsAlone (initialWorld database) w) :
    AtMostOne w.database ∧
    ∀ event w', InsertsAlone w event → step w event = some w' → Returned w w' := by
  have h : AtMostOne w.database :=
    hrun.invariant (I := fun w => AtMostOne w.database) hstart
      fun _ _ _ hone hguard hstep => atMostOne_step hone hguard hstep
  exact ⟨h, fun event w' hguard hstep => returned_step h hguard hstep⟩

end Requests

/-! ## Two clicks -/

section Clicks

/-- A user without a request. -/
def member : Database String where
  users := [personRow "Ada" "ada@example.org" none]
  secondary _ := []
  pendingErasures := []

theorem atMostOne_member : AtMostOne member := fun _ => Nat.zero_le 1

/-- An INSERT of the event runs while its user has no active request. -/
def insertsAlone (w : World String) : Event → Bool
  | .turn c (.insert _ _) =>
      (w.calls c).all fun call => (activeOf call.userId w.database).isEmpty
  | _ => true

theorem insertsAlone_of_check
    (w : World String) (event : Event)
    (hcheck : insertsAlone w event = true) :
    InsertsAlone w event := by
  cases event with
  | turn c turn =>
      cases turn with
      | insert id now =>
          intro call hcall
          change (w.calls c).all (fun call => (activeOf call.userId w.database).isEmpty) = true
            at hcheck
          rw [hcall] at hcheck
          exact List.isEmpty_iff.mp hcheck
      | _ => trivial
  | _ => trivial

/-- The calls of two clicks, and the times of the active requests. -/
def seen (w : World String) : Option Call × Option Call × List Int :=
  (w.calls 0, w.calls 1, (activeOf person w.database).map PendingErasureRow.requestedAt)

/-- A click after the first call has returned finds its request. -/
theorem atMostOne_inTurn :
    ∃ w : World String, Reaches step InsertsAlone (initialWorld member) w ∧
      w.calls 0 = some { userId := person, phase := .finished (.ok 100) } ∧
      w.calls 1 = some { userId := person, phase := .finished (.ok 100) } ∧
      AtMostOne w.database := by
  have hrun :
      (runEvents (checked insertsAlone step) (initialWorld member)
          [.call 0 person, .turn 0 .select, .turn 0 (.insert "r0" 100), .call 1 person,
            .turn 1 .select]).map seen =
        some
          (some { userId := person, phase := .finished (.ok 100) },
            some { userId := person, phase := .finished (.ok 100) }, [100]) := by
    rfl
  obtain ⟨w, hw, hseen⟩ := Option.map_eq_some_iff.mp hrun
  have hreaches := reaches_of_runEvents_checked insertsAlone_of_check hw
  unfold seen at hseen
  rw [Prod.mk.injEq, Prod.mk.injEq] at hseen
  exact
    ⟨w, hreaches, hseen.1, hseen.2.1, (atMostOne_of_reaches atMostOne_member hreaches).1⟩

/-- Two clicks overlap: both find nothing, both insert, and they return different times. -/
theorem not_atMostOne_overlap :
    ∃ w : World String, Reaches step anyEvent (initialWorld member) w ∧
      w.calls 0 = some { userId := person, phase := .finished (.ok 100) } ∧
      w.calls 1 = some { userId := person, phase := .finished (.ok 200) } ∧
      ¬ AtMostOne w.database := by
  have hrun :
      (runEvents step (initialWorld member)
          [.call 0 person, .call 1 person, .turn 0 .select, .turn 1 .select,
            .turn 0 (.insert "r0" 100), .turn 1 (.insert "r1" 200)]).map seen =
        some
          (some { userId := person, phase := .finished (.ok 100) },
            some { userId := person, phase := .finished (.ok 200) }, [100, 200]) := by
    rfl
  obtain ⟨w, hw, hseen⟩ := Option.map_eq_some_iff.mp hrun
  unfold seen at hseen
  rw [Prod.mk.injEq, Prod.mk.injEq] at hseen
  refine ⟨w, reaches_of_runEvents hw, hseen.1, hseen.2.1, fun h => ?_⟩
  have hlength := congrArg List.length hseen.2.2
  rw [List.length_map] at hlength
  have hone := h person
  rw [hlength] at hone
  exact absurd hone (by decide)

end Clicks

end Gdpr
end NestBase
