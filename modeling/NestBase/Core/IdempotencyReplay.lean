import NestBase.Core.IdempotencyFingerprint
import NestBase.Core.IdempotencyRuns
import NestBase.Core.StorageKeys

/-!
# Where a replayed response comes from

A call that replays returns a stored response.  The run is observed: which
call was made with which input, when a call resumed from its lookup, and what
each handler returned.  A replay should be the answer of an earlier handler
execution for the same user, key and request.

Every record in the store, or read from it, is the record of an observed
execution (`Recorded`).  A replay has the scoped key and the hash of that
execution; they are injective on user ids that are UUIDs and on requests
whose numbers are finite.
-/

namespace NestBase
namespace Idempotency

open Lib
open Files

section Replay

variable {TBody : Type}

/-! ## Observed runs -/

/-- What is seen of a run. -/
inductive Entry (TBody : Type) where
  | called (c : Nat) (input : RunOrCacheInput)
  /-- Call `c` resumed from its lookup; its clock showed `now`. -/
  | resumed (c : Nat) (now : Int)
  /-- The handler of call `c`, started at `now`, returned. -/
  | executed
      (c : Nat)
      (input : RunOrCacheInput)
      (now : Int)
      (response : IdempotencyResponse TBody)

/-- A process and what was seen of it, newest first. -/
structure Observed (TBody : Type) where
  world : World TBody
  history : List (Entry TBody)

def observe (w : World TBody) : Event TBody → List (Entry TBody)
  | .call c input => [.called c input]
  | .resume c now => [.resumed c now]
  | .handlerReturns c response =>
      match w.calls c with
      | .handling input now => [.executed c input now response]
      | _ => []
  | _ => []

def stepObserved (env : ServiceEnv) (o : Observed TBody) (e : Event TBody) :
    Option (Observed TBody) :=
  (step env o.world e).map fun w => { world := w, history := observe o.world e ++ o.history }

/-- A process over an empty store. -/
def initialObserved : Observed TBody where
  world := initialWorld fun _ => none
  history := []

/-! ## What is promised -/

/-- The response of an execution answers the input of a call at `now`. -/
structure AnsweredBy
    (env : ServiceEnv)
    (input : RunOrCacheInput)
    (now : Int)
    (resolved : IdempotencyResolved TBody)
    (input' : RunOrCacheInput)
    (now' : Int)
    (response : IdempotencyResponse TBody) : Prop where
  user : input'.userId = input.userId
  key : input'.key = input.key
  request : SameRequest env input'.request input.request
  live : now < now' + env.ttlMs
  status : resolved.status = response.status
  body : resolved.body = response.body

/-- The call resumed after an execution that answers it. -/
def AnsweredBefore
    (env : ServiceEnv)
    (history : List (Entry TBody))
    (c : Nat)
    (resolved : IdempotencyResolved TBody) : Prop :=
  ∃ input now newer older,
    history = newer ++ .resumed c now :: older ∧ .called c input ∈ older ∧
      ∃ c' input' now' response,
        .executed c' input' now' response ∈ older ∧
          AnsweredBy env input now resolved input' now' response

/-- Every replayed response was produced by an earlier execution for the same call. -/
def ReplaysIsolated (env : ServiceEnv) (o : Observed TBody) : Prop :=
  ∀ c resolved, o.world.calls c = .settled (.returned resolved) → resolved.replayed = true →
    AnsweredBefore env o.history c resolved

/-- The user of the input is absent or has a UUID. -/
def UuidUser (input : RunOrCacheInput) : Prop :=
  ∀ id, input.userId = some id → isUuid id = true

/-- Calls are made for users with UUIDs, or for none. -/
def UuidCalls (_ : Observed TBody) : Event TBody → Prop
  | .call _ input => UuidUser input
  | _ => True

/-- The requests of these calls are told apart by their fingerprints. -/
def DistinguishableCalls (env : ServiceEnv) (_ : Observed TBody) : Event TBody → Prop
  | .call _ input => UuidUser input ∧ input.request.Distinguishable env
  | _ => True

/-! ## The invariant -/

/-- The input of a call that `DistinguishableCalls` admits. -/
structure Admitted (env : ServiceEnv) (input : RunOrCacheInput) : Prop where
  user : UuidUser input
  request : input.request.Distinguishable env

/-- The record is the one of an execution with that key. -/
def FromExecution
    (env : ServiceEnv)
    (history : List (Entry TBody))
    (key : String)
    (record : IdempotencyRecord TBody) : Prop :=
  ∃ c input now response,
    .executed c input now response ∈ history ∧ Admitted env input ∧ input.scopedKey = key ∧
      record = recordOf env input now response

/-- What a phase of a call says about the history. -/
def CallRecorded (env : ServiceEnv) (history : List (Entry TBody)) (c : Nat) : Call TBody → Prop
  | .lookingUp input => .called c input ∈ history ∧ Admitted env input
  | .lookedUp input existing =>
      .called c input ∈ history ∧ Admitted env input ∧
        ∀ record, existing = some record → FromExecution env history input.scopedKey record
  | .handling input _ => Admitted env input
  | .putting input now response =>
      .executed c input now response ∈ history ∧ Admitted env input
  | .settled (.returned resolved) =>
      resolved.replayed = true → AnsweredBefore env history c resolved
  | _ => True

structure Recorded (env : ServiceEnv) (o : Observed TBody) : Prop where
  stored :
    ∀ key record, PrismaIdempotencyStore.get o.world.store key = some record →
      FromExecution env o.history key record
  calls : ∀ c, CallRecorded env o.history c (o.world.calls c)

theorem recorded_initialObserved (env : ServiceEnv) :
    Recorded env (initialObserved : Observed TBody) where
  stored := by
    intro key record hget
    cases hget
  calls := fun _ => trivial

variable {env : ServiceEnv}

theorem FromExecution.append
    {history : List (Entry TBody)} {key : String} {record : IdempotencyRecord TBody}
    (h : FromExecution env history key record)
    (seen : List (Entry TBody)) :
    FromExecution env (seen ++ history) key record := by
  obtain ⟨c, input, now, response, hmem, hrest⟩ := h
  exact ⟨c, input, now, response, List.mem_append_right _ hmem, hrest⟩

/-- What was seen stays seen. -/
theorem CallRecorded.append
    {history : List (Entry TBody)} {c : Nat} {phase : Call TBody}
    (h : CallRecorded env history c phase)
    (seen : List (Entry TBody)) :
    CallRecorded env (seen ++ history) c phase := by
  cases phase with
  | lookingUp input => exact ⟨List.mem_append_right _ h.1, h.2⟩
  | lookedUp input existing =>
      exact ⟨List.mem_append_right _ h.1, h.2.1, fun record hrecord =>
        (h.2.2 record hrecord).append seen⟩
  | putting input now response => exact ⟨List.mem_append_right _ h.1, h.2⟩
  | settled outcome =>
      cases outcome with
      | returned resolved =>
          intro hreplayed
          obtain ⟨input, now, newer, older, hhistory, hrest⟩ := h hreplayed
          refine ⟨input, now, seen ++ newer, older, ?_, hrest⟩
          rw [hhistory, List.append_assoc]
      | threw error => trivial
  | _ => exact h

namespace Recorded

variable {o : Observed TBody}

/-- Call `c` takes a new phase, and the rest of the process stays. -/
theorem setCall
    (hrecorded : Recorded env o)
    (seen : List (Entry TBody))
    {c : Nat} {phase : Call TBody} {w : World TBody}
    (hstore : w.store = o.world.store)
    (hcalls : w.calls = Function.update o.world.calls c phase)
    (hphase : CallRecorded env (seen ++ o.history) c phase) :
    Recorded env { world := w, history := seen ++ o.history } where
  stored := by
    intro key record hget
    rw [hstore] at hget
    exact (hrecorded.stored key record hget).append seen
  calls := by
    intro d
    change CallRecorded env (seen ++ o.history) d (w.calls d)
    rw [hcalls]
    by_cases hd : d = c
    · subst hd
      rw [Function.update_self]
      exact hphase
    · rw [Function.update_of_ne hd]
      exact (hrecorded.calls d).append seen

/-- The record of a handler that returned is stored. -/
theorem stored_put
    (hrecorded : Recorded env o)
    {c : Nat} {input : RunOrCacheInput} {now : Int} {response : IdempotencyResponse TBody}
    (hcall : o.world.calls c = .putting input now response) :
    ∀ key record,
      PrismaIdempotencyStore.get
          (PrismaIdempotencyStore.put o.world.store (recordOf env input now response)) key =
        some record →
      FromExecution env o.history key record := by
  intro key record hget
  have hputting := hrecorded.calls c
  rw [hcall] at hputting
  by_cases hkey : key = (recordOf env input now response).key
  · rw [hkey, PrismaIdempotencyStore.get_put_self, Option.some.injEq] at hget
    exact ⟨c, input, now, response, hputting.1, hputting.2, hkey.symm, hget.symm⟩
  · rw [PrismaIdempotencyStore.get_put_of_ne _ _ hkey] at hget
    exact hrecorded.stored key record hget

end Recorded

/-- A replayed record is live. -/
theorem live_of_decideAfterLookup_eq_replay
    {requestHash scopedKey : String} {existing : Option (IdempotencyRecord TBody)}
    {now : Int} {inflight : Finset String} {record : IdempotencyRecord TBody}
    (h : decideAfterLookup requestHash scopedKey existing now inflight = .replay record) :
    now < record.expiresAt := by
  have hfound := (decideAfterLookup_eq_replay h).1
  subst hfound
  simp only [decideAfterLookup] at h
  split at h
  · next hlive => exact hlive
  · unfold guardInflight at h
    split at h <;> cases h

theorem not_mem_of_isUuid {id : String} (h : isUuid id = true) : ':' ∉ id.toList ∧ id ≠ "anon" := by
  constructor
  · intro hcolon
    exact uuid_ne_of_mem ⟨id, h⟩ hcolon (by decide) (by decide) rfl
  · rintro rfl
    cases h

/-- The execution a replayed record comes from answers the call. -/
theorem answeredBy_of_record
    (hsha : Function.Injective env.sha256)
    {input input' : RunOrCacheInput} {now now' : Int} {response : IdempotencyResponse TBody}
    {record : IdempotencyRecord TBody}
    (hinput : Admitted env input)
    (hinput' : Admitted env input')
    (hkey : input'.scopedKey = input.scopedKey)
    (hrecord : record = recordOf env input' now' response)
    (hhash : record.requestHash = computeRequestHash env input.request)
    (hlive : now < record.expiresAt) :
    AnsweredBy env input now
      { status := record.status, body := record.body, replayed := true } input' now' response := by
  subst hrecord
  obtain ⟨hclient, huser⟩ :=
    scopeIdempotencyKey_inj (fun id hid => not_mem_of_isUuid (hinput'.user id hid))
      (fun id hid => not_mem_of_isUuid (hinput.user id hid)) hkey
  exact
    { user := huser
      key := hclient
      request := sameRequest_of_computeRequestHash hsha hinput'.request hinput.request hhash
      live := hlive
      status := rfl
      body := rfl }

/-- Each event keeps the invariant. -/
theorem recorded_step
    (hsha : Function.Injective env.sha256)
    (o : Observed TBody) (e : Event TBody) (o' : Observed TBody)
    (hrecorded : Recorded env o)
    (hadmitted : DistinguishableCalls env o e)
    (hstep : stepObserved env o e = some o') :
    Recorded env o' := by
  unfold stepObserved at hstep
  rw [Option.map_eq_some_iff] at hstep
  obtain ⟨w, hstep, rfl⟩ := hstep
  cases stepped_of_step hstep with
  | call c input hcall =>
      refine hrecorded.setCall [.called c input] rfl rfl ?_
      exact ⟨List.mem_cons_self, hadmitted.1, hadmitted.2⟩
  | storeGet c input hcall =>
      have hphase := hrecorded.calls c
      rw [hcall] at hphase
      refine hrecorded.setCall [] rfl rfl ?_
      exact ⟨hphase.1, hphase.2, fun record hrecord => hrecorded.stored _ record hrecord⟩
  | storeGetFails c input hcall => exact hrecorded.setCall [] rfl rfl trivial
  | resume c now input existing hcall =>
      have hphase := hrecorded.calls c
      rw [hcall] at hphase
      obtain ⟨hcalled, hinput, hexisting⟩ := hphase
      unfold resumeCall
      split
      · exact hrecorded.setCall [.resumed c now] rfl rfl trivial
      · next record hdecision =>
          refine hrecorded.setCall [.resumed c now] rfl rfl ?_
          intro _
          obtain ⟨hfound, hhash⟩ := decideAfterLookup_eq_replay hdecision
          obtain ⟨c', input', now', response, hexecuted, hinput', hkey, hrecord⟩ :=
            hexisting record hfound
          exact ⟨input, now, [], o.history, rfl, hcalled, c', input', now', response, hexecuted,
            answeredBy_of_record hsha hinput hinput' hkey hrecord hhash
              (live_of_decideAfterLookup_eq_replay hdecision)⟩
      · exact hrecorded.setCall [.resumed c now] rfl rfl trivial
      · exact hrecorded.setCall [.resumed c now] rfl rfl hinput
  | handlerReturns c response input now hcall =>
      have hphase := hrecorded.calls c
      rw [hcall] at hphase
      simp only [observe, hcall]
      exact hrecorded.setCall [.executed c input now response] rfl rfl
        ⟨List.mem_cons_self, hphase⟩
  | handlerThrows c input now hcall => exact hrecorded.setCall [] rfl rfl trivial
  | storePut c input now response hcall =>
      have hmoved :
          Recorded env
            { world := o.world.setCall c (.putDone input response)
              history := [] ++ o.history } :=
        hrecorded.setCall [] rfl rfl trivial
      exact ⟨hrecorded.stored_put hcall, hmoved.calls⟩
  | storePutFails c applied input now response hcall =>
      have hmoved :
          Recorded env
            { world := o.world.release c input.scopedKey (.threw .store)
              history := [] ++ o.history } :=
        hrecorded.setCall [] rfl rfl trivial
      cases applied with
      | false => exact hmoved
      | true => exact ⟨hrecorded.stored_put hcall, hmoved.calls⟩
  | settle c input response hcall =>
      refine hrecorded.setCall [] rfl rfl ?_
      intro hreplayed
      cases hreplayed

/--
In every run whose requests have finite numbers and methods of one line, a
replay is the answer of an earlier execution of the same call.
-/
theorem replaysIsolated_of_reaches
    (env : ServiceEnv)
    (hsha : Function.Injective env.sha256)
    (o : Observed TBody)
    (hrun : Reaches (stepObserved env) (DistinguishableCalls env) initialObserved o) :
    ReplaysIsolated env o := by
  have hrecorded : Recorded env o :=
    hrun.invariant (recorded_initialObserved env) (recorded_step hsha)
  intro c resolved hcall hreplayed
  have hphase := hrecorded.calls c
  rw [hcall] at hphase
  exact hphase hreplayed

end Replay

/-! ## Two runs -/

/-- The user of the input is none or has a UUID. -/
def uuidCheck (_ : Observed Unit) : Event Unit → Bool
  | .call _ input => input.userId.all isUuid
  | _ => true

theorem uuidCalls_of_check (o : Observed Unit) (e : Event Unit) (h : uuidCheck o e = true) :
    UuidCalls o e := by
  cases e with
  | call c input =>
      intro id hid
      rw [uuidCheck, hid] at h
      exact h
  | _ => trivial

def distinguishableCheck (env : ServiceEnv) (o : Observed Unit) : Event Unit → Bool
  | .call c input =>
      uuidCheck o (.call c input) && !(env.toUpperCase input.request.method).toList.contains '\n' &&
        bodyFinite input.request.body
  | _ => true

theorem distinguishableCalls_of_check
    {env : ServiceEnv}
    (o : Observed Unit) (e : Event Unit)
    (h : distinguishableCheck env o e = true) :
    DistinguishableCalls env o e := by
  cases e with
  | call c input =>
      simp only [distinguishableCheck, Bool.and_eq_true, Bool.not_eq_true',
        List.contains_eq_mem, decide_eq_false_iff_not] at h
      exact ⟨uuidCalls_of_check o _ h.1.1, h.1.2, h.2⟩
  | _ => trivial

/-- An order for an amount. -/
def orderInput (amount : Json) : RunOrCacheInput where
  key := "k"
  request :=
    { method := "POST"
      path := "/api/orders"
      body := some (.obj [("amount", amount)]) }
  userId := some "0190b0a0-0000-7000-8000-000000000001"

/-- Call 0 runs its handler and stores the response; call 1 looks it up. -/
def replayEvents (amount amount' : Json) : List (Event Unit) :=
  [.call 0 (orderInput amount), .storeGet 0, .resume 0 0,
    .handlerReturns 0 { status := 201, body := () }, .storePut 0, .settle 0,
    .call 1 (orderInput amount'), .storeGet 1, .resume 1 1]

def replayedAt (c : Nat) (o : Observed Unit) : Bool :=
  match o.world.calls c with
  | .settled (.returned resolved) => resolved.replayed
  | _ => false

theorem exists_resolved_of_replayedAt {c : Nat} {o : Observed Unit} (h : replayedAt c o = true) :
    ∃ resolved, o.world.calls c = .settled (.returned resolved) ∧ resolved.replayed = true := by
  unfold replayedAt at h
  split at h
  · next resolved hcall => exact ⟨resolved, hcall, h⟩
  · cases h

/-- An order that is sent again is answered by its first execution. -/
theorem replaysIsolated_repeatedOrder :
    ∃ o : Observed Unit, replayedAt 1 o = true ∧ ReplaysIsolated raceEnv o := by
  have hreplayed :
      (runEvents (checked (distinguishableCheck raceEnv) (stepObserved raceEnv)) initialObserved
        (replayEvents (.num "5") (.num "5"))).any (replayedAt 1) = true := by
    decide +kernel
  obtain ⟨o, hrun, hcall⟩ := (Option.any_eq_true _ _).mp hreplayed
  refine ⟨o, hcall, ?_⟩
  exact replaysIsolated_of_reaches raceEnv Function.injective_id o
    (reaches_of_runEvents_checked distinguishableCalls_of_check hrun)

/-- Call 1 is made without an amount, and what is executed has the amount `Infinity`. -/
def mixedUp : Entry Unit → Bool
  | .called 1 input =>
      match input.request.body with
      | some (.obj [(_, .null)]) => true
      | _ => false
  | .executed _ input _ _ =>
      match input.request.body with
      | some (.obj [(_, .num _)]) => true
      | _ => false
  | _ => true

theorem not_sameUpToKeyOrder_null (name name' text : String) :
    ¬ Json.SameUpToKeyOrder (.obj [(name, .num text)]) (.obj [(name', .null)]) := by
  intro hsame
  cases hsame with
  | obj horder hentries horder' =>
      rw [List.singleton_perm.mp horder |>.symm, List.perm_singleton.mp horder'] at hentries
      cases hentries with
      | cons hentry _ =>
          cases hentry with
          | mk name hvalue => cases hvalue

/-- `1e999` is read as `Infinity`; the order without an amount is answered by that one. -/
theorem not_replaysIsolated_infinite :
    ¬ ∀ (env : ServiceEnv), Function.Injective env.sha256 → ∀ o : Observed Unit,
      Reaches (stepObserved env) UuidCalls initialObserved o → ReplaysIsolated env o := by
  intro hisolated
  have hreplayed :
      (runEvents (checked uuidCheck (stepObserved raceEnv)) initialObserved
        (replayEvents (.num "null") .null)).any
          (fun o => replayedAt 1 o && o.history.all mixedUp) = true := by
    decide +kernel
  obtain ⟨o, hrun, hboth⟩ := (Option.any_eq_true _ _).mp hreplayed
  rw [Bool.and_eq_true, List.all_eq_true] at hboth
  obtain ⟨resolved, hcall, htrue⟩ := exists_resolved_of_replayedAt hboth.1
  obtain ⟨input, now, newer, older, hsplit, hcalled, c', input', now', response, hexecuted,
      hanswer⟩ :=
    hisolated raceEnv Function.injective_id o
      (reaches_of_runEvents_checked uuidCalls_of_check hrun) 1 resolved hcall htrue
  have hin : ∀ entry ∈ older, mixedUp entry = true := by
    intro entry hentry
    refine hboth.2 entry ?_
    rw [hsplit]
    exact List.mem_append_right _ (List.mem_cons_of_mem _ hentry)
  have hbody := hanswer.request.body
  have hnull := hin _ hcalled
  have hnumber := hin _ hexecuted
  simp only [mixedUp] at hnull hnumber
  split at hnull
  · next name' hnullBody =>
      split at hnumber
      · next name text hnumberBody =>
          rw [hnullBody, hnumberBody] at hbody
          exact not_sameUpToKeyOrder_null _ _ _ hbody
      · cases hnumber
  · cases hnull

end Idempotency
end NestBase
