import NestBase.Lib.Transition
import NestBase.Lib.Json
import Mathlib.Data.Finset.Basic
import Mathlib.Tactic

/-!
# The idempotency service

`IdempotencyService.runOrCache` serves a non-idempotent request at most once
for each `Idempotency-Key`.  The first call runs the handler and stores its
response; a later call with the same scoped key replays that response until
the stored record expires.

`runOrCache` is an async function, so the calls of one process interleave at
its awaits.  A call is therefore a small state machine (`Call`) whose phases
are the places where it can be suspended:

* the lookup has been issued (`lookingUp`) and the store has answered it
  (`lookedUp`): these are two events, because other calls run between the
  moment the store reads the record and the moment the call resumes;
* the handler is running (`handling`);
* the put has been issued (`putting`) and the store has performed it
  (`putDone`).

Everything between two awaits is one event.  The store is a linearizable
map: each `get` and each `put` takes effect at one event.
-/

namespace NestBase
namespace Idempotency

open Lib

/-! ## Request fingerprint -/

structure RequestFingerprintInput where
  method : String
  path : String
  /-- `none` when the request carries no body. -/
  body : Option Json

/-- What the service takes from its platform and from its options. -/
structure ServiceEnv where
  /-- `createHash("sha256").update(text).digest("hex")` -/
  sha256 : String → String
  /-- `String.prototype.localeCompare` -/
  localeCompare : String → String → Ordering
  /-- `String.prototype.toUpperCase` -/
  toUpperCase : String → String
  /-- `options.ttlMs` -/
  ttlMs : Nat

mutual

/-- `JSON.stringify` with sorted object keys; arrays keep their order. -/
def stableStringify (localeCompare : String → String → Ordering) :
    Json → String
  | .null => "null"
  | .bool true => "true"
  | .bool false => "false"
  | .num text => text
  | .str s => Json.quote s
  | .arr items =>
      "[" ++ ",".intercalate (stringifyItems localeCompare items) ++ "]"
  | .obj entries =>
      -- The values are printed first: sorting by key does not look at them.
      let sorted :=
        (stringifyEntries localeCompare entries).mergeSort fun a b =>
          localeCompare a.1 b.1 != .gt
      "\x7b" ++ ",".intercalate
        (sorted.map fun entry =>
          Json.quote entry.1 ++ ":" ++ entry.2) ++ "\x7d"

/-- The elements of an array, each printed. -/
def stringifyItems (localeCompare : String → String → Ordering) :
    List Json → List String
  | [] => []
  | item :: rest =>
      stableStringify localeCompare item :: stringifyItems localeCompare rest

/-- The entries of an object, each with its value printed. -/
def stringifyEntries (localeCompare : String → String → Ordering) :
    List (String × Json) → List (String × String)
  | [] => []
  | (name, value) :: rest =>
      (name, stableStringify localeCompare value) ::
        stringifyEntries localeCompare rest

end

def computeRequestHash (env : ServiceEnv) (input : RequestFingerprintInput) : String :=
  let normalisedBody :=
    match input.body with
    | some body => stableStringify env.localeCompare body
    | none => "undefined"
  env.sha256
    (env.toUpperCase input.method ++ "\n" ++ input.path ++ "\n" ++ normalisedBody)

/-- The storage key of a (user, idempotency key) pair. -/
def scopeIdempotencyKey (key : String) (userId : Option String) : String :=
  userId.getD "anon" ++ "::" ++ key

/-! ## Records and the Prisma store -/

section Store

variable {TBody : Type}

structure IdempotencyResponse (TBody : Type) where
  status : Nat
  body : TBody

structure IdempotencyResolved (TBody : Type) extends IdempotencyResponse TBody where
  replayed : Bool

structure IdempotencyRecord (TBody : Type) where
  key : String
  userId : Option String
  requestHash : String
  status : Nat
  body : TBody
  /-- Epoch milliseconds. -/
  expiresAt : Int

/-- A row of `idempotency_records`; `expiresAt` is the instant of the `Date`. -/
structure PrismaIdempotencyRow (TBody : Type) where
  key : String
  userId : Option String
  requestHash : String
  status : Nat
  body : TBody
  expiresAt : Int

namespace PrismaIdempotencyStore

/-- The table: at most one row for each key. -/
abbrev Table (TBody : Type) := String → Option (PrismaIdempotencyRow TBody)

def toRow (record : IdempotencyRecord TBody) : PrismaIdempotencyRow TBody where
  key := record.key
  userId := record.userId
  requestHash := record.requestHash
  status := record.status
  body := record.body
  expiresAt := record.expiresAt

def fromRow (row : PrismaIdempotencyRow TBody) : IdempotencyRecord TBody where
  key := row.key
  userId := row.userId
  requestHash := row.requestHash
  status := row.status
  body := row.body
  expiresAt := row.expiresAt

@[simp] theorem fromRow_toRow (record : IdempotencyRecord TBody) :
    fromRow (toRow record) = record := rfl

/-- `findUnique` on the key. -/
def get (table : Table TBody) (key : String) : Option (IdempotencyRecord TBody) :=
  (table key).map fromRow

/-- `upsert`: the second write for a key replaces the first row. -/
def put (table : Table TBody) (record : IdempotencyRecord TBody) : Table TBody :=
  Function.update table (toRow record).key (some (toRow record))

@[simp] theorem get_put_self (table : Table TBody) (record : IdempotencyRecord TBody) :
    get (put table record) record.key = some record := by
  simp [get, put, toRow, fromRow]

theorem get_put_of_ne
    (table : Table TBody)
    (record : IdempotencyRecord TBody)
    {key : String}
    (hne : key ≠ record.key) :
    get (put table record) key = get table key := by
  simp [get, put, toRow, Function.update_of_ne hne]

end PrismaIdempotencyStore

end Store

/-! ## Calls of `runOrCache` -/

section Calls

variable {TBody : Type}

structure RunOrCacheInput where
  key : String
  request : RequestFingerprintInput
  userId : Option String

def RunOrCacheInput.scopedKey (input : RunOrCacheInput) : String :=
  scopeIdempotencyKey input.key input.userId

inductive RunOrCacheError where
  | conflict (key : String)
  | inProgress (key : String)
  /-- The handler threw: nothing is cached. -/
  | handler
  /-- `store.get` or `store.put` rejected. -/
  | store
deriving DecidableEq

def RunOrCacheError.message : RunOrCacheError → Option String
  | conflict key =>
      some ("idempotency: key \"" ++ key ++
        "\" was used with a different request body")
  | inProgress key =>
      some ("idempotency: key \"" ++ key ++ "\" is already in progress")
  | handler => none
  | store => none

inductive Outcome (TBody : Type) where
  | returned (resolved : IdempotencyResolved TBody)
  | threw (error : RunOrCacheError)

/-- What a call does when it resumes from its lookup. -/
inductive LookupDecision (TBody : Type) where
  | throwConflict
  | replay (record : IdempotencyRecord TBody)
  | throwInProgress
  | runHandler

/-- The test of the `inflight` set. -/
def guardInflight (inflight : Finset String) (scopedKey : String) : LookupDecision TBody :=
  if scopedKey ∈ inflight then .throwInProgress else .runHandler

/-- The body of `runOrCache` between the lookup and the handler. -/
def decideAfterLookup
    (requestHash scopedKey : String)
    (existing : Option (IdempotencyRecord TBody))
    (now : Int)
    (inflight : Finset String) : LookupDecision TBody :=
  match existing with
  | some record =>
      if record.expiresAt > now then
        if record.requestHash ≠ requestHash then .throwConflict
        else .replay record
      else guardInflight inflight scopedKey
  | none => guardInflight inflight scopedKey

/-- The record a completed handler stores. -/
def recordOf
    (env : ServiceEnv)
    (input : RunOrCacheInput)
    (now : Int)
    (response : IdempotencyResponse TBody) : IdempotencyRecord TBody where
  key := input.scopedKey
  userId := input.userId
  requestHash := computeRequestHash env input.request
  status := response.status
  body := response.body
  expiresAt := now + env.ttlMs

/-- The phases of one call, one for each place where it can be suspended. -/
inductive Call (TBody : Type) where
  | notStarted
  | lookingUp (input : RunOrCacheInput)
  | lookedUp
      (input : RunOrCacheInput)
      (existing : Option (IdempotencyRecord TBody))
  | handling (input : RunOrCacheInput) (now : Int)
  | putting
      (input : RunOrCacheInput)
      (now : Int)
      (response : IdempotencyResponse TBody)
  | putDone
      (input : RunOrCacheInput)
      (response : IdempotencyResponse TBody)
  | settled (outcome : Outcome TBody)

/-- The process: its store, its `inflight` set and all its calls. -/
structure World (TBody : Type) where
  store : PrismaIdempotencyStore.Table TBody
  inflight : Finset String
  calls : Nat → Call TBody
  /-- History of the successful puts, newest first; no event reads it. -/
  committed : List (Nat × IdempotencyRecord TBody)

inductive Event (TBody : Type) where
  /-- `runOrCache(input)` is called and issues its lookup. -/
  | call (c : Nat) (input : RunOrCacheInput)
  /-- The store reads the record for call `c`. -/
  | storeGet (c : Nat)
  | storeGetFails (c : Nat)
  /-- Call `c` resumes from its lookup; its clock shows `now`. -/
  | resume (c : Nat) (now : Int)
  | handlerReturns (c : Nat) (response : IdempotencyResponse TBody)
  | handlerThrows (c : Nat)
  /-- The store performs the put of call `c`. -/
  | storePut (c : Nat)
  /-- The put rejects, with or without having taken effect. -/
  | storePutFails (c : Nat) (applied : Bool)
  /-- Call `c` resumes from its put, releases its key and returns. -/
  | settle (c : Nat)

namespace World

def setCall (w : World TBody) (c : Nat) (phase : Call TBody) : World TBody :=
  { w with calls := Function.update w.calls c phase }

/-- `inflight.delete(scopedKey)` in the `finally` block, and the end of the call. -/
def release
    (w : World TBody)
    (c : Nat)
    (scopedKey : String)
    (outcome : Outcome TBody) : World TBody :=
  { w with
    inflight := w.inflight.erase scopedKey
    calls := Function.update w.calls c (.settled outcome) }

end World

/-- A process that has just started, over a store with any content. -/
def initialWorld (store : PrismaIdempotencyStore.Table TBody) : World TBody where
  store := store
  inflight := ∅
  calls := fun _ => .notStarted
  committed := []

/-- Call `c` resumes from its lookup with clock reading `now`. -/
def resumeCall
    (env : ServiceEnv)
    (w : World TBody)
    (c : Nat)
    (input : RunOrCacheInput)
    (existing : Option (IdempotencyRecord TBody))
    (now : Int) : World TBody :=
  match decideAfterLookup (computeRequestHash env input.request)
      input.scopedKey existing now w.inflight with
  | .throwConflict => w.setCall c (.settled (.threw (.conflict input.key)))
  | .replay record =>
      w.setCall c (.settled (.returned
        { status := record.status, body := record.body, replayed := true }))
  | .throwInProgress => w.setCall c (.settled (.threw (.inProgress input.key)))
  | .runHandler =>
      { w with
        inflight := insert input.scopedKey w.inflight
        calls := Function.update w.calls c (.handling input now) }

/-- One event of the process; `none` when the call is not at that place. -/
def step (env : ServiceEnv) (w : World TBody) :
    Event TBody → Option (World TBody)
  | .call c input =>
      match w.calls c with
      | .notStarted => some (w.setCall c (.lookingUp input))
      | _ => none
  | .storeGet c =>
      match w.calls c with
      | .lookingUp input =>
          some (w.setCall c
            (.lookedUp input (PrismaIdempotencyStore.get w.store input.scopedKey)))
      | _ => none
  | .storeGetFails c =>
      match w.calls c with
      | .lookingUp _ => some (w.setCall c (.settled (.threw .store)))
      | _ => none
  | .resume c now =>
      match w.calls c with
      | .lookedUp input existing => some (resumeCall env w c input existing now)
      | _ => none
  | .handlerReturns c response =>
      match w.calls c with
      | .handling input now => some (w.setCall c (.putting input now response))
      | _ => none
  | .handlerThrows c =>
      match w.calls c with
      | .handling input _ =>
          some (w.release c input.scopedKey (.threw .handler))
      | _ => none
  | .storePut c =>
      match w.calls c with
      | .putting input now response =>
          some
            { w with
              store := PrismaIdempotencyStore.put w.store (recordOf env input now response)
              calls := Function.update w.calls c (.putDone input response)
              committed := (c, recordOf env input now response) :: w.committed }
      | _ => none
  | .storePutFails c applied =>
      match w.calls c with
      | .putting input now response =>
          let w' :=
            if applied then
              { w with
                store := PrismaIdempotencyStore.put w.store (recordOf env input now response) }
            else w
          some (w'.release c input.scopedKey (.threw .store))
      | _ => none
  | .settle c =>
      match w.calls c with
      | .putDone input response =>
          some (w.release c input.scopedKey
            (.returned { toIdempotencyResponse := response, replayed := false }))
      | _ => none

/-- What an event does, and the phase its call is in before. -/
inductive Stepped (env : ServiceEnv) (w : World TBody) : Event TBody → World TBody → Prop
  | call (c : Nat) (input : RunOrCacheInput) (hcall : w.calls c = .notStarted) :
      Stepped env w (.call c input) (w.setCall c (.lookingUp input))
  | storeGet (c : Nat) (input : RunOrCacheInput) (hcall : w.calls c = .lookingUp input) :
      Stepped env w (.storeGet c)
        (w.setCall c (.lookedUp input (PrismaIdempotencyStore.get w.store input.scopedKey)))
  | storeGetFails (c : Nat) (input : RunOrCacheInput) (hcall : w.calls c = .lookingUp input) :
      Stepped env w (.storeGetFails c) (w.setCall c (.settled (.threw .store)))
  | resume (c : Nat) (now : Int) (input : RunOrCacheInput)
      (existing : Option (IdempotencyRecord TBody)) (hcall : w.calls c = .lookedUp input existing) :
      Stepped env w (.resume c now) (resumeCall env w c input existing now)
  | handlerReturns (c : Nat) (response : IdempotencyResponse TBody) (input : RunOrCacheInput)
      (now : Int) (hcall : w.calls c = .handling input now) :
      Stepped env w (.handlerReturns c response) (w.setCall c (.putting input now response))
  | handlerThrows (c : Nat) (input : RunOrCacheInput) (now : Int)
      (hcall : w.calls c = .handling input now) :
      Stepped env w (.handlerThrows c) (w.release c input.scopedKey (.threw .handler))
  | storePut (c : Nat) (input : RunOrCacheInput) (now : Int) (response : IdempotencyResponse TBody)
      (hcall : w.calls c = .putting input now response) :
      Stepped env w (.storePut c)
        { w with
          store := PrismaIdempotencyStore.put w.store (recordOf env input now response)
          calls := Function.update w.calls c (.putDone input response)
          committed := (c, recordOf env input now response) :: w.committed }
  | storePutFails (c : Nat) (applied : Bool) (input : RunOrCacheInput) (now : Int)
      (response : IdempotencyResponse TBody) (hcall : w.calls c = .putting input now response) :
      Stepped env w (.storePutFails c applied)
        ((if applied then
            { w with
              store := PrismaIdempotencyStore.put w.store (recordOf env input now response) }
          else w).release c input.scopedKey (.threw .store))
  | settle (c : Nat) (input : RunOrCacheInput) (response : IdempotencyResponse TBody)
      (hcall : w.calls c = .putDone input response) :
      Stepped env w (.settle c)
        (w.release c input.scopedKey
          (.returned { toIdempotencyResponse := response, replayed := false }))

theorem stepped_of_step
    {env : ServiceEnv} {w w' : World TBody} {e : Event TBody}
    (hstep : step env w e = some w') :
    Stepped env w e w' := by
  cases e with
  | call c input =>
      simp only [step] at hstep
      split at hstep <;> simp only [Option.some.injEq, reduceCtorEq] at hstep
      next hcall =>
        subst hstep
        exact .call _ _ hcall
  | storeGet c =>
      simp only [step] at hstep
      split at hstep <;> simp only [Option.some.injEq, reduceCtorEq] at hstep
      next hcall =>
        subst hstep
        exact .storeGet _ _ hcall
  | storeGetFails c =>
      simp only [step] at hstep
      split at hstep <;> simp only [Option.some.injEq, reduceCtorEq] at hstep
      next hcall =>
        subst hstep
        exact .storeGetFails _ _ hcall
  | resume c now =>
      simp only [step] at hstep
      split at hstep <;> simp only [Option.some.injEq, reduceCtorEq] at hstep
      next hcall =>
        subst hstep
        exact .resume _ _ _ _ hcall
  | handlerReturns c response =>
      simp only [step] at hstep
      split at hstep <;> simp only [Option.some.injEq, reduceCtorEq] at hstep
      next hcall =>
        subst hstep
        exact .handlerReturns _ _ _ _ hcall
  | handlerThrows c =>
      simp only [step] at hstep
      split at hstep <;> simp only [Option.some.injEq, reduceCtorEq] at hstep
      next hcall =>
        subst hstep
        exact .handlerThrows _ _ _ hcall
  | storePut c =>
      simp only [step] at hstep
      split at hstep <;> simp only [Option.some.injEq, reduceCtorEq] at hstep
      next hcall =>
        subst hstep
        exact .storePut _ _ _ _ hcall
  | storePutFails c applied =>
      simp only [step] at hstep
      split at hstep <;> simp only [Option.some.injEq, reduceCtorEq] at hstep
      next hcall =>
        subst hstep
        exact .storePutFails _ _ _ _ _ hcall
  | settle c =>
      simp only [step] at hstep
      split at hstep <;> simp only [Option.some.injEq, reduceCtorEq] at hstep
      next hcall =>
        subst hstep
        exact .settle _ _ _ hcall

end Calls

end Idempotency
end NestBase
