import NestBase.Lib.Transition
import NestBase.Lib.Table
import Mathlib.Data.List.Sort
import Mathlib.Tactic

/-!
# The event outbox

`OutboxRecorder.record` appends entries to the outbox and
`OutboxWorker.runOnce` ticks hand them to the registered dispatchers.  There
are two storages.  `PrismaOutboxStorage` keeps the entries in the table
`outbox_entries` and marks a claimed row by a `processed_at` in the far
future; `InMemoryOutboxStorage` keeps a list of entries and a set of
processed ids.

The module has the worker twice.  `OutboxWorker.runOnce` is one undisturbed
tick over any storage.  `step` is the same tick cut at its awaits, over the
Prisma storage, where any number of ticks and `record` calls interleave and
every SQL statement takes effect at one event.
-/

namespace NestBase
namespace Outbox

open Lib

section Outbox

variable {Payload : Type}

/-! ## Entries -/

structure OutboxEntry (Payload : Type) where
  id : String
  seq : Nat
  tenantId : String
  type : String
  payload : Payload
  occurredAt : Int
  processedAt : Option Int
  claimedAt : Option Int
  dispatchAttemptCount : Option Nat

structure RecordInput (Payload : Type) where
  tenantId : String
  type : String
  payload : Payload

/-- The entry `record` appends, with the id `uuidV7` returns. -/
def newEntry (input : RecordInput Payload) (id : String) (seq : Nat) (now : Int) :
    OutboxEntry Payload where
  id := id
  seq := seq
  tenantId := input.tenantId
  type := input.type
  payload := input.payload
  occurredAt := now
  processedAt := none
  claimedAt := none
  dispatchAttemptCount := none

/-- What the worker needs of a storage; `append` may reject. -/
structure OutboxStorage (σ Payload : Type) where
  append : OutboxEntry Payload → σ → Option σ
  claimBatch : Int → Int → σ → List (OutboxEntry Payload) × σ
  markProcessed : String → Int → σ → Bool × σ
  incrementDispatchAttemptCount : String → σ → Nat × σ

/-! ## Prisma storage -/

/-- `new Date("9999-12-31T23:59:59.999Z")` in milliseconds. -/
def INFLIGHT_SENTINEL : Int := 253402300799999

/-- A row of `outbox_entries`. -/
structure OutboxRow (Payload : Type) where
  id : String
  seq : Nat
  tenantId : String
  type : String
  payload : Payload
  occurredAt : Int
  processedAt : Option Int
  claimedAt : Option Int
  dispatchAttemptCount : Nat

namespace PrismaOutboxStorage

/-- The inserted row; the attempt count has its default. -/
def toRow (entry : OutboxEntry Payload) : OutboxRow Payload where
  id := entry.id
  seq := entry.seq
  tenantId := entry.tenantId
  type := entry.type
  payload := entry.payload
  occurredAt := entry.occurredAt
  processedAt := entry.processedAt
  claimedAt := entry.claimedAt
  dispatchAttemptCount := 0

def fromRow (row : OutboxRow Payload) : OutboxEntry Payload where
  id := row.id
  seq := row.seq
  tenantId := row.tenantId
  type := row.type
  payload := row.payload
  occurredAt := row.occurredAt
  processedAt := row.processedAt
  claimedAt := row.claimedAt
  dispatchAttemptCount := some row.dispatchAttemptCount

/-- The primary key refuses an id that is taken. -/
def append (entry : OutboxEntry Payload) (rows : List (OutboxRow Payload)) :
    Option (List (OutboxRow Payload)) :=
  insertRow OutboxRow.id (toRow entry) rows

/-- `WHERE processed_at IS NULL ORDER BY seq ASC LIMIT limit` -/
def selected (limit : Int) (rows : List (OutboxRow Payload)) : List (OutboxRow Payload) :=
  ((rows.filter fun row => row.processedAt.isNone).insertionSort fun a b => a.seq ≤ b.seq).take
    limit.toNat

/-- The transaction of `SELECT ... FOR UPDATE SKIP LOCKED` and the in-flight mark. -/
def claimBatch (limit now : Int) (rows : List (OutboxRow Payload)) :
    List (OutboxEntry Payload) × List (OutboxRow Payload) :=
  if limit ≤ 0 then ([], rows)
  else
    let ids := (selected limit rows).map OutboxRow.id
    ((selected limit rows).map fromRow,
      updateMany (fun row => ids.contains row.id && row.processedAt.isNone)
        (fun row => { row with processedAt := some INFLIGHT_SENTINEL, claimedAt := some now })
        rows)

/-- `UPDATE ... SET dispatch_attempt_count = dispatch_attempt_count + 1 ... RETURNING` -/
def incrementDispatchAttemptCount (id : String) (rows : List (OutboxRow Payload)) :
    Nat × List (OutboxRow Payload) :=
  let rows' :=
    updateMany (fun row => decide (row.id = id))
      (fun row => { row with dispatchAttemptCount := row.dispatchAttemptCount + 1 }) rows
  (((findRow OutboxRow.id id rows').map OutboxRow.dispatchAttemptCount).getD 0, rows')

/-- The rows `markProcessed` writes: unclaimed or in flight. -/
def awaitsProcessing (id : String) (row : OutboxRow Payload) : Bool :=
  decide (row.id = id) &&
    (row.processedAt.isNone || decide (row.processedAt = some INFLIGHT_SENTINEL))

def markProcessed (id : String) (processedAt : Int) (rows : List (OutboxRow Payload)) :
    Bool × List (OutboxRow Payload) :=
  (decide (0 < updateCount (awaitsProcessing id) rows),
    updateMany (awaitsProcessing id) (fun row => { row with processedAt := some processedAt })
      rows)

/-- The storage over the table. -/
def storage : OutboxStorage (List (OutboxRow Payload)) Payload where
  append := append
  claimBatch := claimBatch
  markProcessed := markProcessed
  incrementDispatchAttemptCount := incrementDispatchAttemptCount

end PrismaOutboxStorage

/-! ## In-memory storage -/

structure InMemoryOutbox (Payload : Type) where
  entries : List (OutboxEntry Payload)
  processed : List String

namespace InMemoryOutboxStorage

def append (entry : OutboxEntry Payload) (memory : InMemoryOutbox Payload) :
    Option (InMemoryOutbox Payload) :=
  some { memory with entries := memory.entries ++ [entry] }

/-- `slice(0, limit)`: a negative limit counts from the end. -/
def slice (limit : Int) (entries : List (OutboxEntry Payload)) : List (OutboxEntry Payload) :=
  entries.take (if limit < 0 then entries.length + limit else limit).toNat

/-- The entries of the batch are stamped in place. -/
def claimBatch (limit now : Int) (memory : InMemoryOutbox Payload) :
    List (OutboxEntry Payload) × InMemoryOutbox Payload :=
  let stamp := fun entry : OutboxEntry Payload => { entry with claimedAt := some now }
  let batch :=
    slice limit (memory.entries.filter fun entry => !memory.processed.contains entry.id)
  (batch.map stamp,
    { memory with
      entries :=
        updateMany (fun entry => (batch.map OutboxEntry.id).contains entry.id) stamp
          memory.entries })

def markProcessed (id : String) (_processedAt : Int) (memory : InMemoryOutbox Payload) :
    Bool × InMemoryOutbox Payload :=
  if memory.processed.contains id then (false, memory)
  else (true, { memory with processed := id :: memory.processed })

/-- The first entry with the id is counted up in place. -/
def countUp (id : String) :
    List (OutboxEntry Payload) → Nat × List (OutboxEntry Payload)
  | [] => (0, [])
  | entry :: rest =>
      if entry.id = id then
        let count := entry.dispatchAttemptCount.getD 0 + 1
        (count, { entry with dispatchAttemptCount := some count } :: rest)
      else
        let (count, rest') := countUp id rest
        (count, entry :: rest')

def incrementDispatchAttemptCount (id : String) (memory : InMemoryOutbox Payload) :
    Nat × InMemoryOutbox Payload :=
  let (count, entries) := countUp id memory.entries
  (count, { memory with entries := entries })

def storage : OutboxStorage (InMemoryOutbox Payload) Payload where
  append := append
  claimBatch := claimBatch
  markProcessed := markProcessed
  incrementDispatchAttemptCount := incrementDispatchAttemptCount

end InMemoryOutboxStorage

/-! ## One undisturbed tick -/

structure OutboxWorkerOptions where
  batchSize : Int
  maxAttempts : Option Nat

/-- The entry has used up its attempts. -/
def OutboxWorkerOptions.exceeded (options : OutboxWorkerOptions) (attemptCount : Nat) : Bool :=
  match options.maxAttempts with
  | none => false
  | some maxAttempts => decide (maxAttempts < attemptCount)

structure OutboxWorkerResult where
  processed : Nat
  deadLettered : Nat
deriving DecidableEq, Repr

/-- A storage with the counter of the recorder and the ids dispatched so far. -/
structure Session (σ : Type) where
  store : σ
  nextSeq : Nat
  dispatched : List String

section Sequential

variable {σ : Type}
variable (storage : OutboxStorage σ Payload)
variable (options : OutboxWorkerOptions)

/-- The body of the loop; the dispatchers answer `outcome entry.id`. -/
def OutboxWorker.runEntry
    (outcome : String → List Bool)
    (processedAt now : Int)
    (run : Session σ × OutboxWorkerResult)
    (entry : OutboxEntry Payload) : Session σ × OutboxWorkerResult :=
  let (session, result) := run
  let (attemptCount, store) := storage.incrementDispatchAttemptCount entry.id session.store
  if options.exceeded attemptCount then
    ({ session with store := (storage.markProcessed entry.id processedAt store).2 },
      { result with deadLettered := result.deadLettered + 1 })
  else
    let dispatched := session.dispatched ++ [entry.id]
    if (outcome entry.id).all fun ok => ok then
      ({ session with
          store := (storage.markProcessed entry.id now store).2
          dispatched := dispatched },
        { result with processed := result.processed + 1 })
    else ({ session with store := store, dispatched := dispatched }, result)

def OutboxWorker.runOnce
    (outcome : String → List Bool)
    (now : Int)
    (session : Session σ) : Session σ × OutboxWorkerResult :=
  let (batch, store) := storage.claimBatch options.batchSize now session.store
  batch.foldl (OutboxWorker.runEntry storage options outcome now now)
    ({ session with store := store }, { processed := 0, deadLettered := 0 })

/-- `record` of an input with an empty type throws before anything happens. -/
def OutboxRecorder.record
    (input : RecordInput Payload)
    (id : String)
    (now : Int)
    (session : Session σ) : Session σ :=
  if input.type = "" then session
  else
    let session' := { session with nextSeq := session.nextSeq + 1 }
    match storage.append (newEntry input id session.nextSeq now) session.store with
    | none => session'
    | some store => { session' with store := store }

/-- What one process does, one call after the other. -/
inductive Command (Payload : Type) where
  | record (input : RecordInput Payload) (id : String) (now : Int)
  | tick (outcome : String → List Bool) (now : Int)

def runCommand (session : Session σ) : Command Payload → Session σ
  | .record input id now => OutboxRecorder.record storage input id now session
  | .tick outcome now => (OutboxWorker.runOnce storage options outcome now session).1

def runCommands (session : Session σ) (commands : List (Command Payload)) : Session σ :=
  commands.foldl (runCommand storage options) session

end Sequential

/-- An empty table and a fresh recorder. -/
def prismaSession : Session (List (OutboxRow Payload)) where
  store := []
  nextSeq := 1
  dispatched := []

def memorySession : Session (InMemoryOutbox Payload) where
  store := { entries := [], processed := [] }
  nextSeq := 1
  dispatched := []

/-! ## Interleaved ticks -/

/-- One call of `record`. -/
inductive Recording (Payload : Type) where
  | idle
  /-- The insert is under way. -/
  | appending (entry : OutboxEntry Payload)
  | returned (entry : OutboxEntry Payload)
  | rejected

/-- One call of `runOnce`; `at_` is the time stamp of the batch. -/
inductive Tick (Payload : Type) where
  | idle
  | looping (todo : List (OutboxEntry Payload)) (at_ : Int) (result : OutboxWorkerResult)
  /-- The dispatchers work on the entry. -/
  | dispatching
      (entry : OutboxEntry Payload)
      (todo : List (OutboxEntry Payload))
      (at_ : Int)
      (result : OutboxWorkerResult)
  /-- `markProcessed` with the given time stamp is next; the result counts it. -/
  | marking
      (entry : OutboxEntry Payload)
      (processedAt : Int)
      (todo : List (OutboxEntry Payload))
      (at_ : Int)
      (result : OutboxWorkerResult)
  | returned (result : OutboxWorkerResult)
  | rejected

/-- The entries a running tick has claimed and not yet finished. -/
def Tick.held : Tick Payload → List (OutboxEntry Payload)
  | looping todo _ _ => todo
  | dispatching entry todo _ _ => entry :: todo
  | marking entry _ todo _ _ => entry :: todo
  | _ => []

/-- `processed` has the ids `markProcessed` was performed for; no event reads it. -/
structure World (Payload : Type) where
  rows : List (OutboxRow Payload)
  nextSeq : Nat
  recordings : Nat → Recording Payload
  ticks : Nat → Tick Payload
  processed : List String

def initialWorld : World Payload where
  rows := []
  nextSeq := 1
  recordings := fun _ => .idle
  ticks := fun _ => .idle
  processed := []

inductive Event (Payload : Type) where
  | record (q : Nat) (input : RecordInput Payload) (id : String) (now : Int)
  | append (q : Nat)
  /-- The insert rejects, with or without having taken effect. -/
  | appendFails (q : Nat) (applied : Bool)
  | claim (k : Nat) (now : Int)
  | claimFails (k : Nat) (applied : Bool) (now : Int)
  | increment (k : Nat)
  | incrementFails (k : Nat) (applied : Bool)
  /-- Every dispatcher has returned or thrown. -/
  | dispatched (k : Nat) (results : List Bool) (now : Int)
  | markProcessed (k : Nat)
  | markProcessedFails (k : Nat) (applied : Bool)
  | endOfLoop (k : Nat)

namespace World

def setTick (w : World Payload) (k : Nat) (tick : Tick Payload) : World Payload :=
  { w with ticks := Function.update w.ticks k tick }

def setRecording (w : World Payload) (q : Nat) (recording : Recording Payload) :
    World Payload :=
  { w with recordings := Function.update w.recordings q recording }

/-- An insert takes effect when the id is free. -/
def insert (w : World Payload) (entry : OutboxEntry Payload) : World Payload :=
  { w with rows := (PrismaOutboxStorage.append entry w.rows).getD w.rows }

def claimed (w : World Payload) (limit now : Int) : World Payload :=
  { w with rows := (PrismaOutboxStorage.claimBatch limit now w.rows).2 }

def incremented (w : World Payload) (id : String) : World Payload :=
  { w with rows := (PrismaOutboxStorage.incrementDispatchAttemptCount id w.rows).2 }

def marked (w : World Payload) (id : String) (processedAt : Int) : World Payload :=
  { w with
    rows := (PrismaOutboxStorage.markProcessed id processedAt w.rows).2
    processed := id :: w.processed }

end World

/-- One event; `none` when the party is not at that place. -/
def step (options : OutboxWorkerOptions) (w : World Payload) :
    Event Payload → Option (World Payload)
  | .record q input id now =>
      match w.recordings q with
      | .idle =>
          if input.type = "" then some (w.setRecording q .rejected)
          else
            some
              ({ w with nextSeq := w.nextSeq + 1 }.setRecording q
                (.appending (newEntry input id w.nextSeq now)))
      | _ => none
  | .append q =>
      match w.recordings q with
      | .appending entry =>
          match PrismaOutboxStorage.append entry w.rows with
          | some _ => some ((w.insert entry).setRecording q (.returned entry))
          | none => some (w.setRecording q .rejected)
      | _ => none
  | .appendFails q applied =>
      match w.recordings q with
      | .appending entry =>
          some ((if applied then w.insert entry else w).setRecording q .rejected)
      | _ => none
  | .claim k now =>
      match w.ticks k with
      | .idle =>
          match (PrismaOutboxStorage.claimBatch options.batchSize now w.rows).1 with
          | [] =>
              some
                ((w.claimed options.batchSize now).setTick k
                  (.returned { processed := 0, deadLettered := 0 }))
          | batch =>
              some
                ((w.claimed options.batchSize now).setTick k
                  (.looping batch now { processed := 0, deadLettered := 0 }))
      | _ => none
  | .claimFails k applied now =>
      match w.ticks k with
      | .idle =>
          some ((if applied then w.claimed options.batchSize now else w).setTick k .rejected)
      | _ => none
  | .increment k =>
      match w.ticks k with
      | .looping (entry :: todo) at_ result =>
          let attemptCount :=
            (PrismaOutboxStorage.incrementDispatchAttemptCount entry.id w.rows).1
          if options.exceeded attemptCount then
            some
              ((w.incremented entry.id).setTick k
                (.marking entry at_ todo at_
                  { result with deadLettered := result.deadLettered + 1 }))
          else some ((w.incremented entry.id).setTick k (.dispatching entry todo at_ result))
      | _ => none
  | .incrementFails k applied =>
      match w.ticks k with
      | .looping (entry :: _) _ _ =>
          some ((if applied then w.incremented entry.id else w).setTick k .rejected)
      | _ => none
  | .dispatched k results now =>
      match w.ticks k with
      | .dispatching entry todo at_ result =>
          if results.all fun ok => ok then
            some
              (w.setTick k
                (.marking entry now todo at_ { result with processed := result.processed + 1 }))
          else some (w.setTick k (.looping todo at_ result))
      | _ => none
  | .markProcessed k =>
      match w.ticks k with
      | .marking entry processedAt todo at_ result =>
          some ((w.marked entry.id processedAt).setTick k (.looping todo at_ result))
      | _ => none
  | .markProcessedFails k applied =>
      match w.ticks k with
      | .marking entry processedAt _ _ _ =>
          some ((if applied then w.marked entry.id processedAt else w).setTick k .rejected)
      | _ => none
  | .endOfLoop k =>
      match w.ticks k with
      | .looping [] _ result => some (w.setTick k (.returned result))
      | _ => none

/-! ## What an event does -/

/-- The events of a world with their outcomes, one constructor for each branch. -/
inductive Stepped (options : OutboxWorkerOptions) (w : World Payload) :
    Event Payload → World Payload → Prop
  | refused (q : Nat) (input : RecordInput Payload) (id : String) (now : Int) :
      Stepped options w (.record q input id now) (w.setRecording q .rejected)
  | recorded (q : Nat) (input : RecordInput Payload) (id : String) (now : Int) :
      Stepped options w (.record q input id now)
        ({ w with nextSeq := w.nextSeq + 1 }.setRecording q
          (.appending (newEntry input id w.nextSeq now)))
  | inserted (q : Nat) (entry : OutboxEntry Payload) :
      w.recordings q = .appending entry →
      Stepped options w (.append q) ((w.insert entry).setRecording q (.returned entry))
  | taken (q : Nat) : Stepped options w (.append q) (w.setRecording q .rejected)
  | insertFails (q : Nat) (entry : OutboxEntry Payload) (applied : Bool) :
      w.recordings q = .appending entry →
      Stepped options w (.appendFails q applied)
        ((if applied then w.insert entry else w).setRecording q .rejected)
  | claimsNone (k : Nat) (now : Int) :
      w.ticks k = .idle →
      (PrismaOutboxStorage.claimBatch options.batchSize now w.rows).1 = [] →
      Stepped options w (.claim k now)
        ((w.claimed options.batchSize now).setTick k
          (.returned { processed := 0, deadLettered := 0 }))
  | claimsBatch (k : Nat) (now : Int) :
      w.ticks k = .idle →
      Stepped options w (.claim k now)
        ((w.claimed options.batchSize now).setTick k
          (.looping (PrismaOutboxStorage.claimBatch options.batchSize now w.rows).1 now
            { processed := 0, deadLettered := 0 }))
  | claimFails (k : Nat) (applied : Bool) (now : Int) :
      w.ticks k = .idle →
      Stepped options w (.claimFails k applied now)
        ((if applied then w.claimed options.batchSize now else w).setTick k .rejected)
  | deadLetters (k : Nat) (entry : OutboxEntry Payload) (todo : List (OutboxEntry Payload))
      (at_ : Int) (result result' : OutboxWorkerResult) :
      w.ticks k = .looping (entry :: todo) at_ result →
      Stepped options w (.increment k)
        ((w.incremented entry.id).setTick k (.marking entry at_ todo at_ result'))
  | dispatches (k : Nat) (entry : OutboxEntry Payload) (todo : List (OutboxEntry Payload))
      (at_ : Int) (result : OutboxWorkerResult) :
      w.ticks k = .looping (entry :: todo) at_ result →
      Stepped options w (.increment k)
        ((w.incremented entry.id).setTick k (.dispatching entry todo at_ result))
  | incrementFails (k : Nat) (entry : OutboxEntry Payload) (todo : List (OutboxEntry Payload))
      (at_ : Int) (result : OutboxWorkerResult) (applied : Bool) :
      w.ticks k = .looping (entry :: todo) at_ result →
      Stepped options w (.incrementFails k applied)
        ((if applied then w.incremented entry.id else w).setTick k .rejected)
  | succeeds (k : Nat) (entry : OutboxEntry Payload) (todo : List (OutboxEntry Payload))
      (at_ : Int) (result result' : OutboxWorkerResult) (results : List Bool) (now : Int) :
      w.ticks k = .dispatching entry todo at_ result →
      Stepped options w (.dispatched k results now)
        (w.setTick k (.marking entry now todo at_ result'))
  | fails (k : Nat) (entry : OutboxEntry Payload) (todo : List (OutboxEntry Payload))
      (at_ : Int) (result : OutboxWorkerResult) (results : List Bool) (now : Int) :
      w.ticks k = .dispatching entry todo at_ result →
      (results.all fun ok => ok) = false →
      Stepped options w (.dispatched k results now) (w.setTick k (.looping todo at_ result))
  | marks (k : Nat) (entry : OutboxEntry Payload) (processedAt : Int)
      (todo : List (OutboxEntry Payload)) (at_ : Int) (result : OutboxWorkerResult) :
      w.ticks k = .marking entry processedAt todo at_ result →
      Stepped options w (.markProcessed k)
        ((w.marked entry.id processedAt).setTick k (.looping todo at_ result))
  | markFails (k : Nat) (entry : OutboxEntry Payload) (processedAt : Int)
      (todo : List (OutboxEntry Payload)) (at_ : Int) (result : OutboxWorkerResult)
      (applied : Bool) :
      w.ticks k = .marking entry processedAt todo at_ result →
      Stepped options w (.markProcessedFails k applied)
        ((if applied then w.marked entry.id processedAt else w).setTick k .rejected)
  | ends (k : Nat) (at_ : Int) (result : OutboxWorkerResult) :
      w.ticks k = .looping [] at_ result →
      Stepped options w (.endOfLoop k) (w.setTick k (.returned result))

theorem stepped_of_step
    {options : OutboxWorkerOptions} {w w' : World Payload} {e : Event Payload}
    (hstep : step options w e = some w') :
    Stepped options w e w' := by
  cases e with
  | record q input id now =>
      simp only [step] at hstep
      split at hstep
      · split at hstep <;> cases hstep
        · exact .refused q input id now
        · exact .recorded q input id now
      · cases hstep
  | append q =>
      simp only [step] at hstep
      split at hstep
      · next entry hq =>
          split at hstep <;> cases hstep
          · exact .inserted q entry hq
          · exact .taken q
      · cases hstep
  | appendFails q applied =>
      simp only [step] at hstep
      split at hstep
      · next entry hq =>
          cases hstep
          exact .insertFails q entry applied hq
      · cases hstep
  | claim k now =>
      simp only [step] at hstep
      split at hstep
      · next hidle =>
          split at hstep <;> cases hstep
          · next hnone => exact .claimsNone k now hidle hnone
          · exact .claimsBatch k now hidle
      · cases hstep
  | claimFails k applied now =>
      simp only [step] at hstep
      split at hstep
      · next hidle =>
          cases hstep
          exact .claimFails k applied now hidle
      · cases hstep
  | increment k =>
      simp only [step] at hstep
      split at hstep
      · next entry todo at_ result htick =>
          split at hstep <;> cases hstep
          · exact .deadLetters k entry todo at_ result _ htick
          · exact .dispatches k entry todo at_ result htick
      · cases hstep
  | incrementFails k applied =>
      simp only [step] at hstep
      split at hstep
      · next entry todo at_ result htick =>
          cases hstep
          exact .incrementFails k entry todo at_ result applied htick
      · cases hstep
  | dispatched k results now =>
      simp only [step] at hstep
      split at hstep
      · next entry todo at_ result htick =>
          split at hstep <;> cases hstep
          · exact .succeeds k entry todo at_ result _ results now htick
          · next hfailed =>
              exact .fails k entry todo at_ result results now htick (eq_false_of_ne_true hfailed)
      · cases hstep
  | markProcessed k =>
      simp only [step] at hstep
      split at hstep
      · next entry processedAt todo at_ result htick =>
          cases hstep
          exact .marks k entry processedAt todo at_ result htick
      · cases hstep
  | markProcessedFails k applied =>
      simp only [step] at hstep
      split at hstep
      · next entry processedAt todo at_ result htick =>
          cases hstep
          exact .markFails k entry processedAt todo at_ result applied htick
      · cases hstep
  | endOfLoop k =>
      simp only [step] at hstep
      split at hstep
      · next at_ result htick =>
          cases hstep
          exact .ends k at_ result htick
      · cases hstep

end Outbox

end Outbox
end NestBase
