import NestBase.Lib.Transition
import NestBase.Lib.Table
import Mathlib.Tactic

/-!
# The email outbox

`EmailOutboxRecorder.enqueue` appends records to the `email_outbox` table and
`EmailOutboxWorker.runOnce` ticks deliver them.  Any number of ticks, enqueues
and admin actions run at the same time over one `PrismaEmailOutboxStorage`;
they interleave at their awaits.

A tick lists the dispatchable records once and then treats them one by one:
it claims the record, dispatches it with the driver, and finishes with one of
three writes (`markSent`, `markDeadLetter`, `recordTransientFailure`).  The
phases of `Tick` are the places where a tick is suspended.  Every storage
statement takes effect at one event, and each statement is kept with the
`WHERE` clause of the source: `claim`, `markRetry` and `markCancelled` test
the status of the row, the three finishing writes address it by id alone.

`this.now()` is read from `World.clock`, which the event `clock` sets.
-/

namespace NestBase
namespace EmailOutbox

open Lib

/-! ## Statuses, rows and records -/

inductive EmailOutboxKind where
  | send
  | sendTemplate
deriving DecidableEq, Repr

inductive EmailOutboxStatus where
  | pending
  | sent
  | deadLetter
  | cancelled
deriving DecidableEq, Repr

/-- The status column of the table. -/
inductive DbStatus where
  | PENDING
  | SENT
  | DEAD_LETTER
  | CANCELLED
deriving DecidableEq, Repr

/-- `STATUS_DB_TO_DOMAIN` -/
def DbStatus.toDomain : DbStatus → EmailOutboxStatus
  | PENDING => .pending
  | SENT => .sent
  | DEAD_LETTER => .deadLetter
  | CANCELLED => .cancelled

/-- `STATUS_DOMAIN_TO_DB` -/
def EmailOutboxStatus.toDb : EmailOutboxStatus → DbStatus
  | pending => .PENDING
  | sent => .SENT
  | deadLetter => .DEAD_LETTER
  | cancelled => .CANCELLED

section Outbox

variable {Payload : Type}

/-- A row of `email_outbox`; times are epoch milliseconds. -/
structure PrismaEmailOutboxRow (Payload : Type) where
  id : String
  kind : EmailOutboxKind
  payload : Payload
  idempotencyKey : Option String
  status : DbStatus
  attemptCount : Nat
  nextAttemptAt : Option Int
  claimedAt : Option Int
  lastError : Option String
  succeededAt : Option Int
  failedAt : Option Int
  createdAt : Int

/-- A record as the storage hands it to the recorder, the worker and the controller. -/
structure EmailOutboxRecord (Payload : Type) where
  id : String
  kind : EmailOutboxKind
  payload : Payload
  idempotencyKey : Option String
  status : EmailOutboxStatus
  attemptCount : Nat
  nextAttemptAt : Option Int
  claimedAt : Option Int
  lastError : Option String
  succeededAt : Option Int
  failedAt : Option Int
  createdAt : Int

def toRecord (row : PrismaEmailOutboxRow Payload) : EmailOutboxRecord Payload where
  id := row.id
  kind := row.kind
  payload := row.payload
  idempotencyKey := row.idempotencyKey
  status := row.status.toDomain
  attemptCount := row.attemptCount
  nextAttemptAt := row.nextAttemptAt
  claimedAt := row.claimedAt
  lastError := row.lastError
  succeededAt := row.succeededAt
  failedAt := row.failedAt
  createdAt := row.createdAt

/-! ## Planners -/

inductive EmailOutboxErrorKind where
  | transient
  | permanent
deriving DecidableEq, Repr

structure EmailOutboxRetryConfig where
  initialDelayMs : Nat
  factor : Nat
  maxDelayMs : Nat
  maxAttempts : Nat

def DEFAULT_EMAIL_OUTBOX_RETRY : EmailOutboxRetryConfig where
  initialDelayMs := 60000
  factor := 5
  maxDelayMs := 2 * 60 * 60 * 1000
  maxAttempts := 5

def STALE_CLAIM_THRESHOLD_MS : Int := 30000

inductive PlanEmailRetryResult where
  | terminal
  | retryAt (nextAttemptAt : Int)
deriving DecidableEq, Repr

/-- The next attempt after a failure; an attempt count below one is an error. -/
def planEmailRetry
    (attemptCount : Nat)
    (errorKind : EmailOutboxErrorKind)
    (now : Int)
    (config : EmailOutboxRetryConfig) : Except String PlanEmailRetryResult :=
  if attemptCount < 1 then
    .error ("planEmailRetry: attemptCount must be a positive integer (got " ++
      toString attemptCount ++ ")")
  else if errorKind = .permanent then .ok .terminal
  else if attemptCount ≥ config.maxAttempts then .ok .terminal
  else
    let raw := config.initialDelayMs * config.factor ^ (attemptCount - 1)
    .ok (.retryAt (now + min raw config.maxDelayMs))

inductive AdminAction where
  | retry
  | cancel
deriving DecidableEq, Repr

inductive AdminActionDecision where
  | allowed
  | refused (reason : String)
deriving DecidableEq, Repr

def planOutboxAdminAction
    (action : AdminAction)
    (currentStatus : EmailOutboxStatus) : AdminActionDecision :=
  match action with
  | .retry =>
      if currentStatus = .sent then
        .refused "record is already sent — retry is not meaningful"
      else if currentStatus = .cancelled then
        .refused "record is cancelled — re-enqueue a new record instead"
      else .allowed
  | .cancel =>
      if currentStatus = .sent then
        .refused "record is already sent — cancel has no effect"
      else if currentStatus = .cancelled then
        .refused "record is already cancelled"
      else .allowed

/-! ## Storage statements -/

/-- The statements that change the table. -/
inductive StorageWrite where
  | claim (id : String) (claimedAt : Int)
  | markSent (id : String) (at_ : Int)
  | markDeadLetter (id : String) (at_ : Int) (error : String)
  | recordTransientFailure
      (id : String) (attemptCount : Nat) (nextAttemptAt : Int) (error : String)
  | markRetry (id : String)
  | markCancelled (id : String)
deriving DecidableEq, Repr

namespace StorageWrite

def id : StorageWrite → String
  | claim id _ => id
  | markSent id _ => id
  | markDeadLetter id _ _ => id
  | recordTransientFailure id _ _ _ => id
  | markRetry id => id
  | markCancelled id => id

/-- No claim, or a claim older than the crash-safety threshold. -/
def claimFree (row : PrismaEmailOutboxRow Payload) (now : Int) : Bool :=
  match row.claimedAt with
  | none => true
  | some claimedAt => decide (claimedAt < now - STALE_CLAIM_THRESHOLD_MS)

/-- The part of the `WHERE` clause beyond the id. -/
def admits (row : PrismaEmailOutboxRow Payload) : StorageWrite → Bool
  | claim _ claimedAt => decide (row.status = .PENDING) && claimFree row claimedAt
  | markSent _ _ => true
  | markDeadLetter _ _ _ => true
  | recordTransientFailure _ _ _ _ => true
  | markRetry _ => decide (row.status = .PENDING) || decide (row.status = .DEAD_LETTER)
  | markCancelled _ =>
      decide (row.status = .PENDING) || decide (row.status = .DEAD_LETTER)

/-- The `data` of the statement. -/
def change (row : PrismaEmailOutboxRow Payload) :
    StorageWrite → PrismaEmailOutboxRow Payload
  | claim _ claimedAt => { row with claimedAt := some claimedAt }
  | markSent _ at_ =>
      { row with status := .SENT, succeededAt := some at_, claimedAt := none }
  | markDeadLetter _ at_ error =>
      { row with
        status := .DEAD_LETTER
        failedAt := some at_
        lastError := some error
        claimedAt := none }
  | recordTransientFailure _ attemptCount nextAttemptAt error =>
      { row with
        attemptCount := attemptCount
        nextAttemptAt := some nextAttemptAt
        lastError := some error
        claimedAt := none }
  | markRetry _ =>
      { row with
        status := .PENDING
        attemptCount := 0
        nextAttemptAt := none
        claimedAt := none }
  | markCancelled _ => { row with status := .CANCELLED, claimedAt := none }

def matching (write : StorageWrite) (row : PrismaEmailOutboxRow Payload) : Bool :=
  decide (row.id = write.id) && write.admits row

/-- `updateMany` of the statement. -/
def apply (write : StorageWrite) (rows : List (PrismaEmailOutboxRow Payload)) :
    List (PrismaEmailOutboxRow Payload) :=
  updateMany write.matching (fun row => write.change row) rows

/-- `result.count > 0` -/
def succeeds (write : StorageWrite) (rows : List (PrismaEmailOutboxRow Payload)) : Bool :=
  decide (0 < updateCount write.matching rows)

end StorageWrite

/-! ## Storage reads and the append -/

/-- The row with the given id. -/
def rowById (id : String) (rows : List (PrismaEmailOutboxRow Payload)) :
    Option (PrismaEmailOutboxRow Payload) :=
  findRow PrismaEmailOutboxRow.id id rows

def findById (id : String) (rows : List (PrismaEmailOutboxRow Payload)) :
    Option (EmailOutboxRecord Payload) :=
  (rowById id rows).map toRecord

def findByIdempotencyKey (key : String) (rows : List (PrismaEmailOutboxRow Payload)) :
    Option (EmailOutboxRecord Payload) :=
  (rows.find? fun row => decide (row.idempotencyKey = some key)).map toRecord

/-- The `where` of `listDispatchable`. -/
def dispatchable (now : Int) (row : PrismaEmailOutboxRow Payload) : Bool :=
  decide (row.status = .PENDING) &&
    (match row.nextAttemptAt with
      | none => true
      | some nextAttemptAt => decide (nextAttemptAt ≤ now)) &&
    StorageWrite.claimFree row now

/-- The `orderBy` of `listDispatchable`. -/
def listedBefore (a b : PrismaEmailOutboxRow Payload) : Prop :=
  a.createdAt < b.createdAt ∨ (a.createdAt = b.createdAt ∧ a.id ≤ b.id)

instance : DecidableRel (@listedBefore Payload) :=
  fun _ _ => inferInstanceAs (Decidable (_ ∨ (_ ∧ _)))

/-- Pending, due and unclaimed records, oldest first. -/
def listDispatchable (now : Int) (limit : Nat) (rows : List (PrismaEmailOutboxRow Payload)) :
    List (EmailOutboxRecord Payload) :=
  let sorted := (rows.filter (dispatchable now)).insertionSort listedBefore
  (sorted.take limit).map toRecord

/-- `create`: the id and the idempotency key, when there is one, are unique columns. -/
def append (row : PrismaEmailOutboxRow Payload) (rows : List (PrismaEmailOutboxRow Payload)) :
    Option (List (PrismaEmailOutboxRow Payload)) :=
  if row.idempotencyKey.isSome &&
      rows.any fun other => decide (other.idempotencyKey = row.idempotencyKey) then
    none
  else insertRow PrismaEmailOutboxRow.id row rows

/-! ## Parties -/

structure EnqueueInput (Payload : Type) where
  kind : EmailOutboxKind
  payload : Payload
  idempotencyKey : Option String

/-- The row `enqueue` appends. -/
def newRow
    (input : EnqueueInput Payload)
    (id : String)
    (now : Int) : PrismaEmailOutboxRow Payload where
  id := id
  kind := input.kind
  payload := input.payload
  idempotencyKey := input.idempotencyKey
  status := EmailOutboxStatus.pending.toDb
  attemptCount := 0
  nextAttemptAt := none
  claimedAt := none
  lastError := none
  succeededAt := none
  failedAt := none
  createdAt := now

/-- One call of `EmailOutboxRecorder.enqueue`. -/
inductive Enqueue (Payload : Type) where
  | idle
  /-- No record with the key was found; the append is next. -/
  | absent (input : EnqueueInput Payload)
  | returned (record : EmailOutboxRecord Payload)
  | rejected

structure EmailOutboxRunResult where
  sent : Nat
  retry : Nat
  deadLetter : Nat
deriving DecidableEq, Repr

/-- A thrown value: the message `toError` gives it and its `kind` property. -/
structure ThrownValue where
  message : String
  kind : Option String
deriving DecidableEq, Repr

def classifyErrorKind (raw : ThrownValue) : EmailOutboxErrorKind :=
  if raw.kind = some "permanent" then .permanent else .transient

/-- The write that the `catch` block of the loop chooses. -/
def planFailure
    (config : EmailOutboxRetryConfig)
    (candidate : EmailOutboxRecord Payload)
    (raw : ThrownValue)
    (now : Int) : Except String StorageWrite :=
  -- The attempt count comes from the listed record, not from the row.
  let attemptCount := candidate.attemptCount + 1
  match planEmailRetry attemptCount (classifyErrorKind raw) now config with
  | .error message => .error message
  | .ok .terminal => .ok (.markDeadLetter candidate.id now raw.message)
  | .ok (.retryAt nextAttemptAt) =>
      .ok (.recordTransientFailure candidate.id attemptCount nextAttemptAt raw.message)

/-- How far a tick is with the record it has claimed. -/
inductive Stage where
  | claimed
  | dispatching
  /-- The driver has returned; `markSent` is next. -/
  | delivered (at_ : Int)
  /-- The `catch` block has chosen its write. -/
  | failing (write : StorageWrite)
deriving DecidableEq, Repr

/-- One call of `EmailOutboxWorker.runOnce`. -/
inductive Tick (Payload : Type) where
  | idle
  | looping
      (todo : List (EmailOutboxRecord Payload))
      (result : EmailOutboxRunResult)
  | working
      (candidate : EmailOutboxRecord Payload)
      (claimedAt : Int)
      (stage : Stage)
      (todo : List (EmailOutboxRecord Payload))
      (result : EmailOutboxRunResult)
  | returned (result : EmailOutboxRunResult)
  | rejected

inductive AdminError where
  | notFound (message : String)
  | forbidden (reason : String)
deriving DecidableEq, Repr

/-- One `retry` or `cancel` request of `EmailOutboxAdminController`. -/
inductive AdminRequest where
  | idle
  /-- The planner has allowed the action; the write is next. -/
  | allowed (action : AdminAction) (id : String)
  | ok
  | failed (error : AdminError)
deriving DecidableEq, Repr

/-- What happened, for statements about whole runs; no event reads it. -/
inductive LogEntry where
  | dispatched (id : String)
  | transientFailure (id : String)
deriving DecidableEq, Repr

structure World (Payload : Type) where
  rows : List (PrismaEmailOutboxRow Payload)
  clock : Int
  enqueues : Nat → Enqueue Payload
  ticks : Nat → Tick Payload
  admins : Nat → AdminRequest
  log : List LogEntry

/-- An empty table and nobody active. -/
def initialWorld (clock : Int) : World Payload where
  rows := []
  clock := clock
  enqueues := fun _ => .idle
  ticks := fun _ => .idle
  admins := fun _ => .idle
  log := []

structure WorkerOptions where
  retry : EmailOutboxRetryConfig
  batchSize : Nat

inductive Event (Payload : Type) where
  /-- The clock shows `now` from here on. -/
  | clock (now : Int)
  | enqueueFind (q : Nat) (input : EnqueueInput Payload)
  | enqueueAppend (q : Nat) (id : String)
  | list (k : Nat)
  | listFails (k : Nat)
  | claim (k : Nat)
  /-- `claim` rejects, with or without having taken effect. -/
  | claimFails (k : Nat) (applied : Bool)
  | dispatch (k : Nat)
  | dispatchReturns (k : Nat)
  | dispatchThrows (k : Nat) (raw : ThrownValue)
  | markSent (k : Nat)
  /-- `markSent` rejects: the `catch` block treats it as a failed dispatch. -/
  | markSentFails (k : Nat) (applied : Bool) (raw : ThrownValue)
  /-- The write of the `catch` block. -/
  | recordFailure (k : Nat)
  | recordFailureFails (k : Nat) (applied : Bool)
  | endOfLoop (k : Nat)
  | crash (k : Nat)
  | adminFind (a : Nat) (action : AdminAction) (id : String)
  | adminWrite (a : Nat)

namespace World

def setTick (w : World Payload) (k : Nat) (tick : Tick Payload) : World Payload :=
  { w with ticks := Function.update w.ticks k tick }

def setEnqueue (w : World Payload) (q : Nat) (enqueue : Enqueue Payload) : World Payload :=
  { w with enqueues := Function.update w.enqueues q enqueue }

def setAdmin (w : World Payload) (a : Nat) (request : AdminRequest) : World Payload :=
  { w with admins := Function.update w.admins a request }

/-- A statement takes effect. -/
def write (w : World Payload) (write : StorageWrite) : World Payload :=
  { w with rows := write.apply w.rows }

/-- A statement that rejects may have taken effect. -/
def writeIf (w : World Payload) (applied : Bool) (write : StorageWrite) : World Payload :=
  if applied then w.write write else w

def record (w : World Payload) (entry : LogEntry) : World Payload :=
  { w with log := entry :: w.log }

end World

/-- The write an allowed admin request performs. -/
def adminStorageWrite : AdminAction → String → StorageWrite
  | .retry, id => .markRetry id
  | .cancel, id => .markCancelled id

/-- The counter the `catch` block increments. -/
def EmailOutboxRunResult.afterFailure
    (result : EmailOutboxRunResult) : StorageWrite → EmailOutboxRunResult
  | .markDeadLetter _ _ _ => { result with deadLetter := result.deadLetter + 1 }
  | _ => { result with retry := result.retry + 1 }

/-- The tick after the `catch` block has chosen its write. -/
def Tick.failed
    (options : WorkerOptions)
    (candidate : EmailOutboxRecord Payload)
    (claimedAt : Int)
    (todo : List (EmailOutboxRecord Payload))
    (result : EmailOutboxRunResult)
    (raw : ThrownValue)
    (now : Int) : Tick Payload :=
  match planFailure options.retry candidate raw now with
  | .ok write => .working candidate claimedAt (.failing write) todo result
  | .error _ => .rejected

/-- History after the write of the `catch` block. -/
def World.recordOutcome (w : World Payload) : StorageWrite → World Payload
  | .recordTransientFailure id _ _ _ => w.record (.transientFailure id)
  | _ => w

/-- One event; `none` when the party is not at that place. -/
def step (options : WorkerOptions) (w : World Payload) :
    Event Payload → Option (World Payload)
  | .clock now => some { w with clock := now }
  | .enqueueFind q input =>
      match w.enqueues q with
      | .idle =>
          let existing :=
            match input.idempotencyKey with
            | some key => if key = "" then none else findByIdempotencyKey key w.rows
            | none => none
          match existing with
          | some record => some (w.setEnqueue q (.returned record))
          | none => some (w.setEnqueue q (.absent input))
      | _ => none
  | .enqueueAppend q id =>
      match w.enqueues q with
      | .absent input =>
          let row := newRow input id w.clock
          match append row w.rows with
          | some rows =>
              some ({ w with rows := rows }.setEnqueue q (.returned (toRecord row)))
          | none => some (w.setEnqueue q .rejected)
      | _ => none
  | .list k =>
      match w.ticks k with
      | .idle =>
          some (w.setTick k
            (.looping (listDispatchable w.clock options.batchSize w.rows)
              { sent := 0, retry := 0, deadLetter := 0 }))
      | _ => none
  | .listFails k =>
      match w.ticks k with
      | .idle => some (w.setTick k .rejected)
      | _ => none
  | .claim k =>
      match w.ticks k with
      | .looping (candidate :: todo) result =>
          let claim := StorageWrite.claim candidate.id w.clock
          if claim.succeeds w.rows then
            some ((w.write claim).setTick k
              (.working candidate w.clock .claimed todo result))
          else some (w.setTick k (.looping todo result))
      | _ => none
  | .claimFails k applied =>
      match w.ticks k with
      | .looping (candidate :: todo) result =>
          some ((w.writeIf applied (.claim candidate.id w.clock)).setTick k
            (.looping todo result))
      | _ => none
  | .dispatch k =>
      match w.ticks k with
      | .working candidate claimedAt .claimed todo result =>
          some ((w.record (.dispatched candidate.id)).setTick k
            (.working candidate claimedAt .dispatching todo result))
      | _ => none
  | .dispatchReturns k =>
      match w.ticks k with
      | .working candidate claimedAt .dispatching todo result =>
          some (w.setTick k (.working candidate claimedAt (.delivered w.clock) todo result))
      | _ => none
  | .dispatchThrows k raw =>
      match w.ticks k with
      | .working candidate claimedAt .dispatching todo result =>
          some (w.setTick k
            (Tick.failed options candidate claimedAt todo result raw w.clock))
      | _ => none
  | .markSent k =>
      match w.ticks k with
      | .working candidate _ (.delivered at_) todo result =>
          some ((w.write (.markSent candidate.id at_)).setTick k
            (.looping todo { result with sent := result.sent + 1 }))
      | _ => none
  | .markSentFails k applied raw =>
      match w.ticks k with
      | .working candidate claimedAt (.delivered at_) todo result =>
          some ((w.writeIf applied (.markSent candidate.id at_)).setTick k
            (Tick.failed options candidate claimedAt todo result raw w.clock))
      | _ => none
  | .recordFailure k =>
      match w.ticks k with
      | .working _ _ (.failing write) todo result =>
          some (((w.write write).recordOutcome write).setTick k
            (.looping todo (result.afterFailure write)))
      | _ => none
  | .recordFailureFails k applied =>
      match w.ticks k with
      | .working _ _ (.failing write) _ _ =>
          some ((w.writeIf applied write).setTick k .rejected)
      | _ => none
  | .endOfLoop k =>
      match w.ticks k with
      | .looping [] result => some (w.setTick k (.returned result))
      | _ => none
  | .crash k => some (w.setTick k .rejected)
  | .adminFind a action id =>
      match w.admins a with
      | .idle =>
          match findById id w.rows with
          | none =>
              some (w.setAdmin a
                (.failed (.notFound ("email-outbox record " ++ id ++ " not found"))))
          | some record =>
              match planOutboxAdminAction action record.status with
              | .allowed => some (w.setAdmin a (.allowed action id))
              | .refused reason => some (w.setAdmin a (.failed (.forbidden reason)))
      | _ => none
  | .adminWrite a =>
      match w.admins a with
      | .allowed action id =>
          some ((w.write (adminStorageWrite action id)).setAdmin a .ok)
      | _ => none

/-- The record an enqueue finds under its key. -/
def existing (input : EnqueueInput Payload) (rows : List (PrismaEmailOutboxRow Payload)) :
    Option (EmailOutboxRecord Payload) :=
  input.idempotencyKey.bind fun key =>
    if key = "" then none else findByIdempotencyKey key rows

/-- What an event does, and the place its party is at before. -/
inductive Stepped (options : WorkerOptions) (w : World Payload) : Event Payload → World Payload → Prop
  | clock (now : Int) : Stepped options w (.clock now) { w with clock := now }
  | enqueueFound (q : Nat) (input : EnqueueInput Payload) (record : EmailOutboxRecord Payload)
      (hfound : existing input w.rows = some record) :
      Stepped options w (.enqueueFind q input) (w.setEnqueue q (.returned record))
  | enqueueAbsent (q : Nat) (input : EnqueueInput Payload)
      (hfound : existing input w.rows = none) :
      Stepped options w (.enqueueFind q input) (w.setEnqueue q (.absent input))
  | enqueueAppended (q : Nat) (id : String) (input : EnqueueInput Payload)
      (rows : List (PrismaEmailOutboxRow Payload)) (hcall : w.enqueues q = .absent input)
      (happend : append (newRow input id w.clock) w.rows = some rows) :
      Stepped options w (.enqueueAppend q id)
        ({ w with rows := rows }.setEnqueue q (.returned (toRecord (newRow input id w.clock))))
  | enqueueRejected (q : Nat) (id : String) (input : EnqueueInput Payload)
      (hcall : w.enqueues q = .absent input)
      (happend : append (newRow input id w.clock) w.rows = none) :
      Stepped options w (.enqueueAppend q id) (w.setEnqueue q .rejected)
  | list (k : Nat) (htick : w.ticks k = .idle) :
      Stepped options w (.list k)
        (w.setTick k
          (.looping (listDispatchable w.clock options.batchSize w.rows)
            { sent := 0, retry := 0, deadLetter := 0 }))
  | listFails (k : Nat) (htick : w.ticks k = .idle) :
      Stepped options w (.listFails k) (w.setTick k .rejected)
  | claimed (k : Nat) (candidate : EmailOutboxRecord Payload)
      (todo : List (EmailOutboxRecord Payload)) (result : EmailOutboxRunResult)
      (htick : w.ticks k = .looping (candidate :: todo) result)
      (hsucceeds : (StorageWrite.claim candidate.id w.clock).succeeds w.rows = true) :
      Stepped options w (.claim k)
        ((w.write (.claim candidate.id w.clock)).setTick k
          (.working candidate w.clock .claimed todo result))
  | claimLost (k : Nat) (candidate : EmailOutboxRecord Payload)
      (todo : List (EmailOutboxRecord Payload)) (result : EmailOutboxRunResult)
      (htick : w.ticks k = .looping (candidate :: todo) result)
      (hfails : (StorageWrite.claim candidate.id w.clock).succeeds w.rows = false) :
      Stepped options w (.claim k) (w.setTick k (.looping todo result))
  | claimFails (k : Nat) (applied : Bool) (candidate : EmailOutboxRecord Payload)
      (todo : List (EmailOutboxRecord Payload)) (result : EmailOutboxRunResult)
      (htick : w.ticks k = .looping (candidate :: todo) result) :
      Stepped options w (.claimFails k applied)
        ((w.writeIf applied (.claim candidate.id w.clock)).setTick k (.looping todo result))
  | dispatch (k : Nat) (candidate : EmailOutboxRecord Payload) (claimedAt : Int)
      (todo : List (EmailOutboxRecord Payload)) (result : EmailOutboxRunResult)
      (htick : w.ticks k = .working candidate claimedAt .claimed todo result) :
      Stepped options w (.dispatch k)
        ((w.record (.dispatched candidate.id)).setTick k
          (.working candidate claimedAt .dispatching todo result))
  | dispatchReturns (k : Nat) (candidate : EmailOutboxRecord Payload) (claimedAt : Int)
      (todo : List (EmailOutboxRecord Payload)) (result : EmailOutboxRunResult)
      (htick : w.ticks k = .working candidate claimedAt .dispatching todo result) :
      Stepped options w (.dispatchReturns k)
        (w.setTick k (.working candidate claimedAt (.delivered w.clock) todo result))
  | dispatchThrows (k : Nat) (raw : ThrownValue) (candidate : EmailOutboxRecord Payload)
      (claimedAt : Int) (todo : List (EmailOutboxRecord Payload)) (result : EmailOutboxRunResult)
      (htick : w.ticks k = .working candidate claimedAt .dispatching todo result) :
      Stepped options w (.dispatchThrows k raw)
        (w.setTick k (Tick.failed options candidate claimedAt todo result raw w.clock))
  | markSent (k : Nat) (candidate : EmailOutboxRecord Payload) (claimedAt at_ : Int)
      (todo : List (EmailOutboxRecord Payload)) (result : EmailOutboxRunResult)
      (htick : w.ticks k = .working candidate claimedAt (.delivered at_) todo result) :
      Stepped options w (.markSent k)
        ((w.write (.markSent candidate.id at_)).setTick k
          (.looping todo { result with sent := result.sent + 1 }))
  | markSentFails (k : Nat) (applied : Bool) (raw : ThrownValue)
      (candidate : EmailOutboxRecord Payload) (claimedAt at_ : Int)
      (todo : List (EmailOutboxRecord Payload)) (result : EmailOutboxRunResult)
      (htick : w.ticks k = .working candidate claimedAt (.delivered at_) todo result) :
      Stepped options w (.markSentFails k applied raw)
        ((w.writeIf applied (.markSent candidate.id at_)).setTick k
          (Tick.failed options candidate claimedAt todo result raw w.clock))
  | recordFailure (k : Nat) (candidate : EmailOutboxRecord Payload) (claimedAt : Int)
      (write : StorageWrite) (todo : List (EmailOutboxRecord Payload))
      (result : EmailOutboxRunResult)
      (htick : w.ticks k = .working candidate claimedAt (.failing write) todo result) :
      Stepped options w (.recordFailure k)
        (((w.write write).recordOutcome write).setTick k
          (.looping todo (result.afterFailure write)))
  | recordFailureFails (k : Nat) (applied : Bool) (candidate : EmailOutboxRecord Payload)
      (claimedAt : Int) (write : StorageWrite) (todo : List (EmailOutboxRecord Payload))
      (result : EmailOutboxRunResult)
      (htick : w.ticks k = .working candidate claimedAt (.failing write) todo result) :
      Stepped options w (.recordFailureFails k applied)
        ((w.writeIf applied write).setTick k .rejected)
  | endOfLoop (k : Nat) (result : EmailOutboxRunResult) (htick : w.ticks k = .looping [] result) :
      Stepped options w (.endOfLoop k) (w.setTick k (.returned result))
  | crash (k : Nat) : Stepped options w (.crash k) (w.setTick k .rejected)
  | adminFind (a : Nat) (action : AdminAction) (id : String) (request : AdminRequest)
      (hadmin : w.admins a = .idle) :
      Stepped options w (.adminFind a action id) (w.setAdmin a request)
  | adminWrite (a : Nat) (action : AdminAction) (id : String)
      (hadmin : w.admins a = .allowed action id) :
      Stepped options w (.adminWrite a)
        ((w.write (adminStorageWrite action id)).setAdmin a .ok)

theorem stepped_of_step
    {options : WorkerOptions} {w w' : World Payload} {e : Event Payload}
    (hstep : step options w e = some w') :
    Stepped options w e w' := by
  cases e with
  | clock now =>
      obtain rfl := Option.some.inj hstep
      exact .clock now
  | enqueueFind q input =>
      have hexisting :
          existing input w.rows =
            match input.idempotencyKey with
            | some key => if key = "" then none else findByIdempotencyKey key w.rows
            | none => none := by
        unfold existing
        cases input.idempotencyKey <;> rfl
      simp only [step, ← hexisting] at hstep
      split at hstep
      · split at hstep
        · next record hfound =>
          obtain rfl := Option.some.inj hstep
          exact .enqueueFound q input record hfound
        · next hfound =>
          obtain rfl := Option.some.inj hstep
          exact .enqueueAbsent q input hfound
      · cases hstep
  | enqueueAppend q id =>
      simp only [step] at hstep
      split at hstep
      · next input hcall =>
        split at hstep
        · next rows happend =>
          obtain rfl := Option.some.inj hstep
          exact .enqueueAppended q id input rows hcall happend
        · next happend =>
          obtain rfl := Option.some.inj hstep
          exact .enqueueRejected q id input hcall happend
      · cases hstep
  | claim k =>
      simp only [step] at hstep
      split at hstep
      · next candidate todo result htick =>
        split at hstep
        · next hsucceeds =>
          obtain rfl := Option.some.inj hstep
          exact .claimed k candidate todo result htick hsucceeds
        · next hfails =>
          obtain rfl := Option.some.inj hstep
          exact .claimLost k candidate todo result htick (Bool.eq_false_of_not_eq_true hfails)
      · cases hstep
  | crash k =>
      obtain rfl := Option.some.inj hstep
      exact .crash k
  | adminFind a action id =>
      simp only [step] at hstep
      split at hstep
      · next hadmin =>
        split at hstep
        · obtain rfl := Option.some.inj hstep
          exact .adminFind a action id _ hadmin
        · split at hstep
          · obtain rfl := Option.some.inj hstep
            exact .adminFind a action id _ hadmin
          · obtain rfl := Option.some.inj hstep
            exact .adminFind a action id _ hadmin
      · cases hstep
  | list k =>
      simp only [step] at hstep
      split at hstep
      · next htick =>
        obtain rfl := Option.some.inj hstep
        exact .list k htick
      · cases hstep
  | listFails k =>
      simp only [step] at hstep
      split at hstep
      · next htick =>
        obtain rfl := Option.some.inj hstep
        exact .listFails k htick
      · cases hstep
  | claimFails k applied =>
      simp only [step] at hstep
      split at hstep
      · next htick =>
        obtain rfl := Option.some.inj hstep
        exact .claimFails k applied _ _ _ htick
      · cases hstep
  | dispatch k =>
      simp only [step] at hstep
      split at hstep
      · next htick =>
        obtain rfl := Option.some.inj hstep
        exact .dispatch k _ _ _ _ htick
      · cases hstep
  | dispatchReturns k =>
      simp only [step] at hstep
      split at hstep
      · next htick =>
        obtain rfl := Option.some.inj hstep
        exact .dispatchReturns k _ _ _ _ htick
      · cases hstep
  | dispatchThrows k raw =>
      simp only [step] at hstep
      split at hstep
      · next htick =>
        obtain rfl := Option.some.inj hstep
        exact .dispatchThrows k raw _ _ _ _ htick
      · cases hstep
  | markSent k =>
      simp only [step] at hstep
      split at hstep
      · next htick =>
        obtain rfl := Option.some.inj hstep
        exact .markSent k _ _ _ _ _ htick
      · cases hstep
  | markSentFails k applied raw =>
      simp only [step] at hstep
      split at hstep
      · next htick =>
        obtain rfl := Option.some.inj hstep
        exact .markSentFails k applied raw _ _ _ _ _ htick
      · cases hstep
  | recordFailure k =>
      simp only [step] at hstep
      split at hstep
      · next htick =>
        obtain rfl := Option.some.inj hstep
        exact .recordFailure k _ _ _ _ _ htick
      · cases hstep
  | recordFailureFails k applied =>
      simp only [step] at hstep
      split at hstep
      · next htick =>
        obtain rfl := Option.some.inj hstep
        exact .recordFailureFails k applied _ _ _ _ _ htick
      · cases hstep
  | endOfLoop k =>
      simp only [step] at hstep
      split at hstep
      · next htick =>
        obtain rfl := Option.some.inj hstep
        exact .endOfLoop k _ htick
      · cases hstep
  | adminWrite a =>
      simp only [step] at hstep
      split at hstep
      · next hadmin =>
        obtain rfl := Option.some.inj hstep
        exact .adminWrite a _ _ hadmin
      · cases hstep

end Outbox

end EmailOutbox
end NestBase
