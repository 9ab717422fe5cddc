import NestBase.Lib.Json
import NestBase.Core.Outbox
import NestBase.Core.WebhookDispatcher

/-!
# Webhooks from the outbox

`WebhookOutboxDispatcher` is the dispatcher of the outbox worker: for the
entry of a tick it reads the active endpoints of the tenant that subscribe to
its type, and calls the webhook dispatcher for one after the other.  What a
call throws is logged, and the loop goes on.

`step` joins the ticks of the worker, the fanouts they wait for and the calls
these make.  The result a tick receives is the one its fanout ended with.
-/

namespace NestBase
namespace WebhookOutbox

open Lib
open Webhooks

section WebhookOutbox

variable {Payload : Type}

/-! ## Subscribers -/

/-- One pattern of a subscription: `*`, the type itself, or `<group>.*`. -/
def matchesPattern (type pattern : String) : Bool :=
  pattern == "*" || pattern == type ||
    (Text.endsWith pattern ".*" &&
      (type == Text.dropLast (Text.dropLast pattern) ||
        Text.startsWith type (Text.dropLast (Text.dropLast pattern) ++ ".")))

def matchesEvent (patterns : List String) (type : String) : Bool :=
  patterns.any (matchesPattern type)

/-- `WHERE tenant_id = tenantId AND status = 'ACTIVE'`, filtered by the patterns. -/
def findActiveSubscribers (tenantId type : String) (s : Stores) : List String :=
  (s.endpoints.filter fun row =>
    decide (row.tenantId = tenantId ∧ row.status = .ACTIVE) &&
      matchesEvent row.events type).map WebhookEndpoint.id

/-! ## One fanout -/

structure Config (Payload : Type) where
  options : Outbox.OutboxWorkerOptions
  /-- The names declared via `@WebhookEvent`. -/
  registered : List String
  validUrl : String → Bool
  toISOString : Int → String
  /-- `JSON.stringify` of a payload. -/
  payloadText : Payload → String

/-- The webhook dispatcher is built without a retry policy of its own. -/
def Config.env (config : Config Payload) : DispatchEnv where
  registered := config.registered
  validUrl := config.validUrl
  retry := WEBHOOK_RETRY_DEFAULTS

def body (config : Config Payload) (entry : Outbox.OutboxEntry Payload) : String :=
  "\x7b\"id\":" ++ Json.quote entry.id ++
    ",\"type\":" ++ Json.quote entry.type ++
      ",\"occurredAt\":" ++ Json.quote (config.toISOString entry.occurredAt) ++
        ",\"payload\":" ++ config.payloadText entry.payload ++ "\x7d"

def dispatchInput (config : Config Payload) (entry : Outbox.OutboxEntry Payload)
    (endpointId : String) : DispatchInput where
  endpointId := endpointId
  eventId := entry.id
  eventType := entry.type
  body := body config entry

/-- Where a call of `WebhookOutboxDispatcher.dispatch` is. -/
inductive Fanout where
  | idle
  /-- The loop over the matched endpoints waits for a call; `todo` comes after it. -/
  | sending (matched todo : List String) (run : Run)
  | returned (matched : List String)
  | rejected

/-- The loop before the endpoints of `todo`. -/
def Fanout.forward (config : Config Payload) (entry : Outbox.OutboxEntry Payload)
    (matched : List String) : List String → Fanout
  | [] => .returned matched
  | endpointId :: todo =>
      .sending matched todo (startRun config.env (dispatchInput config entry endpointId))

/-- The call has returned or thrown. -/
def ended : Run → Bool
  | .returned => true
  | .threw _ => true
  | _ => false

/-! ## The composition -/

/-- An entry that became processed, with the endpoints that matched at its dispatch. -/
structure Settled where
  entryId : String
  matched : List String
deriving DecidableEq, Repr

/-- A post without a 2xx answer. -/
structure FailedPost where
  entryId : String
  endpointId : String
deriving DecidableEq, Repr

/-- `settled` and `failedPosts` are histories that no event reads. -/
structure World (Payload : Type) where
  outbox : Outbox.World Payload
  stores : Stores
  fanouts : Nat → Fanout
  settled : List Settled
  failedPosts : List FailedPost

/-- An empty outbox over any endpoints. -/
def initialWorld (endpoints : List WebhookEndpoint) : World Payload where
  outbox := Outbox.initialWorld
  stores := { endpoints := endpoints, deliveries := [], completions := [] }
  fanouts := fun _ => .idle
  settled := []
  failedPosts := []

/-- The numbers are those of the ticks. -/
inductive Event (Payload : Type) where
  | outbox (e : Outbox.Event Payload)
  /-- The matched endpoints are read. -/
  | subscribers (k : Nat)
  | subscribersFail (k : Nat)
  | run (k : Nat) (e : RunEvent)
  /-- A call has ended, and the loop goes on. -/
  | next (k : Nat)

/-- A tick receives the result of its fanout. -/
def World.answers (w : World Payload) : Outbox.Event Payload → Bool
  | .dispatched k results _ =>
      match w.fanouts k with
      | .returned _ => decide (results = [true])
      | .rejected => decide (results = [false])
      | _ => false
  | _ => true

/-- The tick is done with its entry. -/
def finishes (k : Nat) : Outbox.Event Payload → Bool
  | .dispatched j results _ => decide (j = k) && !(results.all fun ok => ok)
  | .markProcessed j => decide (j = k)
  | .markProcessedFails j _ => decide (j = k)
  | _ => false

/-- A tick marks its entry after a fanout; a dead letter has none. -/
def World.settledByTick (w : World Payload) (k : Nat) : List Settled :=
  match w.outbox.ticks k, w.fanouts k with
  | .marking entry _ _ _ _, .returned matched => [{ entryId := entry.id, matched := matched }]
  | _, _ => []

def World.settledBy (w : World Payload) : Outbox.Event Payload → List Settled
  | .markProcessed k => w.settledByTick k
  | .markProcessedFails k true => w.settledByTick k
  | _ => []

def failedBy : Run → RunEvent → List FailedPost
  | .posting input endpoint, .post response =>
      if response.any HttpResponse.ok then []
      else [{ entryId := input.eventId, endpointId := endpoint.id }]
  | _, _ => []

def World.setFanout (w : World Payload) (k : Nat) (fanout : Fanout) : World Payload :=
  { w with fanouts := Function.update w.fanouts k fanout }

/-- One event; `none` when the party is not at that place. -/
def step (config : Config Payload) (w : World Payload) : Event Payload → Option (World Payload)
  | .outbox e =>
      if w.answers e then
        (Outbox.step config.options w.outbox e).map fun outbox =>
          { w with
            outbox := outbox
            fanouts := fun k => if finishes k e then .idle else w.fanouts k
            settled := w.settledBy e ++ w.settled }
      else none
  | .subscribers k =>
      match w.outbox.ticks k, w.fanouts k with
      | .dispatching entry _ _ _, .idle =>
          let matched := findActiveSubscribers entry.tenantId entry.type w.stores
          some (w.setFanout k (Fanout.forward config entry matched matched))
      | _, _ => none
  | .subscribersFail k =>
      match w.outbox.ticks k, w.fanouts k with
      | .dispatching _ _ _ _, .idle => some (w.setFanout k .rejected)
      | _, _ => none
  | .run k e =>
      match w.fanouts k with
      | .sending matched todo run =>
          (stepRun config.env w.stores run e).map fun next =>
            { w with
              stores := next.1
              failedPosts := failedBy run e ++ w.failedPosts }.setFanout k
                (.sending matched todo next.2)
      | _ => none
  | .next k =>
      match w.outbox.ticks k, w.fanouts k with
      | .dispatching entry _ _ _, .sending matched todo run =>
          if ended run then some (w.setFanout k (Fanout.forward config entry matched todo))
          else none
      | _, _ => none

end WebhookOutbox

end WebhookOutbox
end NestBase
