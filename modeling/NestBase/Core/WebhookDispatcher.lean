import NestBase.Lib.Table
import NestBase.Lib.Text
import NestBase.Lib.Transition
import Mathlib.Tactic

/-!
# Dispatching a webhook

`WebhookDispatcher.dispatch` reads the endpoint, posts the body and writes
what came of it: the failure count, at the threshold the status, and a
delivery record.  `stepRun` is one call cut at its awaits; every statement and
the post take effect at one event.  The failure count that is written is
computed from the row that was read at the start.

The test of a URL is the parameter `validUrl`.  What is posted is the
`deliveryRequest` of the signatures; its content decides nothing here.
-/

namespace NestBase
namespace Webhooks

open Lib

/-! ## Retry policy -/

structure RetryConfig where
  initialDelayMs : Int
  factor : Int
  maxDelayMs : Int
  autoDisableAfter : Int

def WEBHOOK_RETRY_DEFAULTS : RetryConfig where
  initialDelayMs := 60000
  factor := 5
  maxDelayMs := 2 * 60 * 60 * 1000
  autoDisableAfter := 5

def shouldAutoDisable (consecutiveFailures : Nat) (config : RetryConfig) : Bool :=
  decide (config.autoDisableAfter ≤ (consecutiveFailures : Int))

/-! ## Stores -/

inductive EndpointStatus where
  | ACTIVE
  | DISABLED
deriving DecidableEq, Repr

inductive DeliveryStatus where
  | DELIVERED
  | FAILED
deriving DecidableEq, Repr

/-- A row of `webhook_endpoints`. -/
structure WebhookEndpoint where
  id : String
  tenantId : String
  url : String
  secret : String
  events : List String
  status : EndpointStatus
  consecutiveFailures : Nat

structure DeliveryRecord where
  endpointId : String
  eventId : String
  status : DeliveryStatus
  statusCode : Option Nat
  attemptCount : Nat

/-- A delivery that has made its last write to its endpoint. -/
structure Completion where
  endpointId : String
  delivered : Bool

/-- The two tables, and the history of completed deliveries, newest first, that no event reads. -/
structure Stores where
  endpoints : List WebhookEndpoint
  deliveries : List DeliveryRecord
  completions : List Completion

namespace Stores

/-- `UPDATE webhook_endpoints SET consecutive_failures = count WHERE id = id` -/
def setFailureCount (s : Stores) (id : String) (count : Nat) : Stores :=
  { s with
    endpoints :=
      updateMany (fun row => decide (row.id = id))
        (fun row => { row with consecutiveFailures := count }) s.endpoints }

/-- `UPDATE webhook_endpoints SET status = 'DISABLED' WHERE id = id` -/
def disable (s : Stores) (id : String) : Stores :=
  { s with
    endpoints :=
      updateMany (fun row => decide (row.id = id))
        (fun row => { row with status := .DISABLED }) s.endpoints }

def record (s : Stores) (delivery : DeliveryRecord) : Stores :=
  { s with deliveries := s.deliveries ++ [delivery] }

/-- The delivery to the endpoint is complete. -/
def complete (s : Stores) (endpointId : String) (delivered : Bool) : Stores :=
  { s with completions := { endpointId := endpointId, delivered := delivered } :: s.completions }

end Stores

/-! ## One call of `dispatch` -/

structure DispatchInput where
  endpointId : String
  eventId : String
  eventType : String
  body : String

structure HttpResponse where
  ok : Bool
  status : Nat

/-- The errors `dispatch` throws; a rejected statement is one of them. -/
inductive DispatchError where
  | eventTypeNotRegistered (eventType : String) (availableTypes : List String)
  | endpointNotFound (id : String)
  | store

def DispatchError.message : DispatchError → Option String
  | eventTypeNotRegistered eventType availableTypes =>
      some ("webhook dispatcher: eventType \"" ++ eventType ++
        "\" is not declared via @WebhookEvent (declared: " ++
        (if availableTypes = [] then "<none>" else ", ".intercalate availableTypes) ++ ")")
  | endpointNotFound id => some ("webhook endpoint not found: " ++ id)
  | store => none

/-- What the calls of a process share. -/
structure DispatchEnv where
  /-- The names declared via `@WebhookEvent`. -/
  registered : List String
  /-- `validateWebhookUrl` accepts the URL. -/
  validUrl : String → Bool
  retry : RetryConfig

/-- Where a call of `dispatch` is. -/
inductive Run where
  /-- `findById` is under way. -/
  | finding (input : DispatchInput)
  | posting (input : DispatchInput) (endpoint : WebhookEndpoint)
  /-- `setFailureCount` is next. -/
  | counting
      (input : DispatchInput)
      (endpoint : WebhookEndpoint)
      (delivered : Bool)
      (statusCode : Option Nat)
  | disabling (input : DispatchInput) (endpoint : WebhookEndpoint) (statusCode : Option Nat)
  | recording (delivery : DeliveryRecord)
  | returned
  | threw (error : DispatchError)

/-- The call before its first statement. -/
def startRun (env : DispatchEnv) (input : DispatchInput) : Run :=
  if env.registered ≠ [] ∧ input.eventType ∉ env.registered then
    .threw (.eventTypeNotRegistered input.eventType env.registered)
  else .finding input

/-- A URL that is refused counts as a failed delivery without a response. -/
def afterFind (env : DispatchEnv) (input : DispatchInput) : Option WebhookEndpoint → Run
  | none => .threw (.endpointNotFound input.endpointId)
  | some endpoint =>
      if endpoint.status = .DISABLED then .returned
      else if env.validUrl endpoint.url then .posting input endpoint
      else .counting input endpoint false none

/-- No response means a network error. -/
def afterPost (input : DispatchInput) (endpoint : WebhookEndpoint)
    (response : Option HttpResponse) : Run :=
  .counting input endpoint (response.any HttpResponse.ok) (response.map HttpResponse.status)

/-- The count that is written, from the row read at the start. -/
def nextFailures (endpoint : WebhookEndpoint) (delivered : Bool) : Nat :=
  if delivered then 0 else endpoint.consecutiveFailures + 1

def deliveryRecord (input : DispatchInput) (endpoint : WebhookEndpoint) (delivered : Bool)
    (statusCode : Option Nat) : DeliveryRecord where
  endpointId := endpoint.id
  eventId := input.eventId
  status := if delivered then .DELIVERED else .FAILED
  statusCode := statusCode
  attemptCount := 1

/-- The count reaches the threshold, and the endpoint is disabled next. -/
def disablesNext (env : DispatchEnv) (endpoint : WebhookEndpoint) (delivered : Bool) : Bool :=
  !delivered && shouldAutoDisable (nextFailures endpoint delivered) env.retry

inductive RunEvent where
  | findById
  | post (response : Option HttpResponse)
  | setFailureCount
  | disable
  | record
  /-- The statement under way rejects and has no effect. -/
  | rejects

/-- One event of a call; `none` when the call is not at that place. -/
def stepRun (env : DispatchEnv) (s : Stores) : Run → RunEvent → Option (Stores × Run)
  | .finding input, .findById =>
      some (s, afterFind env input (findRow WebhookEndpoint.id input.endpointId s.endpoints))
  | .finding _, .rejects => some (s, .threw .store)
  | .posting input endpoint, .post response => some (s, afterPost input endpoint response)
  | .counting input endpoint delivered statusCode, .setFailureCount =>
      let s' := s.setFailureCount endpoint.id (nextFailures endpoint delivered)
      if disablesNext env endpoint delivered then
        some (s', .disabling input endpoint statusCode)
      else
        some (s'.complete endpoint.id delivered,
          .recording (deliveryRecord input endpoint delivered statusCode))
  | .counting _ _ _ _, .rejects => some (s, .threw .store)
  | .disabling input endpoint statusCode, .disable =>
      some ((s.disable endpoint.id).complete endpoint.id false,
        .recording (deliveryRecord input endpoint false statusCode))
  | .disabling _ _ _, .rejects => some (s, .threw .store)
  | .recording delivery, .record => some (s.record delivery, .returned)
  | .recording _, .rejects => some (s, .threw .store)
  | _, _ => none

/-! ## What an event does -/

/-- What an event of a call may do, one constructor for each branch. -/
inductive RunStep (env : DispatchEnv) (s : Stores) : Run → RunEvent → Stores → Run → Prop
  | finds (input : DispatchInput) :
      RunStep env s (.finding input) .findById s
        (afterFind env input (findRow WebhookEndpoint.id input.endpointId s.endpoints))
  | posts (input : DispatchInput) (endpoint : WebhookEndpoint) (response : Option HttpResponse) :
      RunStep env s (.posting input endpoint) (.post response) s
        (afterPost input endpoint response)
  | resets (input : DispatchInput) (endpoint : WebhookEndpoint) (statusCode : Option Nat) :
      RunStep env s (.counting input endpoint true statusCode) .setFailureCount
        ((s.setFailureCount endpoint.id 0).complete endpoint.id true)
        (.recording (deliveryRecord input endpoint true statusCode))
  | counts (input : DispatchInput) (endpoint : WebhookEndpoint) (statusCode : Option Nat) :
      disablesNext env endpoint false = false →
      RunStep env s (.counting input endpoint false statusCode) .setFailureCount
        ((s.setFailureCount endpoint.id (endpoint.consecutiveFailures + 1)).complete endpoint.id
          false)
        (.recording (deliveryRecord input endpoint false statusCode))
  | countsLast (input : DispatchInput) (endpoint : WebhookEndpoint) (statusCode : Option Nat) :
      disablesNext env endpoint false = true →
      RunStep env s (.counting input endpoint false statusCode) .setFailureCount
        (s.setFailureCount endpoint.id (endpoint.consecutiveFailures + 1))
        (.disabling input endpoint statusCode)
  | disables (input : DispatchInput) (endpoint : WebhookEndpoint) (statusCode : Option Nat) :
      RunStep env s (.disabling input endpoint statusCode) .disable
        ((s.disable endpoint.id).complete endpoint.id false)
        (.recording (deliveryRecord input endpoint false statusCode))
  | records (delivery : DeliveryRecord) :
      RunStep env s (.recording delivery) .record (s.record delivery) .returned
  | rejects (run : Run) :
      RunStep env s run .rejects s (.threw .store)

theorem runStep_of_stepRun
    {env : DispatchEnv} {s s' : Stores} {run run' : Run} {e : RunEvent}
    (hstep : stepRun env s run e = some (s', run')) :
    RunStep env s run e s' run' := by
  unfold stepRun at hstep
  split at hstep
  · cases hstep
    exact .finds _
  · cases hstep
    exact .rejects _
  · cases hstep
    exact .posts _ _ _
  · next input endpoint delivered statusCode =>
      cases delivered with
      | true =>
          cases hstep
          exact .resets input endpoint statusCode
      | false =>
          cases hdisables : disablesNext env endpoint false with
          | true =>
              simp only [hdisables, if_true] at hstep
              cases hstep
              exact .countsLast input endpoint statusCode hdisables
          | false =>
              simp only [hdisables, Bool.false_eq_true, if_false] at hstep
              cases hstep
              exact .counts input endpoint statusCode hdisables
  · cases hstep
    exact .rejects _
  · cases hstep
    exact .disables _ _ _
  · cases hstep
    exact .rejects _
  · cases hstep
    exact .records _
  · cases hstep
    exact .rejects _
  · cases hstep

end Webhooks
end NestBase
