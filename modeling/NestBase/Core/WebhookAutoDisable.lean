import NestBase.Core.WebhookDispatcher

/-!
# Disabling a failing endpoint

Any number of dispatches run at once.  When as many deliveries to an endpoint
have failed in a row as the threshold says, the endpoint should be disabled,
or its stored count should at least be their number.

A call writes the count it read, plus one.  A failure that completes between
the read and the write is overwritten.  As long as no failing call finds a
count above the one it read (`noLostFailure`), the endpoint is disabled in
time.
-/

namespace NestBase
namespace Webhooks

open Lib

/-! ## Interleaved dispatches -/

structure DispatchWorld where
  stores : Stores
  runs : Nat → Option Run

inductive DispatchEvent where
  /-- `dispatch(input)` is called. -/
  | call (k : Nat) (input : DispatchInput)
  | run (k : Nat) (e : RunEvent)

namespace DispatchWorld

def setRun (w : DispatchWorld) (k : Nat) (run : Run) : DispatchWorld :=
  { w with runs := Function.update w.runs k (some run) }

end DispatchWorld

def dispatchStep (env : DispatchEnv) (w : DispatchWorld) :
    DispatchEvent → Option DispatchWorld
  | .call k input =>
      match w.runs k with
      | none => some (w.setRun k (startRun env input))
      | some _ => none
  | .run k e =>
      match w.runs k with
      | none => none
      | some run =>
          (stepRun env w.stores run e).map fun next =>
            { w with stores := next.1 }.setRun k next.2

/-- No call has started, and the endpoints have any counts. -/
def initialDispatchWorld (endpoints : List WebhookEndpoint) : DispatchWorld where
  stores := { endpoints := endpoints, deliveries := [], completions := [] }
  runs := fun _ => none

/-! ## Consecutive failures -/

/-- The deliveries to the endpoint that failed since its last success. -/
def failuresSince (id : String) (completions : List Completion) : Nat :=
  ((completions.filter fun completion => completion.endpointId = id).takeWhile fun completion =>
    !completion.delivered).length

/-- An endpoint with as many failures in a row as the threshold is disabled or counted exactly. -/
def AutoDisables (env : DispatchEnv) (w : DispatchWorld) : Prop :=
  ∀ row ∈ w.stores.endpoints,
    env.retry.autoDisableAfter ≤ (failuresSince row.id w.stores.completions : Int) →
      row.status = .DISABLED ∨
        row.consecutiveFailures = failuresSince row.id w.stores.completions

/-- A failing call that writes its count finds no count above the one it read. -/
def noLostFailure (w : DispatchWorld) : DispatchEvent → Bool
  | .run k .setFailureCount =>
      match w.runs k with
      | some (.counting _ endpoint false _) =>
          w.stores.endpoints.all fun row =>
            decide (row.id = endpoint.id → row.consecutiveFailures ≤ endpoint.consecutiveFailures)
      | _ => true
  | _ => true

/-- `noLostFailure` as a guard. -/
def NoLostFailure (w : DispatchWorld) (e : DispatchEvent) : Prop :=
  noLostFailure w e = true

theorem failuresSince_cons_of_ne
    {id : String} {completion : Completion} {completions : List Completion}
    (hne : completion.endpointId ≠ id) :
    failuresSince id (completion :: completions) = failuresSince id completions := by
  simp [failuresSince, hne]

theorem failuresSince_cons_delivered (id : String) (completions : List Completion) :
    failuresSince id ({ endpointId := id, delivered := true } :: completions) = 0 := by
  simp [failuresSince]

theorem failuresSince_cons_failed (id : String) (completions : List Completion) :
    failuresSince id ({ endpointId := id, delivered := false } :: completions) =
      failuresSince id completions + 1 := by
  simp [failuresSince]

/-! ## The invariant -/

/-- The row does not count less than the failures, and these are below the threshold. -/
def Counted (threshold : Int) (completions : List Completion) (row : WebhookEndpoint) : Prop :=
  row.status = .ACTIVE →
    failuresSince row.id completions ≤ row.consecutiveFailures ∧
      (failuresSince row.id completions : Int) < threshold

def AllCounted (threshold : Int) (s : Stores) : Prop :=
  ∀ row ∈ s.endpoints, Counted threshold s.completions row

section Writes

variable {threshold : Int}
variable {s : Stores}

/-- A write to one endpoint with its completion, when the written rows stay counted. -/
theorem AllCounted.write
    {id : String} {change : WebhookEndpoint → WebhookEndpoint} {completions : List Completion}
    (h : AllCounted threshold s)
    (hothers :
      ∀ other, other ≠ id →
        failuresSince other completions = failuresSince other s.completions)
    (hwritten :
      ∀ row ∈ s.endpoints, row.id = id → Counted threshold completions (change row)) :
    AllCounted threshold
      { s with
        endpoints := updateMany (fun row => decide (row.id = id)) change s.endpoints
        completions := completions } := by
  intro row hrow
  obtain ⟨old, hold, ⟨hmatch, rfl⟩ | ⟨hmatch, rfl⟩⟩ := exists_of_mem_updateMany hrow
  · exact hwritten old hold (by simpa using hmatch)
  · intro hactive
    rw [hothers row.id (by simpa using hmatch)]
    exact h row hold hactive

theorem failuresSince_complete_of_ne {id other : String} {delivered : Bool} (hne : other ≠ id) :
    failuresSince other (s.complete id delivered).completions =
      failuresSince other s.completions :=
  failuresSince_cons_of_ne hne.symm

/-- A successful delivery resets the count with the failures. -/
theorem AllCounted.delivered
    (h : AllCounted threshold s)
    (hthreshold : 0 < threshold)
    (id : String) :
    AllCounted threshold ((s.setFailureCount id 0).complete id true) := by
  refine h.write (fun other hne => failuresSince_complete_of_ne hne) ?_
  rintro row - rfl _
  rw [failuresSince_cons_delivered]
  exact ⟨Nat.le_refl _, hthreshold⟩

/-- A failing delivery below the threshold counts on from a count that was not passed. -/
theorem AllCounted.failed
    {id : String} {count : Nat}
    (h : AllCounted threshold s)
    (hbelow : ((count + 1 : Nat) : Int) < threshold)
    (hkept : ∀ row ∈ s.endpoints, row.id = id → row.consecutiveFailures ≤ count) :
    AllCounted threshold ((s.setFailureCount id (count + 1)).complete id false) := by
  refine h.write (fun other hne => failuresSince_complete_of_ne hne) ?_
  rintro row hrow rfl hactive
  have hcount := hkept row hrow rfl
  obtain ⟨hle, -⟩ := h row hrow hactive
  rw [failuresSince_cons_failed]
  constructor
  · change failuresSince row.id s.completions + 1 ≤ count + 1
    omega
  · change ((failuresSince row.id s.completions + 1 : Nat) : Int) < threshold
    omega

/-- The same write before the endpoint is disabled. -/
theorem AllCounted.failing
    {id : String} {count : Nat}
    (h : AllCounted threshold s)
    (hkept : ∀ row ∈ s.endpoints, row.id = id → row.consecutiveFailures ≤ count) :
    AllCounted threshold (s.setFailureCount id (count + 1)) := by
  refine h.write (fun _ _ => rfl) ?_
  rintro row hrow rfl hactive
  have hcount := hkept row hrow rfl
  obtain ⟨hle, hbelow⟩ := h row hrow hactive
  refine ⟨?_, hbelow⟩
  change failuresSince row.id s.completions ≤ count + 1
  omega

/-- A disabled endpoint needs no count. -/
theorem AllCounted.disabled (h : AllCounted threshold s) (id : String) :
    AllCounted threshold ((s.disable id).complete id false) := by
  refine h.write (fun other hne => failuresSince_complete_of_ne hne) ?_
  rintro row - rfl hactive
  cases hactive

end Writes

section Runs

variable {env : DispatchEnv}

/-- The guard at the write of a failing call. -/
theorem kept_of_noLostFailure
    {w : DispatchWorld} {k : Nat} {input : DispatchInput} {endpoint : WebhookEndpoint}
    {statusCode : Option Nat}
    (hguard : NoLostFailure w (.run k .setFailureCount))
    (hrun : w.runs k = some (.counting input endpoint false statusCode)) :
    ∀ row ∈ w.stores.endpoints, row.id = endpoint.id →
      row.consecutiveFailures ≤ endpoint.consecutiveFailures := by
  simp only [NoLostFailure, noLostFailure, hrun] at hguard
  intro row hrow hid
  have hrow' := List.all_eq_true.mp hguard row hrow
  exact of_decide_eq_true hrow' hid

/-- One event of one call keeps every endpoint counted. -/
theorem allCounted_stepRun
    {s s' : Stores} {run run' : Run} {e : RunEvent}
    (h : AllCounted env.retry.autoDisableAfter s)
    (hthreshold : 0 < env.retry.autoDisableAfter)
    (hkept :
      e = .setFailureCount → ∀ input endpoint statusCode,
        run = .counting input endpoint false statusCode →
          ∀ row ∈ s.endpoints, row.id = endpoint.id →
            row.consecutiveFailures ≤ endpoint.consecutiveFailures)
    (hstep : stepRun env s run e = some (s', run')) :
    AllCounted env.retry.autoDisableAfter s' := by
  cases runStep_of_stepRun hstep with
  | finds input => exact h
  | posts input endpoint response => exact h
  | resets input endpoint statusCode => exact h.delivered hthreshold endpoint.id
  | counts input endpoint statusCode hbelow =>
      have hcount :
          ((endpoint.consecutiveFailures + 1 : Nat) : Int) < env.retry.autoDisableAfter := by
        simpa [disablesNext, shouldAutoDisable, nextFailures] using hbelow
      exact h.failed hcount (hkept rfl input endpoint statusCode rfl)
  | countsLast input endpoint statusCode hdisables =>
      exact h.failing (hkept rfl input endpoint statusCode rfl)
  | disables input endpoint statusCode => exact h.disabled endpoint.id
  | records delivery => exact h
  | rejects => exact h

theorem allCounted_dispatchStep
    {w w' : DispatchWorld} {e : DispatchEvent}
    (h : AllCounted env.retry.autoDisableAfter w.stores)
    (hthreshold : 0 < env.retry.autoDisableAfter)
    (hguard : NoLostFailure w e)
    (hstep : dispatchStep env w e = some w') :
    AllCounted env.retry.autoDisableAfter w'.stores := by
  cases e with
  | call k input =>
      simp only [dispatchStep] at hstep
      split at hstep
      · cases hstep
        exact h
      · cases hstep
  | run k e =>
      simp only [dispatchStep] at hstep
      split at hstep
      · cases hstep
      · next run hrun =>
          obtain ⟨⟨s', run'⟩, hnext, rfl⟩ := Option.map_eq_some_iff.mp hstep
          refine allCounted_stepRun h hthreshold ?_ hnext
          rintro rfl input endpoint statusCode rfl
          exact kept_of_noLostFailure hguard hrun

/-- Endpoints are disabled in time when no failing call overwrites a count it has not read. -/
theorem autoDisables_of_noLostFailure
    (env : DispatchEnv)
    (hthreshold : 1 ≤ env.retry.autoDisableAfter)
    (endpoints : List WebhookEndpoint)
    (w : DispatchWorld)
    (hrun : Reaches (dispatchStep env) NoLostFailure (initialDispatchWorld endpoints) w) :
    AutoDisables env w := by
  have hfirst :
      AllCounted env.retry.autoDisableAfter (initialDispatchWorld endpoints).stores := by
    intro row _ _
    exact ⟨Nat.zero_le _, hthreshold⟩
  have hcounted : AllCounted env.retry.autoDisableAfter w.stores :=
    hrun.invariant (I := fun t => AllCounted env.retry.autoDisableAfter t.stores) hfirst
      fun _ _ _ h hguard hstep => allCounted_dispatchStep h hthreshold hguard hstep
  intro row hrow hmany
  cases hstatus : row.status with
  | DISABLED => exact Or.inl rfl
  | ACTIVE =>
      obtain ⟨-, hbelow⟩ := hcounted row hrow hstatus
      omega

end Runs

/-! ## Five failures -/

/-- No declared events, every URL accepted, the default retry policy. -/
def defaultEnv : DispatchEnv where
  registered := []
  validUrl := fun _ => true
  retry := WEBHOOK_RETRY_DEFAULTS

def freshEndpoint : WebhookEndpoint where
  id := "ep1"
  tenantId := "acme"
  url := "https://example.com/hook"
  secret := "s"
  events := ["*"]
  status := .ACTIVE
  consecutiveFailures := 0

/-- The `k`-th delivery to the endpoint. -/
def deliveryInput (k : Nat) : DispatchInput where
  endpointId := "ep1"
  eventId := toString k
  eventType := "order.placed"
  body := ""

/-- A call up to its failed post. -/
def failedPost (k : Nat) : List DispatchEvent :=
  [.call k (deliveryInput k), .run k .findById, .run k (.post none)]

/-- Five failing deliveries one after the other. -/
def failuresInTurn : List DispatchEvent :=
  ((List.range 4).flatMap fun k =>
    failedPost k ++ [.run k .setFailureCount, .run k .record]) ++
    failedPost 4 ++ [.run 4 .setFailureCount, .run 4 .disable]

/-- Five deliveries in turn disable the endpoint. -/
theorem autoDisables_failuresInTurn :
    ∃ w,
      (Reaches (dispatchStep defaultEnv) NoLostFailure (initialDispatchWorld [freshEndpoint]) w ∧
        failuresSince "ep1" w.stores.completions = 5) ∧
        AutoDisables defaultEnv w := by
  obtain ⟨w, hevents, hmany⟩ :
      ∃ w,
        runEvents (checked noLostFailure (dispatchStep defaultEnv))
            (initialDispatchWorld [freshEndpoint]) failuresInTurn = some w ∧
          failuresSince "ep1" w.stores.completions = 5 :=
    ⟨_, rfl, rfl⟩
  have hrun :
      Reaches (dispatchStep defaultEnv) NoLostFailure (initialDispatchWorld [freshEndpoint]) w :=
    reaches_of_runEvents_checked (fun _ _ hcheck => hcheck) hevents
  exact ⟨w, ⟨hrun, hmany⟩,
    autoDisables_of_noLostFailure defaultEnv (by decide) [freshEndpoint] w hrun⟩

/-- Five failing deliveries that all read the endpoint before one of them writes. -/
def failuresAtOnce : List DispatchEvent :=
  ((List.range 5).flatMap failedPost) ++ (List.range 5).map fun k => .run k .setFailureCount

/-- Five deliveries at once leave the endpoint active with a count of one. -/
theorem not_autoDisables_failuresAtOnce :
    ¬ ∀ w, Reaches (dispatchStep defaultEnv) anyEvent (initialDispatchWorld [freshEndpoint]) w →
      AutoDisables defaultEnv w := by
  intro hdisables
  obtain ⟨w, hevents, hrows, hmany⟩ :
      ∃ w,
        runEvents (dispatchStep defaultEnv) (initialDispatchWorld [freshEndpoint])
            failuresAtOnce = some w ∧
          w.stores.endpoints = [{ freshEndpoint with consecutiveFailures := 1 }] ∧
            failuresSince "ep1" w.stores.completions = 5 :=
    ⟨_, rfl, rfl, rfl⟩
  have hrow : { freshEndpoint with consecutiveFailures := 1 } ∈ w.stores.endpoints := by
    rw [hrows]
    exact List.mem_singleton_self _
  have hthreshold :
      defaultEnv.retry.autoDisableAfter ≤ (failuresSince "ep1" w.stores.completions : Int) := by
    rw [hmany]
    decide
  rcases hdisables w (reaches_of_runEvents hevents) _ hrow hthreshold with hoff | hcount
  · cases hoff
  · have hone : 1 = failuresSince "ep1" w.stores.completions := hcount
    omega

end Webhooks
end NestBase
