import NestBase.Core.OutboxRetry
import NestBase.Core.WebhookAutoDisable
import NestBase.Core.WebhookOutbox

/-!
# Failed deliveries of an outbox entry

When an entry becomes processed, every endpoint that matched it should have a
delivered record, unless it is no longer active, and an entry with a failed
post should be attempted again.

The webhook dispatcher returns normally from a failed post, and what it throws
is swallowed by the loop, so the entry becomes processed in either case.  What
remains true is that an endpoint is accounted for (`Handled`) when its call
has neither a failed post nor a lost write.
-/

namespace NestBase
namespace WebhookOutbox

open Lib
open Webhooks

section Delivery

variable {Payload : Type}

/-! ## What is required -/

/-- The endpoint is there and active. -/
def Active (s : Stores) (id : String) : Prop :=
  ∃ row, findRow WebhookEndpoint.id id s.endpoints = some row ∧ row.status = .ACTIVE

/-- There is a delivered record of the entry for the endpoint. -/
def Delivered (s : Stores) (entryId id : String) : Prop :=
  ∃ delivery ∈ s.deliveries,
    delivery.endpointId = id ∧ delivery.eventId = entryId ∧ delivery.status = .DELIVERED

/-- A tick holds the entry, or the next claims return it. -/
def AttemptedAgain (w : World Payload) (entryId : String) : Prop :=
  (∃ k, ∃ entry ∈ (w.outbox.ticks k).held, entry.id = entryId) ∨
    Outbox.Claimable entryId w.outbox.rows

/-- No event is dropped: neither at a processed entry nor after a failed post. -/
def NoEventDropped (w : World Payload) : Prop :=
  (∀ settled ∈ w.settled, ∀ id ∈ settled.matched,
    Active w.stores id → Delivered w.stores settled.entryId id) ∧
    ∀ failed ∈ w.failedPosts,
      Delivered w.stores failed.entryId failed.endpointId ∨ AttemptedAgain w failed.entryId

/-- The event neither fails a post nor ends a call without its delivery. -/
def deliversRun (env : DispatchEnv) (s : Stores) : Run → RunEvent → Bool
  | .finding input, .findById =>
      match findRow WebhookEndpoint.id input.endpointId s.endpoints with
      | none => true
      | some endpoint =>
          decide (endpoint.status = .DISABLED) || env.validUrl endpoint.url ||
            disablesNext env endpoint false
  | .posting _ _, .post response => response.any HttpResponse.ok
  | .recording delivery, .rejects => decide (delivery.status = .FAILED)
  | _, .rejects => false
  | _, _ => true

/-- The type is declared, or none is. -/
def declared (config : Config Payload) (type : String) : Bool :=
  config.registered.isEmpty || config.registered.contains type

def delivers (config : Config Payload) (w : World Payload) : Event Payload → Bool
  | .subscribers k =>
      match w.outbox.ticks k with
      | .dispatching entry _ _ _ =>
          declared config entry.type ||
            (findActiveSubscribers entry.tenantId entry.type w.stores).isEmpty
      | _ => true
  | .run k e =>
      match w.fanouts k with
      | .sending _ _ run => deliversRun config.env w.stores run e
      | _ => true
  | _ => true

/-- `delivers` as a guard. -/
def Delivers (config : Config Payload) (w : World Payload) (e : Event Payload) : Prop :=
  delivers config w e = true

/-! ## Endpoints that are accounted for -/

/-- The endpoint needs nothing more for the entry. -/
def Handled (s : Stores) (entryId id : String) : Prop :=
  Active s id → Delivered s entryId id

/-- Endpoints are only disabled, and delivered records stay. -/
structure Extends (s s' : Stores) : Prop where
  active : ∀ id, Active s' id → Active s id
  delivered : ∀ entryId id, Delivered s entryId id → Delivered s' entryId id

theorem Extends.refl (s : Stores) : Extends s s where
  active := fun _ h => h
  delivered := fun _ _ h => h

variable {s : Stores}

theorem Handled.extends
    {s' : Stores} {entryId id : String}
    (h : Handled s entryId id)
    (hext : Extends s s') :
    Handled s' entryId id := by
  intro hactive
  exact hext.delivered entryId id (h (hext.active id hactive))

/-- Writes to endpoints that do not activate them. -/
theorem extends_updateMany
    {matching : WebhookEndpoint → Bool}
    {change : WebhookEndpoint → WebhookEndpoint} {completions : List Completion}
    (hid : ∀ row, (change row).id = row.id)
    (hstatus : ∀ row, (change row).status = .ACTIVE → row.status = .ACTIVE) :
    Extends s
      { s with
        endpoints := updateMany matching change s.endpoints
        completions := completions } where
  active := by
    rintro id ⟨row', hfound, hactive⟩
    change findRow WebhookEndpoint.id id (updateMany matching change s.endpoints) = some row' at hfound
    rw [findRow_updateMany matching hid] at hfound
    obtain ⟨row, hrow, rfl⟩ := Option.map_eq_some_iff.mp hfound
    refine ⟨row, hrow, ?_⟩
    split at hactive
    · exact hstatus row hactive
    · exact hactive
  delivered := fun _ _ h => h

theorem extends_setFailureCount (s : Stores) (id : String) (count : Nat) :
    Extends s (s.setFailureCount id count) :=
  extends_updateMany (fun _ => rfl) fun _ h => h

theorem extends_complete (s : Stores) (id : String) (delivered : Bool) :
    Extends s (s.complete id delivered) where
  active := fun _ h => h
  delivered := fun _ _ h => h

theorem extends_disable (s : Stores) (id : String) : Extends s (s.disable id) := by
  refine extends_updateMany (fun _ => rfl) ?_
  intro row hactive
  cases hactive

theorem extends_record (s : Stores) (delivery : DeliveryRecord) :
    Extends s (s.record delivery) where
  active := fun _ h => h
  delivered := by
    rintro entryId id ⟨old, hold, hfor⟩
    exact ⟨old, List.mem_append_left _ hold, hfor⟩

theorem Extends.trans {t r : Stores} (hst : Extends s t) (htr : Extends t r) :
    Extends s r where
  active := fun id h => hst.active id (htr.active id h)
  delivered := fun entryId id h => htr.delivered entryId id (hst.delivered entryId id h)

/-- A disabled endpoint needs no delivery. -/
theorem not_active_disable (s : Stores) (id : String) : ¬ Active (s.disable id) id := by
  rintro ⟨row', hfound, hactive⟩
  have hkept :
      ∀ row : WebhookEndpoint, ({ row with status := .DISABLED } : WebhookEndpoint).id = row.id :=
    fun _ => rfl
  unfold Stores.disable at hfound
  rw [findRow_updateMany _ hkept] at hfound
  obtain ⟨row, hrow, rfl⟩ := Option.map_eq_some_iff.mp hfound
  have hid : row.id = id := key_of_findRow hrow
  simp [hid] at hactive

/-! ## One call -/

section Calls

variable {env : DispatchEnv}
variable {s s' : Stores}

/-- What a call for the endpoint has still to do keeps its promise. -/
def RunOk (env : DispatchEnv) (s : Stores) (entryId id : String) : Run → Prop
  | .finding input => input.endpointId = id ∧ input.eventId = entryId
  | .posting input endpoint => endpoint.id = id ∧ input.eventId = entryId
  | .counting input endpoint delivered _ =>
      endpoint.id = id ∧ input.eventId = entryId ∧
        (delivered = false → disablesNext env endpoint false = true)
  | .disabling _ endpoint _ => endpoint.id = id
  | .recording delivery =>
      (delivery.endpointId = id ∧ delivery.eventId = entryId ∧ delivery.status = .DELIVERED) ∨
        Handled s entryId id
  | .returned => Handled s entryId id
  | .threw _ => Handled s entryId id

variable {entryId : String}

theorem RunOk.extends
    {id : String} {run : Run}
    (h : RunOk env s entryId id run)
    (hext : Extends s s') :
    RunOk env s' entryId id run := by
  cases run with
  | finding input => exact h
  | posting input endpoint => exact h
  | counting input endpoint delivered statusCode => exact h
  | disabling input endpoint statusCode => exact h
  | recording delivery => exact h.imp_right fun hhandled => hhandled.extends hext
  | returned => exact Handled.extends h hext
  | threw error => exact Handled.extends h hext

theorem handled_of_ended
    {id : String} {run : Run}
    (h : RunOk env s entryId id run)
    (hended : ended run = true) :
    Handled s entryId id := by
  cases run with
  | returned => exact h
  | threw error => exact h
  | _ => cases hended

/-- Every event of a call only disables endpoints and adds records. -/
theorem extends_stepRun
    {run run' : Run} {e : RunEvent}
    (hstep : stepRun env s run e = some (s', run')) :
    Extends s s' := by
  cases runStep_of_stepRun hstep with
  | finds input => exact Extends.refl s
  | posts input endpoint response => exact Extends.refl s
  | resets input endpoint statusCode =>
      exact (extends_setFailureCount s endpoint.id 0).trans (extends_complete _ endpoint.id true)
  | counts input endpoint statusCode hbelow =>
      exact (extends_setFailureCount s endpoint.id _).trans (extends_complete _ endpoint.id false)
  | countsLast input endpoint statusCode hdisables => exact extends_setFailureCount s endpoint.id _
  | disables input endpoint statusCode =>
      exact (extends_disable s endpoint.id).trans (extends_complete _ endpoint.id false)
  | records delivery => exact extends_record s delivery
  | rejects => exact Extends.refl s

/-- A call that finds no row, a disabled row or a usable one goes on well. -/
theorem runOk_afterFind
    {input : DispatchInput}
    (hdelivers : deliversRun env s (.finding input) .findById = true) :
    RunOk env s input.eventId input.endpointId
      (afterFind env input (findRow WebhookEndpoint.id input.endpointId s.endpoints)) := by
  cases hfound : findRow WebhookEndpoint.id input.endpointId s.endpoints with
  | none =>
      rintro ⟨row, hrow, -⟩
      rw [hfound] at hrow
      cases hrow
  | some endpoint =>
      have hid : endpoint.id = input.endpointId := key_of_findRow hfound
      simp only [deliversRun, hfound, Bool.or_eq_true, decide_eq_true_eq] at hdelivers
      by_cases hoff : endpoint.status = .DISABLED
      · simp only [afterFind, if_pos hoff]
        rintro ⟨row, hrow, hactive⟩
        rw [hfound, Option.some.injEq] at hrow
        rw [← hrow, hoff] at hactive
        cases hactive
      · by_cases hvalid : env.validUrl endpoint.url = true
        · simp only [afterFind, if_neg hoff, if_pos hvalid]
          exact ⟨hid, rfl⟩
        · simp only [afterFind, if_neg hoff, if_neg hvalid]
          refine ⟨hid, rfl, ?_⟩
          intro _
          rcases hdelivers with (hdisabled | hurl) | hdisables
          · exact absurd hdisabled hoff
          · exact absurd hurl hvalid
          · exact hdisables

/-- One event of a call that delivers. -/
theorem runOk_stepRun
    {id : String} {run run' : Run} {e : RunEvent}
    (h : RunOk env s entryId id run)
    (hdelivers : deliversRun env s run e = true)
    (hstep : stepRun env s run e = some (s', run')) :
    RunOk env s' entryId id run' := by
  cases runStep_of_stepRun hstep with
  | finds input =>
      obtain ⟨rfl, rfl⟩ := h
      exact runOk_afterFind hdelivers
  | posts input endpoint response =>
      obtain ⟨hid, hentry⟩ := h
      refine ⟨hid, hentry, ?_⟩
      intro hfailed
      have hok : response.any HttpResponse.ok = true := hdelivers
      rw [hok] at hfailed
      cases hfailed
  | resets input endpoint statusCode =>
      obtain ⟨hid, hentry, -⟩ := h
      exact Or.inl ⟨hid, hentry, rfl⟩
  | counts input endpoint statusCode hbelow =>
      obtain ⟨-, -, hdisables⟩ := h
      rw [hdisables rfl] at hbelow
      cases hbelow
  | countsLast input endpoint statusCode hdisables => exact h.1
  | disables input endpoint statusCode =>
      have hid : endpoint.id = id := h
      subst hid
      exact Or.inr fun hactive => absurd hactive (not_active_disable s endpoint.id)
  | records delivery =>
      rcases h with hfor | hhandled
      · intro _
        exact ⟨delivery, List.mem_append_right _ (List.mem_singleton_self _), hfor⟩
      · exact hhandled.extends (extends_record s delivery)
  | rejects =>
      cases run with
      | recording delivery =>
          have hfailed : delivery.status = .FAILED := of_decide_eq_true hdelivers
          rcases h with ⟨-, -, hdelivered⟩ | hhandled
          · rw [hdelivered] at hfailed
            cases hfailed
          · exact hhandled
      | _ => cases hdelivers

/-- A declared type gets past the registry. -/
theorem runOk_startRun
    {config : Config Payload} {entry : Outbox.OutboxEntry Payload} {id : String}
    (hdeclared : declared config entry.type = true) :
    RunOk config.env s entry.id id (startRun config.env (dispatchInput config entry id)) := by
  have hpasses :
      ¬ (config.registered ≠ [] ∧ entry.type ∉ config.registered) := by
    rintro ⟨hsome, hmissing⟩
    simp only [declared, Bool.or_eq_true, List.isEmpty_iff, List.contains_iff_mem] at hdeclared
    rcases hdeclared with hnone | hmem
    · exact hsome hnone
    · exact hmissing hmem
  unfold startRun
  split
  · next hrefused => exact absurd hrefused hpasses
  · exact ⟨rfl, rfl⟩

end Calls

/-! ## Runs -/

section Runs

variable {config : Config Payload}
variable {w w' : World Payload}

/-- The entry a tick works on. -/
def current? : Outbox.Tick Payload → Option (Outbox.OutboxEntry Payload)
  | .dispatching entry _ _ _ => some entry
  | .marking entry _ _ _ _ => some entry
  | _ => none

variable {k : Nat}

theorem current?_setTick
    {outbox base : Outbox.World Payload} {j : Nat} {tick : Outbox.Tick Payload}
    {entry : Outbox.OutboxEntry Payload}
    (hcurrent : current? (outbox.ticks k) = some entry)
    (hticks : base.ticks = outbox.ticks)
    (hkeeps : j = k → current? tick = some entry) :
    current? ((base.setTick j tick).ticks k) = some entry := by
  by_cases hk : k = j
  · subst hk
    simp only [Outbox.World.setTick, Function.update_self]
    exact hkeeps rfl
  · simp only [Outbox.World.setTick, Function.update_of_ne hk, hticks]
    exact hcurrent

/-- A tick without an entry is none that keeps one. -/
theorem current?_other
    {outbox : Outbox.World Payload} {j : Nat} {tick tick' : Outbox.Tick Payload}
    {entry : Outbox.OutboxEntry Payload}
    (hcurrent : current? (outbox.ticks k) = some entry)
    (htick : outbox.ticks j = tick)
    (hnone : current? tick = none) :
    j = k → current? tick' = some entry := by
  rintro rfl
  rw [htick, hnone] at hcurrent
  cases hcurrent

variable {e : Outbox.Event Payload}

/-- A tick keeps its entry until it is done with it. -/
theorem current?_of_step
    {outbox outbox' : Outbox.World Payload} {entry : Outbox.OutboxEntry Payload}
    (hstep : Outbox.step config.options outbox e = some outbox')
    (hunfinished : finishes k e = false)
    (hcurrent : current? (outbox.ticks k) = some entry) :
    current? (outbox'.ticks k) = some entry := by
  cases Outbox.stepped_of_step hstep with
  | refused => exact hcurrent
  | recorded => exact hcurrent
  | inserted => exact hcurrent
  | taken => exact hcurrent
  | insertFails q other applied hq => cases applied <;> exact hcurrent
  | claimsNone j now hidle hnone =>
      exact current?_setTick hcurrent rfl (current?_other hcurrent hidle rfl)
  | claimsBatch j now hidle =>
      exact current?_setTick hcurrent rfl (current?_other hcurrent hidle rfl)
  | claimFails j applied now hidle =>
      cases applied <;> exact current?_setTick hcurrent rfl (current?_other hcurrent hidle rfl)
  | deadLetters j other todo at_ result result' htick =>
      exact current?_setTick hcurrent rfl (current?_other hcurrent htick rfl)
  | dispatches j other todo at_ result htick =>
      exact current?_setTick hcurrent rfl (current?_other hcurrent htick rfl)
  | incrementFails j other todo at_ result applied htick =>
      cases applied <;> exact current?_setTick hcurrent rfl (current?_other hcurrent htick rfl)
  | succeeds j other todo at_ result result' results now htick =>
      refine current?_setTick hcurrent rfl ?_
      rintro rfl
      rw [htick] at hcurrent
      exact hcurrent
  | fails j other todo at_ result results now htick hfailed =>
      refine current?_setTick hcurrent rfl ?_
      rintro rfl
      rw [finishes, decide_eq_true rfl, hfailed] at hunfinished
      cases hunfinished
  | marks j other processedAt todo at_ result htick =>
      refine current?_setTick hcurrent rfl ?_
      intro hj
      exact absurd hj (of_decide_eq_false hunfinished)
  | markFails j other processedAt todo at_ result applied htick =>
      have hj : j ≠ k := of_decide_eq_false hunfinished
      cases applied <;> exact current?_setTick hcurrent rfl fun heq => absurd heq hj
  | ends j at_ result htick =>
      exact current?_setTick hcurrent rfl (current?_other hcurrent htick rfl)

/-- The matched endpoints of a fanout are accounted for, under way or still to come. -/
def FanoutOk (config : Config Payload) (s : Stores)
    (current : Option (Outbox.OutboxEntry Payload)) : Fanout → Prop
  | .idle => True
  | .sending matched todo run =>
      ∃ entry, current = some entry ∧ declared config entry.type = true ∧
        ∃ id, RunOk config.env s entry.id id run ∧
          ∀ other ∈ matched, other = id ∨ other ∈ todo ∨ Handled s entry.id other
  | .returned matched =>
      ∃ entry, current = some entry ∧ ∀ other ∈ matched, Handled s entry.id other
  | .rejected => True

structure Accounted (config : Config Payload) (w : World Payload) : Prop where
  fanouts : ∀ k, FanoutOk config w.stores (current? (w.outbox.ticks k)) (w.fanouts k)
  settled : ∀ settled ∈ w.settled, ∀ id ∈ settled.matched, Handled w.stores settled.entryId id
  failedPosts : w.failedPosts = []

theorem accounted_initialWorld (endpoints : List WebhookEndpoint) :
    Accounted config (initialWorld endpoints) where
  fanouts := fun _ => trivial
  settled := by
    intro settled hsettled
    cases hsettled
  failedPosts := rfl

variable {s : Stores}

theorem FanoutOk.extends
    {s' : Stores} {current : Option (Outbox.OutboxEntry Payload)} {fanout : Fanout}
    (h : FanoutOk config s current fanout)
    (hext : Extends s s') :
    FanoutOk config s' current fanout := by
  cases fanout with
  | idle => trivial
  | sending matched todo run =>
      obtain ⟨entry, hcurrent, hdeclared, id, hrun, hmatched⟩ := h
      refine ⟨entry, hcurrent, hdeclared, id, hrun.extends hext, ?_⟩
      intro other hother
      rcases hmatched other hother with hid | htodo | hhandled
      · exact Or.inl hid
      · exact Or.inr (Or.inl htodo)
      · exact Or.inr (Or.inr (hhandled.extends hext))
  | returned matched =>
      obtain ⟨entry, hcurrent, hmatched⟩ := h
      exact ⟨entry, hcurrent, fun other hother => (hmatched other hother).extends hext⟩
  | rejected => trivial

/-- The loop goes on with endpoints that are accounted for or still to come. -/
theorem fanoutOk_forward
    {entry : Outbox.OutboxEntry Payload} {matched todo : List String}
    (hdeclared : todo ≠ [] → declared config entry.type = true)
    (hmatched : ∀ other ∈ matched, other ∈ todo ∨ Handled s entry.id other) :
    FanoutOk config s (some entry) (Fanout.forward config entry matched todo) := by
  cases todo with
  | nil =>
      refine ⟨entry, rfl, ?_⟩
      intro other hother
      rcases hmatched other hother with hnone | hhandled
      · cases hnone
      · exact hhandled
  | cons id rest =>
      have htype := hdeclared (List.cons_ne_nil _ _)
      refine ⟨entry, rfl, htype, id, runOk_startRun htype, ?_⟩
      intro other hother
      rcases hmatched other hother with htodo | hhandled
      · rcases List.mem_cons.mp htodo with hid | hrest
        · exact Or.inl hid
        · exact Or.inr (Or.inl hrest)
      · exact Or.inr (Or.inr hhandled)

theorem Accounted.setFanout
    (h : Accounted config w)
    {fanout : Fanout}
    (hfanout : FanoutOk config w.stores (current? (w.outbox.ticks k)) fanout) :
    Accounted config (w.setFanout k fanout) where
  fanouts := by
    intro j
    by_cases hj : j = k
    · subst hj
      simp only [World.setFanout, Function.update_self]
      exact hfanout
    · simp only [World.setFanout, Function.update_of_ne hj]
      exact h.fanouts j
  settled := h.settled
  failedPosts := h.failedPosts

/-- A delivering call has no failed post. -/
theorem failedBy_of_delivers
    {env : DispatchEnv} {run : Run} {e : RunEvent}
    (hdelivers : deliversRun env s run e = true) :
    failedBy run e = [] := by
  unfold failedBy
  split
  · next input endpoint response =>
      have hok : response.any HttpResponse.ok = true := hdelivers
      rw [if_pos hok]
  · rfl

/-- What an event settles is accounted for. -/
theorem handled_of_settledBy
    (h : Accounted config w)
    {settled : Settled} {id : String}
    (hsettled : settled ∈ w.settledBy e)
    (hid : id ∈ settled.matched) :
    Handled w.stores settled.entryId id := by
  have htick : ∃ k, settled ∈ w.settledByTick k := by
    unfold World.settledBy at hsettled
    split at hsettled
    · next k => exact ⟨k, hsettled⟩
    · next k => exact ⟨k, hsettled⟩
    · cases hsettled
  obtain ⟨k, hk⟩ := htick
  unfold World.settledByTick at hk
  split at hk
  · next entry _ _ _ _ matched hmarking hreturned =>
      rw [List.mem_singleton] at hk
      subst hk
      have hfanout := h.fanouts k
      rw [hmarking, hreturned] at hfanout
      obtain ⟨other, hother, hmatched⟩ := hfanout
      cases hother
      exact hmatched id hid
  · cases hk

theorem Accounted.outbox
    (h : Accounted config w)
    {outbox : Outbox.World Payload}
    (hstep : Outbox.step config.options w.outbox e = some outbox) :
    Accounted config
      { w with
        outbox := outbox
        fanouts := fun k => if finishes k e then .idle else w.fanouts k
        settled := w.settledBy e ++ w.settled } where
  fanouts := by
    intro k
    cases hfinishes : finishes k e with
    | true =>
        simp only [hfinishes, if_true]
        trivial
    | false =>
        simp only [hfinishes, Bool.false_eq_true, if_false]
        have hfanout := h.fanouts k
        cases hk : w.fanouts k with
        | idle => trivial
        | sending matched todo run =>
            rw [hk] at hfanout
            obtain ⟨entry, hcurrent, hrest⟩ := hfanout
            exact ⟨entry, current?_of_step hstep hfinishes hcurrent, hrest⟩
        | returned matched =>
            rw [hk] at hfanout
            obtain ⟨entry, hcurrent, hrest⟩ := hfanout
            exact ⟨entry, current?_of_step hstep hfinishes hcurrent, hrest⟩
        | rejected => trivial
  settled := by
    intro settled hsettled id hid
    rcases List.mem_append.mp hsettled with hnew | hold
    · exact handled_of_settledBy h hnew hid
    · exact h.settled settled hold id hid
  failedPosts := h.failedPosts

/-- One event of a delivering call. -/
theorem Accounted.run
    (h : Accounted config w)
    {matched todo : List String} {run run' : Run} {e : RunEvent} {s' : Stores}
    (hsending : w.fanouts k = .sending matched todo run)
    (hdelivers : deliversRun config.env w.stores run e = true)
    (hstep : stepRun config.env w.stores run e = some (s', run')) :
    Accounted config
      ({ w with
        stores := s'
        failedPosts := failedBy run e ++ w.failedPosts }.setFanout k
          (.sending matched todo run')) := by
  have hext := extends_stepRun hstep
  have hstores :
      Accounted config
        { w with
          stores := s'
          failedPosts := failedBy run e ++ w.failedPosts } := by
    constructor
    · exact fun j => (h.fanouts j).extends hext
    · exact fun settled hsettled id hid => (h.settled settled hsettled id hid).extends hext
    · change failedBy run e ++ w.failedPosts = []
      rw [failedBy_of_delivers hdelivers, h.failedPosts]
      rfl
  refine hstores.setFanout ?_
  have hfanout := h.fanouts k
  rw [hsending] at hfanout
  obtain ⟨entry, hcurrent, hdeclared, id, hrun, hmatched⟩ := hfanout
  refine ⟨entry, hcurrent, hdeclared, id, runOk_stepRun hrun hdelivers hstep, ?_⟩
  intro other hother
  rcases hmatched other hother with hid | htodo | hhandled
  · exact Or.inl hid
  · exact Or.inr (Or.inl htodo)
  · exact Or.inr (Or.inr (hhandled.extends hext))

theorem accounted_step
    (h : Accounted config w)
    {e : Event Payload}
    (hguard : Delivers config w e)
    (hstep : step config w e = some w') :
    Accounted config w' := by
  cases e with
  | outbox e =>
      simp only [step] at hstep
      split at hstep
      · obtain ⟨outbox, hnext, rfl⟩ := Option.map_eq_some_iff.mp hstep
        exact h.outbox hnext
      · cases hstep
  | subscribers k =>
      simp only [step] at hstep
      split at hstep
      · next entry _ _ _ htick _ =>
          cases hstep
          refine h.setFanout ?_
          rw [htick]
          refine fanoutOk_forward ?_ fun other hother => Or.inl hother
          intro hsome
          simp only [Delivers, delivers, htick, Bool.or_eq_true, List.isEmpty_iff] at hguard
          rcases hguard with hdeclared | hnone
          · exact hdeclared
          · exact absurd hnone hsome
      · cases hstep
  | subscribersFail k =>
      simp only [step] at hstep
      split at hstep
      · cases hstep
        exact h.setFanout trivial
      · cases hstep
  | run k e =>
      simp only [step] at hstep
      split at hstep
      · next matched todo run hsending =>
          obtain ⟨⟨s', run'⟩, hnext, rfl⟩ := Option.map_eq_some_iff.mp hstep
          have hdelivers : deliversRun config.env w.stores run e = true := by
            simpa only [Delivers, delivers, hsending] using hguard
          exact h.run hsending hdelivers hnext
      · cases hstep
  | next k =>
      simp only [step] at hstep
      split at hstep
      · next entry _ _ _ matched todo run htick hsending =>
          split at hstep
          · next hended =>
              cases hstep
              have hfanout := h.fanouts k
              rw [htick, hsending] at hfanout
              obtain ⟨other, hother, hdeclared, id, hrun, hmatched⟩ := hfanout
              cases hother
              refine h.setFanout ?_
              rw [htick]
              refine fanoutOk_forward (fun _ => hdeclared) ?_
              intro other hother
              rcases hmatched other hother with rfl | htodo | hhandled
              · exact Or.inr (handled_of_ended hrun hended)
              · exact Or.inl htodo
              · exact Or.inr hhandled
          · cases hstep
      · cases hstep

/-- No event is dropped when every call delivers. -/
theorem noEventDropped_of_delivers
    (config : Config Payload)
    (endpoints : List WebhookEndpoint)
    (w : World Payload)
    (hrun : Reaches (step config) (Delivers config) (initialWorld endpoints) w) :
    NoEventDropped w := by
  have haccounted : Accounted config w :=
    hrun.invariant (accounted_initialWorld endpoints) fun _ _ _ h hguard hstep =>
      accounted_step h hguard hstep
  refine ⟨haccounted.settled, ?_⟩
  intro failed hfailed
  rw [haccounted.failedPosts] at hfailed
  cases hfailed

end Runs

/-! ## One post -/

/-- One tick at a time over an endpoint that takes every event. -/
def oneEndpoint : Config Unit where
  options := Outbox.fiftyAtATime
  registered := []
  validUrl := fun _ => true
  toISOString := fun _ => "1970-01-01T00:00:00.000Z"
  payloadText := fun _ => "\x7b\x7d"

def acmeOrder : Outbox.RecordInput Unit where
  tenantId := "acme"
  type := "order.placed"
  payload := ()

/-- An entry up to its post, which is answered so. -/
def postAnswered (response : Option HttpResponse) : List (Event Unit) :=
  [.outbox (.record 0 acmeOrder "e" 0), .outbox (.append 0), .outbox (.claim 0 1),
    .outbox (.increment 0), .subscribers 0, .run 0 .findById, .run 0 (.post response),
    .run 0 .setFailureCount, .run 0 .record, .next 0, .outbox (.dispatched 0 [true] 2),
    .outbox (.markProcessed 0)]

/-- A delivered entry becomes processed. -/
theorem noEventDropped_postAnswered :
    ∃ w,
      (Reaches (step oneEndpoint) (Delivers oneEndpoint) (initialWorld [freshEndpoint]) w ∧
        w.settled = [{ entryId := "e", matched := ["ep1"] }]) ∧
        NoEventDropped w := by
  obtain ⟨w, hevents, hsettled⟩ :
      ∃ w,
        runEvents (checked (delivers oneEndpoint) (step oneEndpoint))
            (initialWorld [freshEndpoint]) (postAnswered (some { ok := true, status := 200 })) =
              some w ∧
          w.settled = [{ entryId := "e", matched := ["ep1"] }] :=
    ⟨_, rfl, rfl⟩
  have hrun :
      Reaches (step oneEndpoint) (Delivers oneEndpoint) (initialWorld [freshEndpoint]) w :=
    reaches_of_runEvents_checked (fun _ _ hcheck => hcheck) hevents
  exact ⟨w, ⟨hrun, hsettled⟩, noEventDropped_of_delivers oneEndpoint [freshEndpoint] w hrun⟩

/-- After a network error the entry becomes processed as well. -/
theorem not_noEventDropped_networkError :
    ¬ ∀ w, Reaches (step oneEndpoint) anyEvent (initialWorld [freshEndpoint]) w →
      NoEventDropped w := by
  intro hkept
  obtain ⟨w, hevents, hsettled, hrows, hdeliveries⟩ :
      ∃ w,
        runEvents (step oneEndpoint) (initialWorld [freshEndpoint]) (postAnswered none) = some w ∧
          w.settled = [{ entryId := "e", matched := ["ep1"] }] ∧
            w.stores.endpoints = [{ freshEndpoint with consecutiveFailures := 1 }] ∧
              w.stores.deliveries =
                [{ endpointId := "ep1", eventId := "e", status := .FAILED, statusCode := none,
                   attemptCount := 1 }] :=
    ⟨_, rfl, rfl, rfl, rfl⟩
  have hentry : { entryId := "e", matched := ["ep1"] } ∈ w.settled := by
    rw [hsettled]
    exact List.mem_singleton_self _
  have hactive : Active w.stores "ep1" := by
    unfold Active
    rw [hrows]
    exact ⟨_, rfl, rfl⟩
  obtain ⟨delivery, hmem, -, -, hdelivered⟩ :=
    (hkept w (reaches_of_runEvents hevents)).1 _ hentry "ep1" (List.mem_singleton_self _) hactive
  rw [hdeliveries, List.mem_singleton] at hmem
  rw [hmem] at hdelivered
  cases hdelivered

end Delivery

end WebhookOutbox
end NestBase
