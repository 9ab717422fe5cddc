import Mathlib.Data.Option.Basic
import Mathlib.Data.List.Pairwise
import NestBase.Lib.OrderedMap
import NestBase.Lib.Transition

/-!
# Upkeep that no event notices

A component works on a state event by event; between its events, upkeep changes
the state as well.  Upkeep is invisible when every run with upkeep does what the
run of its events alone does.

* `rel_runUpkept` is the rule: a relation between the state with and the state
  without upkeep, indexed by the events that are still to come, is kept by upkeep
  and by every event.
* The upkeep of a table whose records expire is a sweep.  `AgreesBut` relates a
  swept lookup to the full one, and no event that comes too late for the missing
  records tells them apart (`live_of_agreesBut`).
-/

namespace NestBase
namespace Lib
namespace Upkeep

universe u v w

section Runs

variable {σ : Type u}
variable {ε : Type v}
variable {μ : Type w}

/-- An event of the component, or a piece of upkeep. -/
inductive Upkept (ε : Type v) (μ : Type w) where
  | event (e : ε)
  | upkeep (m : μ)

def Upkept.event? : Upkept ε μ → Option ε
  | event e => some e
  | upkeep _ => none

def stepUpkept (step : σ → ε → Option σ) (tend : μ → σ → σ) (s : σ) : Upkept ε μ → Option σ
  | .event e => step s e
  | .upkeep m => some (tend m s)

/-- The events of a log, without the upkeep. -/
def eventsOf (log : List (Upkept ε μ)) : List ε :=
  log.filterMap Upkept.event?

/-- A piece of upkeep and an event after it are `safe`. -/
def SafeBefore (safe : μ → ε → Prop) : Upkept ε μ → Upkept ε μ → Prop
  | .upkeep m, .event e => safe m e
  | _, _ => True

/-- Every piece of upkeep is safe for all events that come after it. -/
def Timely (safe : μ → ε → Prop) (log : List (Upkept ε μ)) : Prop :=
  log.Pairwise (SafeBefore safe)

theorem safe_of_timely
    {safe : μ → ε → Prop} {m : μ} {log : List (Upkept ε μ)}
    (h : Timely safe (.upkeep m :: log)) {e : ε} (he : e ∈ eventsOf log) :
    safe m e := by
  obtain ⟨entry, hentry, hevent⟩ := List.mem_filterMap.mp he
  cases entry with
  | event e' =>
      obtain rfl : e' = e := Option.some.inj hevent
      exact (List.pairwise_cons.mp h).1 _ hentry
  | upkeep m' => cases hevent

theorem rel_bind
    {R R' : σ → σ → Prop} {first second : Option σ} (h : Option.Rel R first second)
    {next next' : σ → Option σ} (hnext : ∀ s t, R s t → Option.Rel R' (next s) (next' t)) :
    Option.Rel R' (first.bind next) (second.bind next') := by
  cases h with
  | none => exact .none
  | some h => exact hnext _ _ h

theorem map_eq_of_rel
    {R : σ → σ → Prop} {ω : Type*} {observe : σ → ω}
    (hobserve : ∀ s t, R s t → observe s = observe t)
    {first second : Option σ} (h : Option.Rel R first second) :
    first.map observe = second.map observe := by
  cases h with
  | none => rfl
  | some h => exact congrArg some (hobserve _ _ h)

variable {step : σ → ε → Option σ} {tend : μ → σ → σ} {safe : μ → ε → Prop}

/-- A relation that upkeep and events keep relates the run of a log to the run of its
events. -/
theorem rel_runUpkept
    {R : List ε → σ → σ → Prop}
    (htend : ∀ rest m s t, (∀ e ∈ rest, safe m e) → R rest s t → R rest (tend m s) t)
    (hstep : ∀ e rest s t, R (e :: rest) s t → Option.Rel (R rest) (step s e) (step t e))
    {log : List (Upkept ε μ)} (hlog : Timely safe log) {s t : σ} (h : R (eventsOf log) s t) :
    Option.Rel (R []) (runEvents (stepUpkept step tend) s log)
      (runEvents step t (eventsOf log)) := by
  induction log generalizing s t with
  | nil => exact .some h
  | cons entry log ih =>
      have hrest : Timely safe log := (List.pairwise_cons.mp hlog).2
      cases entry with
      | upkeep m =>
          exact ih hrest (htend _ m s t (fun e => safe_of_timely hlog) h)
      | event e =>
          change Option.Rel (R [])
            ((step s e).bind fun s' => runEvents (stepUpkept step tend) s' log)
            ((step t e).bind fun t' => runEvents step t' (eventsOf log))
          exact rel_bind (hstep e (eventsOf log) s t h) fun s' t' hnext => ih hrest hnext

/-- What is observed of the two runs is the same. -/
theorem observed_runUpkept
    {R : List ε → σ → σ → Prop} {ω : Type*} {observe : σ → ω}
    (htend : ∀ rest m s t, (∀ e ∈ rest, safe m e) → R rest s t → R rest (tend m s) t)
    (hstep : ∀ e rest s t, R (e :: rest) s t → Option.Rel (R rest) (step s e) (step t e))
    (hobserve : ∀ s t, R [] s t → observe s = observe t)
    {log : List (Upkept ε μ)} (hlog : Timely safe log) {s t : σ} (h : R (eventsOf log) s t) :
    (runEvents (stepUpkept step tend) s log).map observe =
      (runEvents step t (eventsOf log)).map observe :=
  map_eq_of_rel hobserve (rel_runUpkept htend hstep hlog h)

/-- A run whose events are all possible is a fold. -/
theorem runEvents_some (next : σ → ε → σ) (s : σ) (events : List ε) :
    runEvents (fun s e => some (next s e)) s events = some (events.foldl next s) := by
  induction events generalizing s with
  | nil => rfl
  | cons e events ih => exact ih _

end Runs

/-! ## Records that expire -/

section Expiry

variable {ρ : Type u} (expiresAt : ρ → Int)

/-- What a lookup at `now` finds: a record counts as absent from the time it expires. -/
def live (now : Int) (found : Option ρ) : Option ρ :=
  found.filter fun record => decide (now < expiresAt record)

/-- What a sweep leaves: the records that had not expired before its cutoff. -/
def swept (cutoff : Int) (found : Option ρ) : Option ρ :=
  found.filter fun record => decide (cutoff ≤ expiresAt record)

/-- Keeping what does not expire before the cutoff is a sweep. -/
theorem filter_not_before_eq_swept (cutoff : Int) (found : Option ρ) :
    (found.filter fun record => !decide (expiresAt record < cutoff)) =
      swept expiresAt cutoff found := by
  unfold swept
  congr 1
  funext record
  rw [← decide_not, decide_eq_decide, not_lt]

variable {expiresAt}

/-- The two lookups agree, but a dead record may be missing from the first. -/
def AgreesBut (dead : ρ → Prop) (missing full : Option ρ) : Prop :=
  missing = full ∨ missing = none ∧ ∃ record, full = some record ∧ dead record

theorem AgreesBut.refl (dead : ρ → Prop) (found : Option ρ) : AgreesBut dead found found :=
  .inl rfl

theorem AgreesBut.mono
    {dead dead' : ρ → Prop} (himp : ∀ record, dead record → dead' record)
    {missing full : Option ρ} (h : AgreesBut dead missing full) :
    AgreesBut dead' missing full :=
  h.imp_right fun ⟨hnone, record, hfull, hdead⟩ => ⟨hnone, record, hfull, himp record hdead⟩

/-- A sweep removes only records that expired before its cutoff. -/
theorem AgreesBut.swept
    {dead : ρ → Prop} {cutoff : Int} (hcutoff : ∀ record, expiresAt record < cutoff → dead record)
    {missing full : Option ρ} (h : AgreesBut dead missing full) :
    AgreesBut dead (swept expiresAt cutoff missing) full := by
  obtain rfl | ⟨rfl, hdead⟩ := h
  · cases missing with
    | none => exact .inl rfl
    | some record =>
        by_cases hkept : cutoff ≤ expiresAt record
        · exact .inl (Option.filter_some_pos (decide_eq_true hkept))
        · exact .inr ⟨Option.filter_some_neg (by simpa using hkept), record, rfl,
            hcutoff record (by omega)⟩
  · exact .inr ⟨rfl, hdead⟩

/-- A lookup to which the missing records are expired finds the same in both. -/
theorem live_of_agreesBut
    {dead : ρ → Prop} {now : Int} (hnow : ∀ record, dead record → expiresAt record ≤ now)
    {missing full : Option ρ} (h : AgreesBut dead missing full) :
    live expiresAt now missing = live expiresAt now full := by
  obtain rfl | ⟨rfl, record, rfl, hdead⟩ := h
  · rfl
  · have hexpired : ¬ now < expiresAt record := by
      have := hnow record hdead
      omega
    exact (Option.filter_some_neg (by simpa using hexpired)).symm

end Expiry

/-! ## Sweeps of a map -/

section Maps

variable {κ : Type u} [DecidableEq κ] {ρ : Type v}

/-- The keys of the values that a loop over the map removes. -/
def keysWhere (drop : ρ → Bool) (map : Record κ ρ) : List κ :=
  (map.entries.filter fun entry => drop entry.2).map Prod.fst

def removeWhere (drop : ρ → Bool) (map : Record κ ρ) : Record κ ρ :=
  map.removeAll (keysWhere drop map)

theorem mem_keysWhere_iff (drop : ρ → Bool) (map : Record κ ρ) (key : κ) :
    key ∈ keysWhere drop map ↔ ∃ record, map.get key = some record ∧ drop record = true := by
  unfold keysWhere
  rw [List.mem_map]
  constructor
  · rintro ⟨⟨name, record⟩, hmem, rfl⟩
    obtain ⟨hentry, hdrop⟩ := List.mem_filter.mp hmem
    exact ⟨record, Record.get_eq_some_iff_mem.mpr hentry, hdrop⟩
  · rintro ⟨record, hget, hdrop⟩
    exact ⟨(key, record), List.mem_filter.mpr ⟨Record.get_eq_some_iff_mem.mp hget, hdrop⟩, rfl⟩

theorem get_removeWhere (drop : ρ → Bool) (map : Record κ ρ) (key : κ) :
    (removeWhere drop map).get key = (map.get key).filter fun record => !drop record := by
  unfold removeWhere
  rw [Record.get_removeAll]
  cases hget : map.get key with
  | none => exact ite_self _
  | some record =>
      have hmem : key ∈ keysWhere drop map ↔ drop record = true := by
        rw [mem_keysWhere_iff, hget]
        simp
      cases hdrop : drop record with
      | true =>
          rw [if_pos (hmem.mpr hdrop), Option.filter_some_neg]
          rw [hdrop]
          rfl
      | false =>
          rw [if_neg (by rw [hmem, hdrop]; exact Bool.false_ne_true), Option.filter_some_pos]
          rw [hdrop]
          rfl

end Maps

end Upkeep
end Lib
end NestBase
