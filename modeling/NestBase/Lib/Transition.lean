import Mathlib.Logic.Function.Basic
import Mathlib.Logic.Relation

/-!
# Guarded runs of a partial step function

A concurrent component is presented by a partial step function
`step : σ → ε → Option σ`: in state `s` the event `e` is either impossible
(`none`) or leads to one successor.  Every interleaving of the component's
parties is a list of events, and a run is the fold of `step` over it.

Many results hold only for runs whose events all meet a side condition.  The
condition is a `guard : σ → ε → Prop` on the state before the event, and
`Reaches step guard` is reachability through events that meet it.  The rules
below are the two ways a result about one step becomes a result about runs:

* `Reaches.invariant` carries a state predicate along a run;
* `Reaches.preorder` carries a reflexive and transitive relation between the
  first and the last state of a run.
-/

namespace NestBase
namespace Lib

universe u v

section Transition

variable {σ : Type u}
variable {ε : Type v}

/-- One step by some event that meets the guard. -/
def GuardedStep (step : σ → ε → Option σ) (guard : σ → ε → Prop) (s s' : σ) : Prop :=
  ∃ e, guard s e ∧ step s e = some s'

/-- Reachability through events that all meet the guard. -/
def Reaches (step : σ → ε → Option σ) (guard : σ → ε → Prop) :
    σ → σ → Prop :=
  Relation.ReflTransGen (GuardedStep step guard)

/-- The guard that admits every event. -/
def anyEvent (_ : σ) (_ : ε) : Prop := True

variable {step : σ → ε → Option σ}
variable {guard : σ → ε → Prop}

theorem Reaches.refl (s : σ) : Reaches step guard s s :=
  Relation.ReflTransGen.refl

theorem Reaches.trans {s t r : σ} (hst : Reaches step guard s t) (htr : Reaches step guard t r) :
    Reaches step guard s r :=
  Relation.ReflTransGen.trans hst htr

/-- A run is extended by one admitted event. -/
theorem Reaches.tail
    {s t r : σ} {e : ε}
    (hst : Reaches step guard s t)
    (hguard : guard t e)
    (hstep : step t e = some r) :
    Reaches step guard s r :=
  Relation.ReflTransGen.tail hst ⟨e, hguard, hstep⟩

/-- What holds first and is kept by every admitted event holds after every run. -/
theorem Reaches.invariant
    {I : σ → Prop} {s s' : σ}
    (hrun : Reaches step guard s s')
    (hfirst : I s)
    (hkeep :
      ∀ t e t', I t → guard t e → step t e = some t' → I t') :
    I s' := by
  induction hrun with
  | refl => exact hfirst
  | tail _ hlast ih =>
      obtain ⟨e, hguard, hstep⟩ := hlast
      exact hkeep _ e _ ih hguard hstep

/--
A reflexive and transitive relation that every admitted event respects in
states satisfying the invariant `I` relates the two ends of every run.
-/
theorem Reaches.preorder
    {I : σ → Prop} {R : σ → σ → Prop} {s s' : σ}
    (hrun : Reaches step guard s s')
    (hfirst : I s)
    (hkeep :
      ∀ t e t', I t → guard t e → step t e = some t' → I t')
    (hrefl : ∀ t, R t t)
    (htrans : ∀ t r q, R t r → R r q → R t q)
    (hone :
      ∀ t e t', I t → guard t e → step t e = some t' → R t t') :
    R s s' := by
  induction hrun with
  | refl => exact hrefl s
  | tail hinit hlast ih =>
      obtain ⟨e, hguard, hstep⟩ := hlast
      have hI := Reaches.invariant hinit hfirst hkeep
      exact htrans _ _ _ ih (hone _ e _ hI hguard hstep)

/-- Fold of the step function over a list of events. -/
def runEvents (step : σ → ε → Option σ) :
    σ → List ε → Option σ
  | s, [] => some s
  | s, e :: rest => (step s e).bind fun s' => runEvents step s' rest

/-- Every successful fold is a run. -/
theorem reaches_of_runEvents
    {s s' : σ} {events : List ε}
    (hrun : runEvents step s events = some s') :
    Reaches step anyEvent s s' := by
  induction events generalizing s with
  | nil =>
      simp only [runEvents, Option.some.injEq] at hrun
      subst hrun
      exact Reaches.refl _
  | cons e rest ih =>
      simp only [runEvents, Option.bind_eq_some_iff] at hrun
      obtain ⟨t, hstep, hrest⟩ := hrun
      exact Relation.ReflTransGen.head ⟨e, trivial, hstep⟩ (ih hrest)

/-- The step function restricted to the events that pass a test. -/
def checked (check : σ → ε → Bool) (step : σ → ε → Option σ) (s : σ) (e : ε) : Option σ :=
  if check s e then step s e else none

/-- A fold whose events all pass a test of the guard is a guarded run. -/
theorem reaches_of_runEvents_checked
    {check : σ → ε → Bool} {s s' : σ} {events : List ε}
    (hcheck : ∀ t e, check t e = true → guard t e)
    (hrun : runEvents (checked check step) s events = some s') :
    Reaches step guard s s' := by
  refine Relation.ReflTransGen.mono ?_ s s' (reaches_of_runEvents hrun)
  rintro t t' ⟨e, -, hstep⟩
  unfold checked at hstep
  split at hstep
  · next hpass => exact ⟨e, hcheck t e hpass, hstep⟩
  · cases hstep

end Transition

section Parties

variable {ι : Type u} [DecidableEq ι]
variable {α : Type v}

/-- After one party has changed, a party is the changed one or as it was. -/
theorem update_some_cases
    {parties : ι → Option α} {c d : ι} {changed party : α}
    (h : Function.update parties c (some changed) d = some party) :
    d = c ∧ party = changed ∨ d ≠ c ∧ parties d = some party := by
  by_cases hd : d = c
  · subst hd
    rw [Function.update_self] at h
    exact Or.inl ⟨rfl, (Option.some.inj h).symm⟩
  · rw [Function.update_of_ne hd] at h
    exact Or.inr ⟨hd, h⟩

end Parties

end Lib
end NestBase
