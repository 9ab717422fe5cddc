import Mathlib.Data.List.Basic

/-!
# Decisions by the last matching rule

A list of rules decides a query by the last rule that matches it: the query
is allowed when that rule is not a denial, and refused when no rule matches.

A translation that replaces every rule by a list of rules, and keeps the
denials, is decided rule by rule: `allowed_flatMap_iff`.
-/

namespace NestBase
namespace Lib

universe u

section LastMatch

variable {ρ : Type u}

/-- The last rule that matches. -/
def lastMatch (isMatch : ρ → Bool) (rules : List ρ) : Option ρ :=
  rules.reverse.find? isMatch

/-- The last matching rule is not a denial. -/
def allowed (isMatch denies : ρ → Bool) (rules : List ρ) : Bool :=
  (lastMatch isMatch rules).any fun rule => !denies rule

variable {isMatch denies : ρ → Bool}
variable {rules : List ρ}

theorem lastMatch_eq_none_iff :
    lastMatch isMatch rules = none ↔ rules.any isMatch = false := by
  simp [lastMatch, List.find?_eq_none]

theorem mem_of_lastMatch {rule : ρ} (h : lastMatch isMatch rules = some rule) :
    rule ∈ rules ∧ isMatch rule = true := by
  have hmem := List.mem_of_find?_eq_some h
  exact ⟨List.mem_reverse.mp hmem, List.find?_some h⟩

/-- The later rules decide when one of them matches. -/
theorem allowed_append (xs ys : List ρ) :
    allowed isMatch denies (xs ++ ys) =
      if ys.any isMatch then allowed isMatch denies ys else allowed isMatch denies xs := by
  have happend :
      lastMatch isMatch (xs ++ ys) = (lastMatch isMatch ys).or (lastMatch isMatch xs) := by
    simp [lastMatch, List.find?_append]
  unfold allowed
  rw [happend]
  cases hlast : lastMatch isMatch ys with
  | none => simp [lastMatch_eq_none_iff.mp hlast]
  | some rule =>
      obtain ⟨hmem, hmatch⟩ := mem_of_lastMatch hlast
      have hany : ys.any isMatch = true := List.any_eq_true.mpr ⟨rule, hmem, hmatch⟩
      simp [hany]

/-- Rules that all deny or all allow decide by whether one of them matches. -/
theorem allowed_of_uniform
    {denial : Bool}
    (huniform : ∀ rule ∈ rules, isMatch rule = true → denies rule = denial) :
    allowed isMatch denies rules = (rules.any isMatch && !denial) := by
  unfold allowed
  cases hlast : lastMatch isMatch rules with
  | none => simp [lastMatch_eq_none_iff.mp hlast]
  | some rule =>
      obtain ⟨hmem, hmatch⟩ := mem_of_lastMatch hlast
      have hany : rules.any isMatch = true := List.any_eq_true.mpr ⟨rule, hmem, hmatch⟩
      simp [hany, huniform rule hmem hmatch]

/-- An allowing rule of the list that no later denial overrules. -/
def Unoverruled (isMatch denies : ρ → Bool) (rules : List ρ) (rule : ρ) : Prop :=
  ∃ before after,
    rules = before ++ rule :: after ∧
      denies rule = false ∧ ∀ later ∈ after, denies later = true → isMatch later = false

theorem exists_unoverruled_cons_iff {Q : ρ → Prop} {rule : ρ} :
    (∃ other, Unoverruled isMatch denies (rule :: rules) other ∧ Q other) ↔
      (∃ other, Unoverruled isMatch denies rules other ∧ Q other) ∨
        (denies rule = false ∧
          (∀ later ∈ rules, denies later = true → isMatch later = false) ∧ Q rule) := by
  constructor
  · rintro ⟨other, ⟨before, after, hsplit, hallows, hlater⟩, hother⟩
    cases before with
    | nil =>
        obtain ⟨rfl, rfl⟩ := List.cons.inj hsplit
        exact Or.inr ⟨hallows, hlater, hother⟩
    | cons first before =>
        obtain ⟨rfl, rfl⟩ := List.cons.inj hsplit
        exact Or.inl ⟨other, ⟨before, after, rfl, hallows, hlater⟩, hother⟩
  · rintro (⟨other, ⟨before, after, rfl, hallows, hlater⟩, hother⟩ | ⟨hallows, hlater, hrule⟩)
    · exact ⟨other, ⟨rule :: before, after, rfl, hallows, hlater⟩, hother⟩
    · exact ⟨rule, ⟨[], rules, rfl, hallows, hlater⟩, hrule⟩

section Translation

variable {translate : ρ → List ρ}

/--
A translation that keeps denials and turns allowing rules into allowing ones
lets a query pass when one of the translations matches it and no later denial
does.
-/
theorem allowed_flatMap_iff
    {rules : List ρ}
    (hdenial : ∀ rule ∈ rules, denies rule = true → translate rule = [rule])
    (hallows : ∀ rule ∈ rules, denies rule = false → ∀ rule' ∈ translate rule, denies rule' = false) :
    allowed isMatch denies (rules.flatMap translate) = true ↔
      ∃ rule, Unoverruled isMatch denies rules rule ∧ (translate rule).any isMatch = true := by
  induction rules with
  | nil =>
      constructor
      · intro h
        cases h
      · rintro ⟨rule, ⟨before, after, hsplit, -⟩, -⟩
        exact absurd hsplit (by simp)
  | cons rule rules ih =>
      have hrest :=
        ih (fun other hother => hdenial other (List.mem_cons_of_mem _ hother))
          (fun other hother => hallows other (List.mem_cons_of_mem _ hother))
      rw [exists_unoverruled_cons_iff, ← hrest, List.flatMap_cons, allowed_append]
      by_cases hany : (rules.flatMap translate).any isMatch = true
      · -- a later rule decides; when it is a denial, it also overrules this one
        rw [if_pos hany]
        refine ⟨Or.inl, ?_⟩
        rintro (hlater | ⟨-, hquiet, -⟩)
        · exact hlater
        · have huniform :
              ∀ rule' ∈ rules.flatMap translate, isMatch rule' = true → denies rule' = false := by
            intro rule' hrule' hmatch
            obtain ⟨other, hother, hmem⟩ := List.mem_flatMap.mp hrule'
            cases hother' : denies other with
            | false => exact hallows other (List.mem_cons_of_mem _ hother) hother' rule' hmem
            | true =>
                rw [hdenial other (List.mem_cons_of_mem _ hother) hother'] at hmem
                rw [List.mem_singleton.mp hmem, hquiet other hother hother'] at hmatch
                cases hmatch
          rw [allowed_of_uniform huniform, hany]
          rfl
      · have hnone : (rules.flatMap translate).any isMatch = false := by simpa using hany
        have hrefused : allowed isMatch denies (rules.flatMap translate) = false := by
          rw [allowed, lastMatch_eq_none_iff.mpr hnone]
          rfl
        have hquiet : ∀ later ∈ rules, denies later = true → isMatch later = false := by
          intro later hlater hlater'
          have hmem : later ∈ rules.flatMap translate := by
            refine List.mem_flatMap.mpr ⟨later, hlater, ?_⟩
            rw [hdenial later (List.mem_cons_of_mem _ hlater) hlater']
            exact List.mem_singleton.mpr rfl
          simpa using List.any_eq_false.mp hnone later hmem
        rw [if_neg hany, hrefused]
        cases hrule : denies rule with
        | true =>
            rw [hdenial rule List.mem_cons_self hrule]
            have huniform : ∀ rule' ∈ [rule], isMatch rule' = true → denies rule' = true := by
              intro rule' hrule' _
              rw [List.mem_singleton.mp hrule', hrule]
            rw [allowed_of_uniform huniform]
            simp
        | false =>
            rw [allowed_of_uniform fun rule' hrule' _ =>
              hallows rule List.mem_cons_self hrule rule' hrule']
            simpa using fun _ _ _ => hquiet

end Translation

/-- A query passes when an allowing rule matches it and no later denial does. -/
theorem allowed_iff_exists_unoverruled :
    allowed isMatch denies rules = true ↔
      ∃ rule, Unoverruled isMatch denies rules rule ∧ isMatch rule = true := by
  have hself :
      allowed isMatch denies (rules.flatMap fun rule => [rule]) = true ↔
        ∃ rule, Unoverruled isMatch denies rules rule ∧ [rule].any isMatch = true :=
    allowed_flatMap_iff (fun _ _ _ => rfl)
      (fun rule _ hallows rule' hrule' => by rw [List.mem_singleton.mp hrule', hallows])
  simpa using hself

end LastMatch

end Lib
end NestBase
