import NestBase.Core.Permissions
import NestBase.Lib.LastMatch

/-!
# Checks of an ability

CASL decides a check by the last rule that applies to it.  A rule applies to
an action and a subject when it names them, where `manage` names every action
and `all` every subject.  Its conditions are tested on the item of the check;
without an item they do not keep a rule from allowing, but they keep a denial
from applying.  The same holds for the fields of a rule and the field of the
check.

The tests of conditions on an item and of fields on a field name are CASL's
matchers (`mongoQueryMatcher`, `fieldPatternMatcher`), the parameters `Casl`.
-/

namespace NestBase
namespace Permissions

open Lib

/-- The matchers an ability is built with. -/
structure Casl (Item : Type) where
  matchesConditions : List (String × Json) → Item → Bool
  matchesField : List String → String → Bool

/-- What is asked of an ability; an empty field name counts as none. -/
structure Check (Item : Type) where
  action : String
  subject : String
  item : Option Item
  field : Option String

/-- The rule names the action and the subject. -/
def AbilityRule.names (rule : AbilityRule) (action subject : String) : Bool :=
  (rule.action.contains action || rule.action.contains "manage") &&
    (rule.subject.contains subject || rule.subject.contains "all")

/-- Matchers for conditions that compare columns with texts. -/
def textCasl : Casl (List (String × String)) where
  matchesConditions := fun conditions item =>
    conditions.all fun condition =>
      match condition.2 with
      | .str value => item.lookup condition.1 == some value
      | _ => false
  matchesField := fun fields field => fields.contains field

section Checks

variable {Item : Type}
variable (casl : Casl Item)

def AbilityRule.matchesConditions (rule : AbilityRule) (item : Option Item) : Bool :=
  match rule.conditions with
  | none => true
  | some conditions =>
      match item with
      | none => !rule.inverted
      | some item => casl.matchesConditions conditions item

/-- An empty field list is no restriction. -/
def AbilityRule.matchesField (rule : AbilityRule) (field : Option String) : Bool :=
  if rule.fields = [] then true
  else
    match field.filter fun name => name ≠ "" with
    | none => !rule.inverted
    | some name => casl.matchesField rule.fields name

def AbilityRule.applies (check : Check Item) (rule : AbilityRule) : Bool :=
  rule.names check.action check.subject && rule.matchesField casl check.field &&
    rule.matchesConditions casl check.item

/-- `ability.can(...)` -/
def Casl.can (ability : Ability) (check : Check Item) : Bool :=
  allowed (AbilityRule.applies casl check) AbilityRule.inverted ability

/-- `ability.can(action, subject)` on the subject type. -/
def Casl.canType (ability : Ability) (action subject : String) : Bool :=
  casl.can ability { action := action, subject := subject, item := none, field := none }

variable {casl}

/-- On a subject type an allowing rule applies whenever it names the check. -/
theorem applies_type
    {rule : AbilityRule}
    (hallows : rule.inverted = false)
    (action subject : String) :
    rule.applies casl { action := action, subject := subject, item := none, field := none } =
      rule.names action subject := by
  have hconditions : rule.matchesConditions casl none = true := by
    unfold AbilityRule.matchesConditions
    split
    · rfl
    · simp [hallows]
  have hfields : rule.matchesField casl none = true := by
    unfold AbilityRule.matchesField
    split
    · rfl
    · simp [hallows]
  simp [AbilityRule.applies, hconditions, hfields]

/-- Rules that only allow let a type pass when one of them names it. -/
theorem canType_of_plain
    {ability : Ability}
    (hplain : ∀ rule ∈ ability, rule.inverted = false)
    (action subject : String) :
    casl.canType ability action subject = ability.any fun rule => rule.names action subject := by
  unfold Casl.canType Casl.can
  rw [allowed_of_uniform fun rule hrule _ => hplain rule hrule, Bool.not_false, Bool.and_true,
    Bool.eq_iff_iff, List.any_eq_true, List.any_eq_true]
  refine exists_congr fun rule => and_congr_right fun hrule => ?_
  rw [applies_type (hplain rule hrule)]

/-- The checks of the guards look at the type only. -/
theorem checksTypesOnly_canType : ChecksTypesOnly (casl.canType) where
  allows := by
    intro ability action subject rule hrule hsubject haction hplain
    unfold Casl.canType Casl.can
    have happlies :
        rule.applies casl { action := action, subject := subject, item := none, field := none } =
          true := by
      rw [applies_type (hplain rule hrule (Or.inl hsubject))]
      rcases haction with haction | hmanage
      · simp [AbilityRule.names, haction, hsubject]
      · simp [AbilityRule.names, hmanage, hsubject]
    have huniform :
        ∀ other ∈ ability,
          other.applies casl
              { action := action, subject := subject, item := none, field := none } = true →
            other.inverted = false := by
      intro other hother hothers
      refine hplain other hother ?_
      simp only [AbilityRule.applies, AbilityRule.names, Bool.and_eq_true, Bool.or_eq_true,
        List.contains_iff_mem] at hothers
      exact hothers.1.1.2
    rw [allowed_of_uniform huniform]
    simpa using ⟨rule, hrule, happlies⟩

end Checks

/-! ## Resolved rows -/

variable {row : DbPermissionRow}
variable {ctx : ResolveContext}

/-- A resolved row allows its one action on its one resource. -/
theorem resolveDbRule_ok {rule : AbilityRule} (h : resolveDbRule ctx row = .ok rule) :
    rule.action = [row.action.toLowerCase] ∧ rule.subject = [row.resource] ∧
      rule.inverted = false := by
  unfold resolveDbRule at h
  simp only at h
  split at h
  · cases h
    exact ⟨rfl, rfl, rfl⟩
  · rename_i filter hfilter
    cases hresolved : resolveFilter ctx filter with
    | error message =>
        rw [hresolved] at h
        cases h
    | ok conditions =>
        rw [hresolved] at h
        cases h
        exact ⟨rfl, rfl, rfl⟩

variable {rules : List AbilityRule}

theorem resolveDbRules_cons_ok
    {rest : List DbPermissionRow}
    (h : resolveDbRules ctx (row :: rest) = .ok rules) :
    ∃ rule others,
      resolveDbRule ctx row = .ok rule ∧ resolveDbRules ctx rest = .ok others ∧
        rules = rule :: others := by
  rw [resolveDbRules] at h
  cases hrow : resolveDbRule ctx row with
  | error message =>
      rw [hrow] at h
      cases h
  | ok rule =>
      cases hrest : resolveDbRules ctx rest with
      | error message =>
          rw [hrow, hrest] at h
          cases h
      | ok others =>
          rw [hrow, hrest] at h
          cases h
          exact ⟨rule, others, rfl, rfl, rfl⟩

/-- The rules stand at the places of the rows they are resolved from. -/
theorem resolveDbRule_of_mem_zip
    {rows : List DbPermissionRow}
    (h : resolveDbRules ctx rows = .ok rules)
    {rule : AbilityRule}
    (hpair : (row, rule) ∈ rows.zip rules) :
    resolveDbRule ctx row = .ok rule := by
  induction rows generalizing rules with
  | nil => cases hpair
  | cons first rest ih =>
      obtain ⟨resolved, others, hfirst, hrest, rfl⟩ := resolveDbRules_cons_ok h
      rw [List.zip_cons_cons] at hpair
      rcases List.mem_cons.mp hpair with hhead | htail
      · cases hhead
        exact hfirst
      · exact ih hrest htail

/-- Every resolved rule comes from a row. -/
theorem exists_row_of_resolveDbRules
    {rows : List DbPermissionRow}
    (h : resolveDbRules ctx rows = .ok rules) :
    ∀ rule ∈ rules, ∃ row ∈ rows, resolveDbRule ctx row = .ok rule := by
  induction rows generalizing rules with
  | nil =>
      cases h
      intro rule hrule
      cases hrule
  | cons row rest ih =>
      obtain ⟨first, others, hrow, hrest, rfl⟩ := resolveDbRules_cons_ok h
      intro rule hrule
      rcases List.mem_cons.mp hrule with rfl | hother
      · exact ⟨row, List.mem_cons_self, hrow⟩
      · obtain ⟨row', hrow', hresolved⟩ := ih hrest rule hother
        exact ⟨row', List.mem_cons_of_mem _ hrow', hresolved⟩

end Permissions
end NestBase
