import NestBase.Core.CaslAbility

/-!
# Scopes of an API key

A scope such as `read:invoice` or `files:write` grants reading or managing
one subject.  `restrictAbilityByScopes` narrows the rules of the user's
ability one by one: for each action of an allowing rule it looks for the first
subject of the rule a scope opens to the action, keeps the whole rule when the
scope grants managing it, and keeps reading that subject otherwise.

The ability of a key should permit what the user's ability permits and a scope
grants.  At each check this holds exactly when the rules in force there are
narrowed exactly (`NarrowsExactly`).
-/

namespace NestBase
namespace ApiKeyScopes

open Lib
open Permissions

/-! ## Parsing -/

def RESOURCE_TO_SUBJECT : List (String × String) :=
  [("profile", "UserProfile"), ("users", "User"), ("user", "User"), ("example", "Example"),
    ("examples", "Example"), ("files", "File"), ("file", "File"), ("folder", "Folder"),
    ("folders", "Folder"), ("address", "Address"), ("invoice", "Invoice")]

def READ_ACTIONS : List String := ["read"]

def WRITE_ACTIONS : List String := ["write", "create", "update", "delete", "manage"]

inductive ScopeAction where
  | read
  | manage
deriving DecidableEq, Repr

/-- The action's name in a rule. -/
def ScopeAction.name : ScopeAction → String
  | read => "read"
  | manage => "manage"

structure ParsedApiKeyScope where
  action : ScopeAction
  subject : String
deriving DecidableEq, Repr

/-- `{ action: WRITE_ACTIONS.has(verb) ? "manage" : "read", subject }` -/
def parsedScope (verb resource : String) : Option ParsedApiKeyScope :=
  (RESOURCE_TO_SUBJECT.lookup resource).map fun subject =>
    { action := if WRITE_ACTIONS.contains verb then .manage else .read
      subject := subject }

/--
Either part may be the verb; the left one is tried first.  The properties
every object inherits are no resources: what they look up is no subject name.
-/
def parseApiKeyScope (scope : String) : Option ParsedApiKeyScope :=
  match scope.toList.splitOn ':' with
  | [left, right] =>
      let left := String.ofList left
      let right := String.ofList right
      if READ_ACTIONS.contains left || WRITE_ACTIONS.contains left then parsedScope left right
      else if READ_ACTIONS.contains right || WRITE_ACTIONS.contains right then
        parsedScope right left
      else none
  | _ => none

/-- The rule of a parsed scope. -/
def ParsedApiKeyScope.rule (parsed : ParsedApiKeyScope) : AbilityRule where
  action := [parsed.action.name]
  subject := [parsed.subject]
  conditions := none
  fields := []
  inverted := false

/-- The rules of the scopes that are not in `seen`. -/
def scopeRulesFrom (seen : List ParsedApiKeyScope) : List String → List AbilityRule
  | [] => []
  | scope :: rest =>
      match parseApiKeyScope scope with
      | none => scopeRulesFrom seen rest
      | some parsed =>
          if parsed ∈ seen then scopeRulesFrom seen rest
          else parsed.rule :: scopeRulesFrom (parsed :: seen) rest

def scopesToAbilityRules (scopes : List String) : List AbilityRule :=
  scopeRulesFrom [] scopes

/-! ## Narrowing -/

/-- Only ASCII letters have a lower case that spells one of the two words. -/
def actionMatchesRead (action : String) : Bool :=
  let lower := action.toList.map Char.toLower
  lower == "read".toList || lower == "manage".toList

section Narrowing

variable {Item : Type}
variable (casl : Casl Item)

/-- The loop over the subjects for one action of the rule, up to its first hit. -/
def narrowAction (scopeAbility : Ability) (raw : AbilityRule) (action : String) :
    List String → List AbilityRule
  | [] => []
  | subject :: rest =>
      if casl.canType scopeAbility "manage" subject then [{ raw with inverted := false }]
      else if casl.canType scopeAbility "read" subject && actionMatchesRead action then
        [{ raw with action := ["read"], subject := [subject], inverted := false }]
      else narrowAction scopeAbility raw action rest

/-- What is pushed for one rule of the full ability. -/
def narrowRule (scopeAbility : Ability) (raw : AbilityRule) : List AbilityRule :=
  if raw.inverted then [raw]
  else raw.action.flatMap fun action => narrowAction casl scopeAbility raw action raw.subject

def restrictAbilityByScopes (full : Ability) (scopes : List String) : Ability :=
  if scopes = [] then buildAbility []
  else
    let scopeAbility := buildAbility (scopesToAbilityRules scopes)
    buildAbility (full.flatMap (narrowRule casl scopeAbility))

/-- `PermissionService.abilityFor` once the user's ability is there. -/
def scopedAbility (full : Ability) (scopes : Option (List String)) : Ability :=
  match scopes with
  | none => full
  | some [] => full
  | some scopes => restrictAbilityByScopes casl full scopes

end Narrowing

/-! ## What the scopes grant -/

/-- Some scope of the list grants the action on the subject. -/
def grants (scopes : List String) (action subject : String) : Bool :=
  (scopes.filterMap parseApiKeyScope).any fun parsed =>
    (parsed.action.name == action || parsed.action == .manage) && parsed.subject == subject

theorem mem_scopeRulesFrom_iff
    {seen : List ParsedApiKeyScope} {scopes : List String} {rule : AbilityRule} :
    rule ∈ scopeRulesFrom seen scopes ↔
      ∃ parsed ∈ scopes.filterMap parseApiKeyScope, parsed ∉ seen ∧ rule = parsed.rule := by
  induction scopes generalizing seen with
  | nil => simp [scopeRulesFrom]
  | cons scope rest ih =>
      cases hparse : parseApiKeyScope scope with
      | none => simp [scopeRulesFrom, hparse, ih]
      | some parsed =>
          rw [List.filterMap_cons_some hparse]
          simp only [scopeRulesFrom, hparse, List.mem_cons]
          by_cases hseen : parsed ∈ seen
          · rw [if_pos hseen, ih]
            constructor
            · rintro ⟨other, hother, hfresh, rfl⟩
              exact ⟨other, Or.inr hother, hfresh, rfl⟩
            · rintro ⟨other, rfl | hother, hfresh, rfl⟩
              · exact absurd hseen hfresh
              · exact ⟨other, hother, hfresh, rfl⟩
          · rw [if_neg hseen, List.mem_cons, ih]
            constructor
            · rintro (rfl | ⟨other, hother, hfresh, rfl⟩)
              · exact ⟨parsed, Or.inl rfl, hseen, rfl⟩
              · exact ⟨other, Or.inr hother, fun h => hfresh (List.mem_cons_of_mem _ h), rfl⟩
            · rintro ⟨other, rfl | hother, hfresh, rfl⟩
              · exact Or.inl rfl
              · by_cases heq : other = parsed
                · exact Or.inl (by rw [heq])
                · refine Or.inr ⟨other, hother, ?_, rfl⟩
                  rw [List.mem_cons]
                  rintro (h | h)
                  · exact heq h
                  · exact hfresh h

theorem parsedScope_subject
    {verb resource : String} {parsed : ParsedApiKeyScope}
    (h : parsedScope verb resource = some parsed) :
    parsed.subject ≠ "all" := by
  obtain ⟨subject, hlookup, rfl⟩ := Option.map_eq_some_iff.mp h
  have hmem : (resource, subject) ∈ RESOURCE_TO_SUBJECT := by
    obtain ⟨before, after, hsplit, -⟩ := List.lookup_eq_some_iff.mp hlookup
    rw [hsplit]
    exact List.mem_append_right _ List.mem_cons_self
  have hall : ∀ entry ∈ RESOURCE_TO_SUBJECT, entry.2 ≠ "all" := by decide
  exact hall _ hmem

/-- No scope is on every subject. -/
theorem parseApiKeyScope_subject
    {scope : String} {parsed : ParsedApiKeyScope}
    (h : parseApiKeyScope scope = some parsed) :
    parsed.subject ≠ "all" := by
  unfold parseApiKeyScope at h
  split at h
  · simp only at h
    split at h
    · exact parsedScope_subject h
    · split at h
      · exact parsedScope_subject h
      · cases h
  · cases h

theorem ne_all_of_grants
    {scopes : List String} {action subject : String}
    (h : grants scopes action subject = true) :
    subject ≠ "all" := by
  obtain ⟨parsed, hmem, hgrants⟩ := List.any_eq_true.mp h
  obtain ⟨scope, -, hparse⟩ := List.mem_filterMap.mp hmem
  have hsubject : parsed.subject = subject := by simpa using (Bool.and_eq_true_iff.mp hgrants).2
  rw [← hsubject]
  exact parseApiKeyScope_subject hparse

section Narrowing

variable {Item : Type}
variable {casl : Casl Item}

/-- The ability of the scopes checks what the scopes grant. -/
theorem canType_scopesToAbilityRules (scopes : List String) (action subject : String) :
    casl.canType (buildAbility (scopesToAbilityRules scopes)) action subject =
      grants scopes action subject := by
  have hplain : ∀ rule ∈ buildAbility (scopesToAbilityRules scopes), rule.inverted = false := by
    intro rule hrule
    obtain ⟨parsed, -, -, rfl⟩ := mem_scopeRulesFrom_iff.mp hrule
    rfl
  rw [canType_of_plain hplain, Bool.eq_iff_iff, List.any_eq_true]
  unfold grants
  rw [List.any_eq_true]
  have hnames :
      ∀ parsed ∈ scopes.filterMap parseApiKeyScope,
        parsed.rule.names action subject =
          ((parsed.action.name == action || parsed.action == .manage) &&
            parsed.subject == subject) := by
    intro parsed hparsed
    obtain ⟨scope, -, hparse⟩ := List.mem_filterMap.mp hparsed
    have hall := parseApiKeyScope_subject hparse
    have hmanage : ("manage" == parsed.action.name) = (parsed.action == .manage) := by
      cases parsed.action <;> decide
    have hnone : ("all" == parsed.subject) = false := by simpa using hall.symm
    simp only [AbilityRule.names, ParsedApiKeyScope.rule, List.contains_cons, List.contains_nil,
      Bool.or_false, hmanage, hnone]
    rw [Bool.beq_comm, Bool.beq_comm (a := subject)]
  constructor
  · rintro ⟨rule, hrule, hruleNames⟩
    obtain ⟨parsed, hparsed, -, rfl⟩ := mem_scopeRulesFrom_iff.mp hrule
    exact ⟨parsed, hparsed, by rw [← hnames parsed hparsed, hruleNames]⟩
  · rintro ⟨parsed, hparsed, hgrants⟩
    refine ⟨parsed.rule, mem_scopeRulesFrom_iff.mpr ⟨parsed, hparsed, by simp, rfl⟩, ?_⟩
    rw [hnames parsed hparsed, hgrants]

/-! ## What narrowing keeps -/

/-- A scope opens the subject to the action of a rule. -/
def opens (scopes : List String) (action subject : String) : Bool :=
  grants scopes "manage" subject || (grants scopes "read" subject && actionMatchesRead action)

/-- The first subject of the rule a scope opens to the action. -/
def firstOpened (scopes : List String) (rule : AbilityRule) (action : String) : Option String :=
  rule.subject.find? (opens scopes action)

/-- The rule is kept with all its actions and subjects. -/
def KeptWhole (scopes : List String) (rule : AbilityRule) : Prop :=
  scopes = [] ∨
    ∃ action ∈ rule.action, ∃ subject,
      firstOpened scopes rule action = some subject ∧ grants scopes "manage" subject = true

/-- The rule is narrowed to reading the subject. -/
def NarrowedToRead (scopes : List String) (rule : AbilityRule) (subject : String) : Prop :=
  ∃ action ∈ rule.action,
    firstOpened scopes rule action = some subject ∧ grants scopes "manage" subject = false

/-- The conditions and the fields of the rule admit the check. -/
def covers (casl : Casl Item) (check : Check Item) (rule : AbilityRule) : Bool :=
  rule.matchesField casl check.field && rule.matchesConditions casl check.item

/-- An allowing rule that covers the check and that no later denial overrules. -/
def InForce (casl : Casl Item) (rules : List AbilityRule) (check : Check Item)
    (rule : AbilityRule) : Prop :=
  Unoverruled (AbilityRule.applies casl check) AbilityRule.inverted rules rule ∧
    covers casl check rule = true

/-- What narrowing leaves of the rule names the action and the subject. -/
def Survives (scopes : List String) (action subject : String) (rule : AbilityRule) : Prop :=
  (KeptWhole scopes rule ∧ rule.names action subject = true) ∨
    (action = "read" ∧ NarrowedToRead scopes rule subject)

/-- The rules in force at the check are narrowed to what the scopes grant there. -/
structure NarrowsExactly (casl : Casl Item) (rules : List AbilityRule) (scopes : List String)
    (check : Check Item) : Prop where
  /-- No rule rides along on a scope for another of its actions or subjects. -/
  kept_granted :
    ∀ rule, InForce casl rules check rule → KeptWhole scopes rule →
      rule.names check.action check.subject = true →
        grants scopes check.action check.subject = true
  /-- No rule is turned into a reading one that no rule in force names. -/
  read_named :
    ∀ rule, InForce casl rules check rule → check.action = "read" →
      NarrowedToRead scopes rule check.subject →
        ∃ other, InForce casl rules check other ∧ other.names "read" check.subject = true
  /-- What is granted and named stays named. -/
  granted_survives :
    ∀ rule, InForce casl rules check rule → rule.names check.action check.subject = true →
      grants scopes check.action check.subject = true →
        ∃ other, InForce casl rules check other ∧
          Survives scopes check.action check.subject other

variable {subject : String}
variable {scopes : List String}

theorem grants_of_opens {action : String} (h : opens scopes action subject = true) :
    ∃ granted, grants scopes granted subject = true := by
  rcases Bool.or_eq_true_iff.mp h with hmanage | hread
  · exact ⟨_, hmanage⟩
  · exact ⟨_, (Bool.and_eq_true_iff.mp hread).1⟩

theorem narrowAction_eq
    (scopes : List String)
    (raw : AbilityRule)
    (action : String)
    (subjects : List String) :
    narrowAction casl (buildAbility (scopesToAbilityRules scopes)) raw action subjects =
      match subjects.find? (opens scopes action) with
      | none => []
      | some subject =>
          if grants scopes "manage" subject then [{ raw with inverted := false }]
          else [{ raw with action := ["read"], subject := [subject], inverted := false }] := by
  induction subjects with
  | nil => rfl
  | cons subject rest ih =>
      rw [narrowAction, canType_scopesToAbilityRules, canType_scopesToAbilityRules, ih]
      cases hmanage : grants scopes "manage" subject with
      | true =>
          have hopens : opens scopes action subject = true := by simp [opens, hmanage]
          simp [hopens, hmanage]
      | false =>
          have hopens :
              opens scopes action subject =
                (grants scopes "read" subject && actionMatchesRead action) := by
            simp [opens, hmanage]
          cases hread : grants scopes "read" subject && actionMatchesRead action with
          | true => simp [hopens, hread, hmanage]
          | false => simp [hopens, hread]

theorem applies_eq (check : Check Item) (rule : AbilityRule) :
    rule.applies casl check = (rule.names check.action check.subject && covers casl check rule) := by
  unfold AbilityRule.applies covers
  rw [Bool.and_assoc]

/-- A rule that reads one subject names reading it. -/
theorem names_read_iff (hall : subject ≠ "all") (rule : AbilityRule) (action name : String) :
    AbilityRule.names { rule with action := ["read"], subject := [subject], inverted := false }
        action name = true ↔
      action = "read" ∧ name = subject := by
  simp [AbilityRule.names, hall.symm]

/-- What the narrowed rule applies to. -/
theorem any_applies_narrowRule_iff
    {raw : AbilityRule}
    (hscopes : scopes ≠ [])
    (hallows : raw.inverted = false)
    (check : Check Item) :
    (narrowRule casl (buildAbility (scopesToAbilityRules scopes)) raw).any
        (AbilityRule.applies casl check) = true ↔
      covers casl check raw = true ∧ Survives scopes check.action check.subject raw := by
  have hsame : { raw with inverted := false } = raw := by rw [← hallows]
  have hnarrowed :
      ∀ subject,
        covers casl check { raw with action := ["read"], subject := [subject], inverted := false } =
          covers casl check raw := by
    intro subject
    rw [← hsame]
    rfl
  unfold narrowRule
  rw [hallows, if_neg Bool.false_ne_true, List.any_flatMap, List.any_eq_true]
  simp only [narrowAction_eq]
  constructor
  · rintro ⟨action, haction, happlies⟩
    cases hfirst : raw.subject.find? (opens scopes action) with
    | none =>
        rw [hfirst] at happlies
        cases happlies
    | some subject =>
        rw [hfirst] at happlies
        cases hmanage : grants scopes "manage" subject with
        | true =>
            simp only [hmanage, if_true, hsame, List.any_cons, List.any_nil, Bool.or_false,
              applies_eq, Bool.and_eq_true] at happlies
            exact ⟨happlies.2, Or.inl ⟨Or.inr ⟨action, haction, subject, hfirst, hmanage⟩,
              happlies.1⟩⟩
        | false =>
            obtain ⟨granted, hgranted⟩ := grants_of_opens (List.find?_some hfirst)
            simp only [hmanage, Bool.false_eq_true, if_false, List.any_cons, List.any_nil,
              Bool.or_false, applies_eq, Bool.and_eq_true, hnarrowed,
              names_read_iff (ne_all_of_grants hgranted) raw] at happlies
            obtain ⟨⟨hread, rfl⟩, hcovers⟩ := happlies
            exact ⟨hcovers, Or.inr ⟨hread, action, haction, hfirst, hmanage⟩⟩
  · rintro ⟨hcovers, ⟨hkept, hnames⟩ | ⟨hread, action, haction, hfirst, hmanage⟩⟩
    · obtain ⟨action, haction, subject, hfirst, hmanage⟩ := hkept.resolve_left hscopes
      refine ⟨action, haction, ?_⟩
      have hfound : raw.subject.find? (opens scopes action) = some subject := hfirst
      simp [hfound, hmanage, hsame, applies_eq, hnames, hcovers]
    · refine ⟨action, haction, ?_⟩
      have hfound : raw.subject.find? (opens scopes action) = some check.subject := hfirst
      obtain ⟨granted, hgranted⟩ := grants_of_opens (List.find?_some hfound)
      have hnames := (names_read_iff (ne_all_of_grants hgranted) raw check.action
        check.subject).mpr ⟨hread, rfl⟩
      simp [hfound, hmanage, applies_eq, hnarrowed, hnames, hcovers]

/-- Only a subject a scope opens for reading is kept so. -/
theorem NarrowedToRead.grants_read {rule : AbilityRule} (h : NarrowedToRead scopes rule subject) :
    grants scopes "read" subject = true := by
  obtain ⟨action, -, hfirst, hmanage⟩ := h
  have hopens : opens scopes action subject = true := List.find?_some hfirst
  rw [opens, hmanage, Bool.false_or, Bool.and_eq_true] at hopens
  exact hopens.1

theorem not_narrowedToRead_nil {rule : AbilityRule} :
    ¬ NarrowedToRead [] rule subject := by
  intro h
  cases h.grants_read

variable {rules : List AbilityRule}
variable {check : Check Item}

/-- The ability of a user permits what a rule in force names. -/
theorem can_iff :
    casl.can (buildAbility rules) check = true ↔
      ∃ rule, InForce casl rules check rule ∧
        rule.names check.action check.subject = true := by
  refine allowed_iff_exists_unoverruled.trans (exists_congr fun rule => ?_)
  rw [applies_eq, Bool.and_eq_true]
  constructor
  · rintro ⟨hunoverruled, hnames, hcovers⟩
    exact ⟨⟨hunoverruled, hcovers⟩, hnames⟩
  · rintro ⟨⟨hunoverruled, hcovers⟩, hnames⟩
    exact ⟨hunoverruled, hnames, hcovers⟩

/-- The ability of a key permits what survives of a rule in force. -/
theorem can_scopedAbility_iff :
    casl.can (scopedAbility casl (buildAbility rules) (some scopes)) check = true ↔
      ∃ rule, InForce casl rules check rule ∧
        Survives scopes check.action check.subject rule := by
  by_cases hscopes : scopes = []
  · -- without scopes the whole ability is returned
    subst hscopes
    refine can_iff.trans (exists_congr fun rule => and_congr_right fun _ => ?_)
    refine ⟨fun hnames => Or.inl ⟨Or.inl rfl, hnames⟩, ?_⟩
    rintro (⟨-, hnames⟩ | ⟨-, hread⟩)
    · exact hnames
    · exact absurd hread not_narrowedToRead_nil
  · have hrestricted :
        scopedAbility casl (buildAbility rules) (some scopes) =
          rules.flatMap (narrowRule casl (buildAbility (scopesToAbilityRules scopes))) := by
      cases scopes with
      | nil => exact absurd rfl hscopes
      | cons scope rest => rfl
    have hdenial :
        ∀ rule ∈ rules, rule.inverted = true →
          narrowRule casl (buildAbility (scopesToAbilityRules scopes)) rule = [rule] := by
      intro rule _ hinverted
      rw [narrowRule, if_pos hinverted]
    have hallows :
        ∀ rule ∈ rules, rule.inverted = false →
          ∀ rule' ∈ narrowRule casl (buildAbility (scopesToAbilityRules scopes)) rule,
            rule'.inverted = false := by
      intro rule _ hallows rule' hrule'
      rw [narrowRule, hallows, if_neg Bool.false_ne_true] at hrule'
      obtain ⟨action, -, hmem⟩ := List.mem_flatMap.mp hrule'
      rw [narrowAction_eq] at hmem
      split at hmem
      · cases hmem
      · split at hmem
        · rw [List.mem_singleton.mp hmem]
        · rw [List.mem_singleton.mp hmem]
    unfold Casl.can
    rw [hrestricted, allowed_flatMap_iff hdenial hallows]
    refine exists_congr fun rule => ?_
    unfold InForce
    rw [and_assoc]
    refine and_congr_right fun hunoverruled => ?_
    obtain ⟨-, -, -, hrule, -⟩ := hunoverruled
    exact any_applies_narrowRule_iff hscopes hrule check

/-! ## Intersection -/

/-- The ability of a key permits the check when the user's does and a scope grants it. -/
def Intersects (casl : Casl Item) (rules : List AbilityRule) (scopes : List String)
    (check : Check Item) : Prop :=
  casl.can (scopedAbility casl (buildAbility rules) (some scopes)) check = true ↔
    casl.can (buildAbility rules) check = true ∧
      grants scopes check.action check.subject = true

theorem narrowsExactly_of_intersects (h : Intersects casl rules scopes check) :
    NarrowsExactly casl rules scopes check := by
  unfold Intersects at h
  rw [can_scopedAbility_iff, can_iff] at h
  constructor
  · intro rule hforce hkept hnames
    exact (h.mp ⟨rule, hforce, Or.inl ⟨hkept, hnames⟩⟩).2
  · intro rule hforce hread hnarrowed
    obtain ⟨other, hother, hnames⟩ := (h.mp ⟨rule, hforce, Or.inr ⟨hread, hnarrowed⟩⟩).1
    exact ⟨other, hother, hread ▸ hnames⟩
  · intro rule hforce hnames hgrants
    exact h.mpr ⟨⟨rule, hforce, hnames⟩, hgrants⟩

theorem intersects_of_narrowsExactly (h : NarrowsExactly casl rules scopes check) :
    Intersects casl rules scopes check := by
  unfold Intersects
  rw [can_scopedAbility_iff, can_iff]
  constructor
  · rintro ⟨rule, hforce, ⟨hkept, hnames⟩ | ⟨hread, hnarrowed⟩⟩
    · exact ⟨⟨rule, hforce, hnames⟩, h.kept_granted rule hforce hkept hnames⟩
    · obtain ⟨other, hother, hnames⟩ := h.read_named rule hforce hread hnarrowed
      refine ⟨⟨other, hother, hread ▸ hnames⟩, ?_⟩
      rw [hread]
      exact hnarrowed.grants_read
  · rintro ⟨⟨rule, hforce, hnames⟩, hgrants⟩
    exact h.granted_survives rule hforce hnames hgrants

/-- Restriction is the intersection at a check exactly when it narrows exactly there. -/
theorem intersects_iff_narrowsExactly
    (casl : Casl Item)
    (rules : List AbilityRule)
    (scopes : List String)
    (check : Check Item) :
    Intersects casl rules scopes check ↔ NarrowsExactly casl rules scopes check :=
  ⟨narrowsExactly_of_intersects, intersects_of_narrowsExactly⟩

/-! ## Rules from storage -/

theorem actionMatchesRead_toLowerCase (action : DbAction) :
    actionMatchesRead action.toLowerCase = true ↔
      action.toLowerCase = "read" ∨ action.toLowerCase = "manage" := by
  cases action <;> decide

theorem grants_of_grants_manage (h : grants scopes "manage" subject = true) (action : String) :
    grants scopes action subject = true := by
  obtain ⟨parsed, hparsed, hgrants⟩ := List.any_eq_true.mp h
  refine List.any_eq_true.mpr ⟨parsed, hparsed, ?_⟩
  cases hmanage : parsed.action with
  | manage => simpa [hmanage] using hgrants
  | read => simp [hmanage, ScopeAction.name] at hgrants

/-- Scopes that do not grant managing a subject grant at most reading it. -/
theorem eq_read_of_grants
    {action : String}
    (h : grants scopes action subject = true)
    (hmanage : grants scopes "manage" subject = false) :
    action = "read" := by
  obtain ⟨parsed, hparsed, hgrants⟩ := List.any_eq_true.mp h
  have hread := List.any_eq_false.mp hmanage parsed hparsed
  cases haction : parsed.action with
  | manage => simp_all [ScopeAction.name]
  | read => simp_all [ScopeAction.name]

/-- A rule with one action of storage and one named subject is narrowed exactly. -/
theorem survives_iff_of_single
    {rule : AbilityRule} {dbAction : DbAction} {resource : String}
    (hscopes : scopes ≠ [])
    (haction : rule.action = [dbAction.toLowerCase])
    (hsubject : rule.subject = [resource])
    (hresource : resource ≠ "all")
    (action subject : String) :
    Survives scopes action subject rule ↔
      rule.names action subject = true ∧ grants scopes action subject = true := by
  have hnames :
      rule.names action subject = true ↔
        (action = dbAction.toLowerCase ∨ "manage" = dbAction.toLowerCase) ∧
          subject = resource := by
    simp [AbilityRule.names, haction, hsubject, hresource.symm]
  have hfirst :
      ∀ name,
        firstOpened scopes rule dbAction.toLowerCase = some name ↔
          opens scopes dbAction.toLowerCase resource = true ∧ resource = name := by
    intro name
    rw [firstOpened, hsubject, List.find?_singleton]
    split
    · simp_all
    · simp_all
  cases hmanage : grants scopes "manage" resource with
  | true =>
      -- the rule is kept, and everything on its subject is granted
      have hopens : opens scopes dbAction.toLowerCase resource = true := by simp [opens, hmanage]
      have hkept : KeptWhole scopes rule := by
        refine Or.inr ⟨dbAction.toLowerCase, by rw [haction]; exact List.mem_cons_self, resource, ?_⟩
        exact ⟨(hfirst resource).mpr ⟨hopens, rfl⟩, hmanage⟩
      constructor
      · rintro (⟨-, hrule⟩ | ⟨-, other, hother, hopened, hnot⟩)
        · rw [(hnames.mp hrule).2]
          exact ⟨(hnames.mp hrule).2 ▸ hrule, grants_of_grants_manage hmanage action⟩
        · rw [haction, List.mem_singleton] at hother
          subst hother
          rw [← ((hfirst subject).mp hopened).2, hmanage] at hnot
          cases hnot
      · rintro ⟨hrule, -⟩
        exact Or.inl ⟨hkept, hrule⟩
  | false =>
      have hopens :
          opens scopes dbAction.toLowerCase resource = true ↔
            grants scopes "read" resource = true ∧
              (dbAction.toLowerCase = "read" ∨ dbAction.toLowerCase = "manage") := by
        rw [← actionMatchesRead_toLowerCase, ← Bool.and_eq_true]
        simp [opens, hmanage]
      constructor
      · rintro (⟨hscopes' | ⟨other, hother, name, hopened, hgranted⟩, -⟩ |
          ⟨rfl, other, hother, hopened, -⟩)
        · exact absurd hscopes' hscopes
        · rw [haction, List.mem_singleton] at hother
          subst hother
          rw [← ((hfirst name).mp hopened).2, hmanage] at hgranted
          cases hgranted
        · rw [haction, List.mem_singleton] at hother
          subst hother
          obtain ⟨hopened', rfl⟩ := (hfirst subject).mp hopened
          obtain ⟨hread, hverb⟩ := hopens.mp hopened'
          exact ⟨hnames.mpr ⟨hverb.imp Eq.symm Eq.symm, rfl⟩, hread⟩
      · rintro ⟨hrule, hgranted⟩
        obtain ⟨hverb, rfl⟩ := hnames.mp hrule
        obtain rfl := eq_read_of_grants hgranted hmanage
        refine Or.inr ⟨rfl, dbAction.toLowerCase, by rw [haction]; exact List.mem_cons_self, ?_⟩
        exact ⟨(hfirst subject).mpr ⟨hopens.mpr ⟨hgranted, hverb.imp Eq.symm Eq.symm⟩, rfl⟩, hmanage⟩

/-- Rows of storage are narrowed exactly by a key with scopes. -/
theorem intersects_of_resolveDbRules
    {ctx : ResolveContext} {rows : List DbPermissionRow} {rules : List AbilityRule}
    {scopes : List String}
    (hresolve : resolveDbRules ctx rows = .ok rules)
    (hresource : ∀ row ∈ rows, row.resource ≠ "all")
    (hscopes : scopes ≠ [])
    (check : Check Item) :
    Intersects casl rules scopes check := by
  have hsurvives :
      ∀ rule, InForce casl rules check rule →
        (Survives scopes check.action check.subject rule ↔
          rule.names check.action check.subject = true ∧
            grants scopes check.action check.subject = true) := by
    rintro rule ⟨⟨before, after, rfl, -⟩, -⟩
    obtain ⟨row, hrow, hresolved⟩ :=
      exists_row_of_resolveDbRules hresolve rule (List.mem_append_right _ List.mem_cons_self)
    obtain ⟨haction, hsubject, -⟩ := resolveDbRule_ok hresolved
    exact survives_iff_of_single hscopes haction hsubject (hresource row hrow) _ _
  apply intersects_of_narrowsExactly
  constructor
  · intro rule hforce hkept hnames
    exact ((hsurvives rule hforce).mp (Or.inl ⟨hkept, hnames⟩)).2
  · intro rule hforce hread hnarrowed
    have hnames := ((hsurvives rule hforce).mp (Or.inr ⟨hread, hnarrowed⟩)).1
    exact ⟨rule, hforce, hread ▸ hnames⟩
  · intro rule hforce hnames hgrants
    exact ⟨rule, hforce, (hsurvives rule hforce).mpr ⟨hnames, hgrants⟩⟩

end Narrowing

/-- A key that reads invoices and writes files, and the rows of its owner on both. -/
theorem intersects_of_resolveDbRules_invoices :
    let ctx : ResolveContext :=
      { userId := "u1", now := "2026-05-29T12:00:00.000Z", tenantId := none }
    let rows := ["Invoice", "File"].map (memberRow "userId" "$CURRENT_USER")
    let rules := ["Invoice", "File"].map (ownRule "u1")
    resolveDbRules ctx rows = .ok rules ∧
      (∀ row ∈ rows, row.resource ≠ "all") ∧
        Intersects textCasl rules ["read:invoice", "files:write"]
          { action := "update", subject := "File",
            item := some [("userId", "u1")], field := none } := by
  intro ctx rows rules
  have hresolve : resolveDbRules ctx rows = .ok rules := rfl
  have hresource : ∀ row ∈ rows, row.resource ≠ "all" := by decide
  exact ⟨hresolve, hresource, intersects_of_resolveDbRules hresolve hresource (by decide) _⟩

/-- Every action on the subjects, without conditions. -/
def manageRule (subjects : List String) : AbilityRule where
  action := ["manage"]
  subject := subjects
  conditions := none
  fields := []
  inverted := false

/-- A scope on invoices opens examples too, and an empty scope list opens everything. -/
theorem not_intersects_manageRule :
    ¬ Intersects textCasl [manageRule ["Invoice", "Example"]] ["write:invoice"]
        { action := "update", subject := "Example", item := some [("id", "e1")], field := none } ∧
      ¬ Intersects textCasl [manageRule ["Invoice"]] []
        { action := "read", subject := "Invoice", item := some [("id", "i1")], field := none } := by
  unfold Intersects
  decide

end ApiKeyScopes
end NestBase
