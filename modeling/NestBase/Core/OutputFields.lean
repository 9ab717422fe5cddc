import NestBase.Core.OutputTransparency

/-!
# Fields a response may hold

Given an ability and a subject, a top-level field of the response should be
one the ability lets the caller read.  The pipeline does not ask the ability
about fields; it joins the field lists of the rules that allow reading the
subject.  A rule without a field list, or no rule at all, leaves every field
in, and denials are passed over.

A response honours the fields exactly when every top-level field the ability
refuses is left out by those lists (`fieldsHonoured_iff`), unless the safety
net refuses the whole response.
-/

namespace NestBase
namespace OutputPipeline

open Lib
open Permissions

mutual

/-- The keys of the object, or of the objects in the array. -/
def topKeys : Value → List String
  | .arr items => topItemKeys items
  | .obj entries => entries.map Prod.fst
  | _ => []

def topItemKeys : List Value → List String
  | [] => []
  | item :: rest => topKeys item ++ topItemKeys rest

end

section Fields

variable (toLowerCase : String → String)

/-- An entry under the key is neither removed as a secret nor lost as the prototype. -/
def survives (key : String) : Bool :=
  !named toLowerCase SECRET_FIELD_NAMES key && key ≠ "__proto__"

mutual

/-- A key that is hit stands below keys that survive. -/
def holds (hit : String → Bool) : Value → Bool
  | .arr items => holdsItems hit items
  | .obj entries => holdsEntries hit (fun _ => true) entries
  | _ => false

def holdsItems (hit : String → Bool) : List Value → Bool
  | [] => false
  | item :: rest => holds hit item || holdsItems hit rest

def holdsEntries (hit kept : String → Bool) : List (String × Value) → Bool
  | [] => false
  | (key, child) :: rest =>
      (kept key && survives toLowerCase key && (hit key || holds hit child)) ||
        holdsEntries hit kept rest

end

mutual

/-- The same for a response of which some top-level keys are kept. -/
def topHolds (hit kept : String → Bool) : Value → Bool
  | .arr items => topHoldsItems hit kept items
  | .obj entries => holdsEntries toLowerCase hit kept entries
  | _ => false

def topHoldsItems (hit kept : String → Bool) : List Value → Bool
  | [] => false
  | item :: rest => topHolds hit kept item || topHoldsItems hit kept rest

end

section Pipeline

variable {Item : Type}
variable (casl : Casl Item)

/-- The rule allows reading the subject. -/
def allowsReading (subject : String) (rule : AbilityRule) : Bool :=
  !rule.inverted && rule.names "read" subject

/-- Some rule allows reading the subject, and all that do list fields without the key. -/
def LeftOut (ability : Ability) (subject key : String) : Prop :=
  (∃ rule ∈ ability, allowsReading subject rule = true) ∧
    ∀ rule ∈ ability, allowsReading subject rule = true → rule.fields ≠ [] ∧ key ∉ rule.fields

instance (ability : Ability) (subject key : String) : Decidable (LeftOut ability subject key) :=
  inferInstanceAs (Decidable (_ ∧ _))

/-- The field lists do not leave the key out. -/
def kept (ability : Ability) (subject key : String) : Bool :=
  !decide (LeftOut ability subject key)

/-- In `throw` mode a field with a forbidden name reaches the safety net. -/
def Refused (options : OutputPipelineOptions) (subject : String) (value : Value) : Prop :=
  options.safetyNetMode = .throw ∧
    topHolds toLowerCase (named toLowerCase options.safetyFields) (kept options.ability subject)
      value = true

/-- `ability.can("read", subject, field)` -/
def canReadField (ability : Ability) (subject field : String) : Bool :=
  casl.can ability { action := "read", subject := subject, item := none, field := some field }

/--
Every top-level field that is left is one the ability lets read, and without a
rule that allows reading the subject no field is left.
-/
def FieldsHonoured (options : OutputPipelineOptions) (subject : String) (value : Value) : Prop :=
  ∀ output, run toLowerCase casl options subject value = .ok output →
    (∀ key ∈ topKeys output, canReadField casl options.ability subject key = true) ∧
      ((∀ rule ∈ options.ability, allowsReading subject rule = false) → topKeys output = [])

end Pipeline

end Fields

/-! ## The allowlist -/

section Fields

variable {Item : Type}
variable {casl : Casl Item}

theorem mem_rulesFor_iff
    {ability : Ability} {subject : String} {rule : AbilityRule}
    (hallows : rule.inverted = false) :
    rule ∈ rulesFor casl ability "read" subject ↔
      rule ∈ ability ∧ allowsReading subject rule = true := by
  have hfields : rule.matchesField casl none = true := by
    unfold AbilityRule.matchesField
    split
    · rfl
    · simp [hallows]
  simp [rulesFor, allowsReading, hallows, hfields]

/-- A rule that allows reading the subject is among the rules the loop sees. -/
theorem mem_rulesFor_of_allowsReading
    {ability : Ability} {subject : String} {rule : AbilityRule}
    (hability : rule ∈ ability)
    (hreads : allowsReading subject rule = true) :
    rule.inverted = false ∧ rule ∈ rulesFor casl ability "read" subject := by
  have hallows : rule.inverted = false := by
    simpa using (Bool.and_eq_true_iff.mp hreads).1
  exact ⟨hallows, (mem_rulesFor_iff hallows).mpr ⟨hability, hreads⟩⟩

/-- What the loop over the rules has gathered when it ends. -/
theorem unionFields_spec (rules : List AbilityRule) (union : Option (List String)) (saw : Bool) :
    ((unionFields rules (union, saw)).2 = true ↔
        saw = true ∨ ∃ rule ∈ rules, rule.inverted = false ∧ rule.fields = []) ∧
      ((unionFields rules (union, saw)).1 = none ↔
        union = none ∧ ∀ rule ∈ rules, rule.inverted = false → rule.fields = []) ∧
        ∀ key, key ∈ (unionFields rules (union, saw)).1.getD [] ↔
          key ∈ union.getD [] ∨ ∃ rule ∈ rules, rule.inverted = false ∧ key ∈ rule.fields := by
  induction rules generalizing union saw with
  | nil => simp [unionFields]
  | cons rule rest ih =>
      rw [unionFields]
      cases hinverted : rule.inverted with
      | true => simpa [hinverted] using ih union saw
      | false =>
          by_cases hfields : rule.fields = []
          · simpa [hinverted, hfields] using ih union true
          · have hrest := ih (some (union.getD [] ++ rule.fields)) saw
            simpa [hinverted, hfields, or_assoc] using hrest

/-- The allowlist lets the key pass. -/
def listed (allowed : Option (List String)) (key : String) : Bool :=
  allowed.all fun fields => fields.contains key

/-- A key passes the allowlist unless the field lists leave it out. -/
theorem listed_allowedFields (casl : Casl Item) (ability : Ability) (subject key : String) :
    listed (allowedFields casl ability subject) key = kept ability subject key := by
  obtain ⟨hsaw, hnone, hmem⟩ := unionFields_spec (rulesFor casl ability "read" subject) none false
  unfold allowedFields
  rcases hstate : unionFields (rulesFor casl ability "read" subject) (none, false) with ⟨union, saw⟩
  simp only [hstate] at hsaw hnone hmem
  cases saw with
  | true =>
      -- a rule without a field list opens every field
      obtain ⟨rule, hrule, hallows, hfields⟩ := (hsaw.mp rfl).resolve_left Bool.false_ne_true
      obtain ⟨hability, hreads⟩ := (mem_rulesFor_iff hallows).mp hrule
      have hnot : ¬ LeftOut ability subject key := fun hleft =>
        (hleft.2 rule hability hreads).1 hfields
      simp [listed, kept, hnot]
  | false =>
      have hlists :
          ∀ rule ∈ rulesFor casl ability "read" subject, rule.inverted = false →
            rule.fields ≠ [] := by
        intro rule hrule hallows hfields
        exact Bool.false_ne_true (hsaw.mpr (Or.inr ⟨rule, hrule, hallows, hfields⟩))
      cases union with
      | none =>
          -- no rule allows reading the subject
          have hnot : ¬ LeftOut ability subject key := by
            rintro ⟨⟨rule, hability, hreads⟩, -⟩
            obtain ⟨hallows, hrule⟩ :
                rule.inverted = false ∧ rule ∈ rulesFor casl ability "read" subject :=
              mem_rulesFor_of_allowsReading hability hreads
            exact hlists rule hrule hallows ((hnone.mp rfl).2 rule hrule hallows)
          simp [listed, kept, hnot]
      | some fields =>
          have hleft : LeftOut ability subject key ↔ key ∉ fields := by
            constructor
            · rintro ⟨-, hout⟩ hkey
              obtain hnil | ⟨rule, hrule, hallows, hlisted⟩ := (hmem key).mp hkey
              · cases hnil
              · obtain ⟨hability, hreads⟩ := (mem_rulesFor_iff hallows).mp hrule
                exact (hout rule hability hreads).2 hlisted
            · intro hkey
              constructor
              · by_contra hnoRule
                have hempty : (some fields : Option (List String)) = none := by
                  refine hnone.mpr ⟨trivial, ?_⟩
                  intro rule hrule hallows
                  obtain ⟨hability, hreads⟩ := (mem_rulesFor_iff hallows).mp hrule
                  exact absurd ⟨rule, hability, hreads⟩ hnoRule
                cases hempty
              · intro rule hability hreads
                obtain ⟨hallows, hrule⟩ :
                    rule.inverted = false ∧ rule ∈ rulesFor casl ability "read" subject :=
                  mem_rulesFor_of_allowsReading hability hreads
                refine ⟨hlists rule hrule hallows, ?_⟩
                intro hlisted
                exact hkey ((hmem key).mpr (Or.inr ⟨rule, hrule, hallows, hlisted⟩))
          by_cases hkey : key ∈ fields
          · simp [listed, kept, hleft, hkey]
          · simp [listed, kept, hleft, hkey]

end Fields

/-! ## The keys that are left -/

theorem mem_topItemKeys_iff {items : List Value} {key : String} :
    key ∈ topItemKeys items ↔ ∃ item ∈ items, key ∈ topKeys item := by
  induction items with
  | nil => simp [topItemKeys]
  | cons item rest ih => simp [topItemKeys, ih]

/-- The value is no array and no object. -/
def isLeaf : Value → Bool
  | .arr _ => false
  | .obj _ => false
  | _ => true

/-- A walk that keeps some entries of an object keeps the keys of these at the top. -/
theorem mem_topKeys_walk_iff
    (walk : Value → Value)
    (keeps : String → Prop)
    (hleaf : ∀ value, isLeaf value = true → topKeys (walk value) = [])
    (harr : ∀ items, walk (.arr items) = .arr (items.map walk))
    (hobj : ∀ entries key,
      key ∈ topKeys (walk (.obj entries)) ↔ key ∈ entries.map Prod.fst ∧ keeps key)
    (value : Value)
    (key : String) :
    key ∈ topKeys (walk value) ↔ key ∈ topKeys value ∧ keeps key := by
  have hnothing :
      ∀ value, isLeaf value = true → topKeys value = [] →
        (key ∈ topKeys (walk value) ↔ key ∈ topKeys value ∧ keeps key) := by
    intro value hvalue hempty
    rw [hleaf value hvalue, hempty]
    simp
  induction value using Value.induction with
  | null => exact hnothing _ rfl rfl
  | bool b => exact hnothing _ rfl rfl
  | num text => exact hnothing _ rfl rfl
  | str s => exact hnothing _ rfl rfl
  | date iso => exact hnothing _ rfl rfl
  | arr items ih =>
      rw [harr, topKeys, topKeys, mem_topItemKeys_iff, mem_topItemKeys_iff]
      constructor
      · rintro ⟨walked, hwalked, hkey⟩
        obtain ⟨item, hitem, rfl⟩ := List.mem_map.mp hwalked
        obtain ⟨hkey', hkeeps⟩ := (ih item hitem).mp hkey
        exact ⟨⟨item, hitem, hkey'⟩, hkeeps⟩
      · rintro ⟨⟨item, hitem, hkey⟩, hkeeps⟩
        exact ⟨walk item, List.mem_map_of_mem hitem, (ih item hitem).mpr ⟨hkey, hkeeps⟩⟩
  | obj entries ih => exact hobj entries key

theorem mem_keys_assign_iff {name key : String} {value : Value} {rest : List (String × Value)} :
    key ∈ (assign name value rest).map Prod.fst ↔
      (key = name ∧ name ≠ "__proto__") ∨ key ∈ rest.map Prod.fst := by
  unfold assign
  split
  · next hproto => simp [hproto]
  · next hproto => simp [hproto]

section Fields

variable {toLowerCase : String → String}
variable {fields : List String}
variable {entries : List (String × Value)}
variable {key : String}

theorem mem_keys_removeSecretEntries_iff :
    key ∈ (removeSecretEntries toLowerCase fields entries).map Prod.fst ↔
      key ∈ entries.map Prod.fst ∧
        named toLowerCase fields key = false ∧ key ≠ "__proto__" := by
  induction entries with
  | nil => simp [removeSecretEntries]
  | cons entry rest ih =>
      obtain ⟨name, child⟩ := entry
      rw [removeSecretEntries, List.map_cons, List.mem_cons]
      cases hsecret : named toLowerCase fields name with
      | true =>
          rw [if_pos rfl, ih]
          constructor
          · rintro ⟨hkey, hkeeps⟩
            exact ⟨Or.inr hkey, hkeeps⟩
          · rintro ⟨rfl | hkey, hkeeps⟩
            · rw [hkeeps.1] at hsecret
              cases hsecret
            · exact ⟨hkey, hkeeps⟩
      | false =>
          rw [if_neg Bool.false_ne_true, mem_keys_assign_iff, ih]
          constructor
          · rintro (⟨rfl, hproto⟩ | ⟨hkey, hkeeps⟩)
            · exact ⟨Or.inl rfl, hsecret, hproto⟩
            · exact ⟨Or.inr hkey, hkeeps⟩
          · rintro ⟨rfl | hkey, hkeeps⟩
            · exact Or.inl ⟨rfl, hkeeps.2⟩
            · exact Or.inr ⟨hkey, hkeeps⟩

theorem mem_topKeys_removeSecrets_iff (value : Value) (key : String) :
    key ∈ topKeys (removeSecrets toLowerCase fields value) ↔
      key ∈ topKeys value ∧ named toLowerCase fields key = false ∧ key ≠ "__proto__" := by
  refine mem_topKeys_walk_iff (removeSecrets toLowerCase fields)
    (fun key => named toLowerCase fields key = false ∧ key ≠ "__proto__") ?_ ?_ ?_ value key
  · intro leaf hleaf
    cases leaf with
    | arr items => cases hleaf
    | obj entries => cases hleaf
    | _ => rfl
  · intro items
    rw [removeSecrets, removeSecretItems_eq_map]
  · intro entries key
    rw [removeSecrets]
    exact mem_keys_removeSecretEntries_iff

theorem mem_keys_pickFields_iff :
    key ∈ (pickFields fields entries).map Prod.fst ↔
      key ∈ entries.map Prod.fst ∧ key ∈ fields ∧ key ≠ "__proto__" := by
  induction entries with
  | nil => simp [pickFields]
  | cons entry rest ih =>
      obtain ⟨name, child⟩ := entry
      rw [pickFields, List.map_cons, List.mem_cons]
      by_cases hlisted : name ∈ fields
      · rw [if_pos (List.contains_iff_mem.mpr hlisted), mem_keys_assign_iff, ih]
        constructor
        · rintro (⟨rfl, hproto⟩ | ⟨hkey, hkeeps⟩)
          · exact ⟨Or.inl rfl, hlisted, hproto⟩
          · exact ⟨Or.inr hkey, hkeeps⟩
        · rintro ⟨rfl | hkey, hkeeps⟩
          · exact Or.inl ⟨rfl, hkeeps.2⟩
          · exact Or.inr ⟨hkey, hkeeps⟩
      · rw [if_neg fun h => hlisted (List.contains_iff_mem.mp h), ih]
        constructor
        · rintro ⟨hkey, hkeeps⟩
          exact ⟨Or.inr hkey, hkeeps⟩
        · rintro ⟨rfl | hkey, hkeeps⟩
          · exact absurd hkeeps.1 hlisted
          · exact ⟨hkey, hkeeps⟩

theorem walkFieldItems_eq_map (items : List Value) :
    walkFieldItems fields items = items.map (walkFields fields) := by
  induction items with
  | nil => rfl
  | cons item rest ih => rw [walkFieldItems, ih, List.map_cons]

theorem mem_topKeys_walkFields_iff (value : Value) (key : String) :
    key ∈ topKeys (walkFields fields value) ↔
      key ∈ topKeys value ∧ key ∈ fields ∧ key ≠ "__proto__" := by
  refine mem_topKeys_walk_iff (walkFields fields)
    (fun key => key ∈ fields ∧ key ≠ "__proto__") ?_ ?_ ?_ value key
  · intro leaf hleaf
    cases leaf with
    | arr items => cases hleaf
    | obj entries => cases hleaf
    | _ => rfl
  · intro items
    rw [walkFields, walkFieldItems_eq_map]
  · intro entries key
    rw [walkFields]
    exact mem_keys_pickFields_iff

theorem mem_topKeys_walkAndMask_iff
    {patterns : List (String → Bool)}
    (value : Value)
    (key : String) :
    key ∈ topKeys (walkAndMask toLowerCase fields patterns value) ↔
      key ∈ topKeys value ∧ key ≠ "__proto__" := by
  refine mem_topKeys_walk_iff (walkAndMask toLowerCase fields patterns)
    (fun key => key ≠ "__proto__") ?_ ?_ ?_ value key
  · intro leaf hleaf
    cases leaf with
    | arr items => cases hleaf
    | obj entries => cases hleaf
    | str s =>
        rw [walkAndMask]
        split
        · rfl
        · rfl
    | _ => rfl
  · intro items
    rw [walkAndMask, maskItems_eq_map]
  · intro entries key
    rw [walkAndMask, topKeys]
    induction entries with
    | nil => simp [maskEntries]
    | cons entry rest ih =>
        obtain ⟨name, child⟩ := entry
        rw [maskEntries, mem_keys_assign_iff, ih, List.map_cons, List.mem_cons]
        constructor
        · rintro (⟨rfl, hproto⟩ | ⟨hkey, hproto⟩)
          · exact ⟨Or.inl rfl, hproto⟩
          · exact ⟨Or.inr hkey, hproto⟩
        · rintro ⟨rfl | hkey, hproto⟩
          · exact Or.inl ⟨rfl, hproto⟩
          · exact Or.inr ⟨hkey, hproto⟩

/-! ## What reaches the safety net -/

theorem walkEntriesForFieldHit_assign
    {name : String} {child : Value} {rest : List (String × Value)} :
    (walkEntriesForFieldHit toLowerCase fields (assign name child rest)).isSome =
      ((name ≠ "__proto__" &&
          (named toLowerCase fields name || (walkForFieldHit toLowerCase fields child).isSome)) ||
        (walkEntriesForFieldHit toLowerCase fields rest).isSome) := by
  unfold assign
  by_cases hproto : name = "__proto__"
  · simp [hproto]
  · rw [if_neg hproto, walkEntriesForFieldHit]
    cases hnamed : named toLowerCase fields name with
    | true => simp [hproto]
    | false => simp [hproto, Option.isSome_or]

/-- One entry in front of those the removal of secrets goes on with. -/
theorem isSome_walkEntriesForFieldHit_cons {child : Value} {rest : List (String × Value)}
    (hchild :
      (walkForFieldHit toLowerCase fields
          (removeSecrets toLowerCase SECRET_FIELD_NAMES child)).isSome =
        holds toLowerCase (named toLowerCase fields) child) :
    (walkEntriesForFieldHit toLowerCase fields
        (removeSecretEntries toLowerCase SECRET_FIELD_NAMES ((key, child) :: rest))).isSome =
      ((survives toLowerCase key &&
          (named toLowerCase fields key || holds toLowerCase (named toLowerCase fields) child)) ||
        (walkEntriesForFieldHit toLowerCase fields
          (removeSecretEntries toLowerCase SECRET_FIELD_NAMES rest)).isSome) := by
  rw [removeSecretEntries]
  cases hsecret : named toLowerCase SECRET_FIELD_NAMES key with
  | true => simp [survives, hsecret]
  | false =>
      rw [if_neg Bool.false_ne_true, walkEntriesForFieldHit_assign, hchild]
      simp [survives, hsecret]

/-- The entries the allowlist lets pass. -/
def pickListed (allowed : Option (List String)) (entries : List (String × Value)) :
    List (String × Value) :=
  match allowed with
  | none => entries
  | some names => pickFields names entries

/-- The entries the first two stages leave hold a forbidden name as the response does. -/
theorem isSome_walkEntriesForFieldHit {allowed : Option (List String)}
    (hchildren :
      ∀ entry ∈ entries,
        (walkForFieldHit toLowerCase fields
            (removeSecrets toLowerCase SECRET_FIELD_NAMES entry.2)).isSome =
          holds toLowerCase (named toLowerCase fields) entry.2) :
    (walkEntriesForFieldHit toLowerCase fields
        (removeSecretEntries toLowerCase SECRET_FIELD_NAMES (pickListed allowed entries))).isSome =
      holdsEntries toLowerCase (named toLowerCase fields) (listed allowed) entries := by
  induction entries with
  | nil =>
      cases allowed with
      | none => rfl
      | some names => rfl
  | cons entry rest ih =>
      obtain ⟨key, child⟩ := entry
      have hchild := hchildren (key, child) List.mem_cons_self
      have hrest := ih fun other hother => hchildren other (List.mem_cons_of_mem _ hother)
      rw [holdsEntries, ← hrest]
      cases allowed with
      | none =>
          have hlisted : listed none key = true := rfl
          rw [pickListed, isSome_walkEntriesForFieldHit_cons hchild, hlisted, Bool.true_and]
          rfl
      | some names =>
          have hlisted : listed (some names) key = names.contains key := rfl
          rw [pickListed, pickFields, hlisted]
          cases hcontains : names.contains key with
          | false => simp [pickListed]
          | true =>
              rw [if_pos rfl, assign]
              split
              · next hproto => simp [survives, hproto, pickListed]
              · rw [isSome_walkEntriesForFieldHit_cons hchild, Bool.true_and]
                rfl

theorem isSome_walkItemsForFieldHit
    {walk : Value → Value} {hits : Value → Bool} {items : List Value}
    (h : ∀ item ∈ items, (walkForFieldHit toLowerCase fields (walk item)).isSome = hits item) :
    (walkItemsForFieldHit toLowerCase fields (items.map walk)).isSome = items.any hits := by
  induction items with
  | nil => rfl
  | cons item rest ih =>
      rw [List.map_cons, walkItemsForFieldHit, Option.isSome_or, h item List.mem_cons_self,
        ih fun other hother => h other (List.mem_cons_of_mem _ hother), List.any_cons]

theorem holdsItems_eq_any {hit : String → Bool} (items : List Value) :
    holdsItems toLowerCase hit items = items.any (holds toLowerCase hit) := by
  induction items with
  | nil => rfl
  | cons item rest ih => rw [holdsItems, ih, List.any_cons]

theorem topHoldsItems_eq_any {hit kept : String → Bool} (items : List Value) :
    topHoldsItems toLowerCase hit kept items = items.any (topHolds toLowerCase hit kept) := by
  induction items with
  | nil => rfl
  | cons item rest ih => rw [topHoldsItems, ih, List.any_cons]

theorem isSome_walkForFieldHit_removeSecrets (value : Value) :
    (walkForFieldHit toLowerCase fields
        (removeSecrets toLowerCase SECRET_FIELD_NAMES value)).isSome =
      holds toLowerCase (named toLowerCase fields) value := by
  induction value using Value.induction with
  | null => rfl
  | bool b => rfl
  | num text => rfl
  | str s => rfl
  | date iso => rfl
  | arr items ih =>
      rw [removeSecrets, walkForFieldHit, removeSecretItems_eq_map, holds, holdsItems_eq_any]
      exact isSome_walkItemsForFieldHit ih
  | obj entries ih =>
      rw [removeSecrets, walkForFieldHit, holds]
      have hentries :
          (walkEntriesForFieldHit toLowerCase fields
              (removeSecretEntries toLowerCase SECRET_FIELD_NAMES (pickListed none entries))).isSome =
            holdsEntries toLowerCase (named toLowerCase fields) (listed none) entries :=
        isSome_walkEntriesForFieldHit ih
      exact hentries

/-- The first stage keeps what the allowlist lets pass. -/
def allowlisted (allowed : Option (List String)) (value : Value) : Value :=
  match allowed with
  | none => value
  | some names => walkFields names value

theorem isSome_walkForFieldHit_allowlisted (allowed : Option (List String)) (value : Value) :
    (walkForFieldHit toLowerCase fields
        (removeSecrets toLowerCase SECRET_FIELD_NAMES (allowlisted allowed value))).isSome =
      topHolds toLowerCase (named toLowerCase fields) (listed allowed) value := by
  induction value using Value.induction with
  | null => cases allowed <;> rfl
  | bool b => cases allowed <;> rfl
  | num text => cases allowed <;> rfl
  | str s => cases allowed <;> rfl
  | date iso => cases allowed <;> rfl
  | arr items ih =>
      have harr : allowlisted allowed (.arr items) = .arr (items.map (allowlisted allowed)) := by
        cases allowed with
        | none => exact congrArg Value.arr (List.map_id items).symm
        | some names => exact congrArg Value.arr (walkFieldItems_eq_map items)
      rw [harr, removeSecrets, walkForFieldHit, removeSecretItems_eq_map, List.map_map, topHolds,
        topHoldsItems_eq_any]
      exact isSome_walkItemsForFieldHit ih
  | obj entries ih =>
      have hobj : allowlisted allowed (.obj entries) = .obj (pickListed allowed entries) := by
        cases allowed with
        | none => rfl
        | some names => rw [allowlisted, walkFields, pickListed]
      rw [hobj, removeSecrets, walkForFieldHit, topHolds]
      exact isSome_walkEntriesForFieldHit fun entry _ =>
        isSome_walkForFieldHit_removeSecrets entry.2

/-! ## Runs of the pipeline -/

section Pipeline

variable {Item : Type}
variable {casl : Casl Item}

theorem mem_topKeys_allowlisted_iff
    (casl : Casl Item)
    (ability : Ability)
    (subject : String)
    (value : Value)
    (key : String) :
    (key ∈ topKeys (applyFieldAllowlist casl ability subject value) ∧ key ≠ "__proto__") ↔
      key ∈ topKeys value ∧ kept ability subject key = true ∧ key ≠ "__proto__" := by
  rw [← listed_allowedFields casl, applyFieldAllowlist]
  cases allowedFields casl ability subject with
  | none => simp [listed]
  | some names =>
      simp only [mem_topKeys_walkFields_iff, listed, Option.all_some, List.contains_iff_mem]
      constructor
      · rintro ⟨⟨hkey, hlisted, hproto⟩, -⟩
        exact ⟨hkey, hlisted, hproto⟩
      · rintro ⟨hkey, hlisted, hproto⟩
        exact ⟨⟨hkey, hlisted, hproto⟩, hproto⟩

/-- Without patterns the safety net lets a value pass unless it has a forbidden name. -/
theorem applySafetyNet_throw (value : Value) :
    applySafetyNet toLowerCase value { mode := .throw, fields := fields } =
      match walkForFieldHit toLowerCase fields value with
      | some field => .error (safetyNetViolation field)
      | none => .ok value := by
  unfold applySafetyNet
  cases walkForFieldHit toLowerCase fields value with
  | some field => rfl
  | none => rfl

/-- What reaches the safety net. -/
def stage3 (toLowerCase : String → String) (casl : Casl Item) (ability : Ability)
    (subject : String) (value : Value) : Value :=
  removeSecrets toLowerCase SECRET_FIELD_NAMES (applyFieldAllowlist casl ability subject value)

theorem isSome_walkForFieldHit_stage3
    (toLowerCase : String → String)
    (casl : Casl Item)
    (fields : List String)
    (ability : Ability)
    (subject : String)
    (value : Value) :
    (walkForFieldHit toLowerCase fields (stage3 toLowerCase casl ability subject value)).isSome =
      topHolds toLowerCase (named toLowerCase fields) (kept ability subject) value := by
  have hlisted : listed (allowedFields casl ability subject) = kept ability subject :=
    funext fun key => listed_allowedFields casl ability subject key
  rw [← hlisted]
  exact isSome_walkForFieldHit_allowlisted (allowedFields casl ability subject) value

variable {subject : String}

theorem run_of_not_refused
    (casl : Casl Item)
    {options : OutputPipelineOptions} {value : Value}
    (h : ¬ Refused toLowerCase options subject value) :
    ∃ output, run toLowerCase casl options subject value = .ok output := by
  have hrun :
      run toLowerCase casl options subject value =
        applySafetyNet toLowerCase (stage3 toLowerCase casl options.ability subject value)
          { mode := options.safetyNetMode, fields := options.safetyFields } :=
    rfl
  rw [hrun]
  cases hmode : options.safetyNetMode with
  | mask => exact ⟨_, rfl⟩
  | throw =>
      rw [applySafetyNet_throw]
      cases hhit : walkForFieldHit toLowerCase options.safetyFields
          (stage3 toLowerCase casl options.ability subject value) with
      | none => exact ⟨_, rfl⟩
      | some field =>
          have hholds :
              topHolds toLowerCase (named toLowerCase options.safetyFields)
                (kept options.ability subject) value = true := by
            rw [← isSome_walkForFieldHit_stage3 toLowerCase casl, hhit]
            rfl
          exact absurd ⟨hmode, hholds⟩ h

/-- A refused response has no output, and another keeps the kept keys that survive. -/
theorem mem_topKeys_run_iff
    {options : OutputPipelineOptions} {value output : Value}
    (h : run toLowerCase casl options subject value = .ok output)
    (key : String) :
    ¬ Refused toLowerCase options subject value ∧
      (key ∈ topKeys output ↔
        key ∈ topKeys value ∧ kept options.ability subject key = true ∧
          survives toLowerCase key = true) := by
  have hstage3 :
      key ∈ topKeys (stage3 toLowerCase casl options.ability subject value) ↔
        key ∈ topKeys value ∧ kept options.ability subject key = true ∧
          survives toLowerCase key = true := by
    have hallowlisted :=
      mem_topKeys_allowlisted_iff casl options.ability subject value key
    rw [stage3, mem_topKeys_removeSecrets_iff]
    simp only [survives, Bool.and_eq_true, Bool.not_eq_true', decide_eq_true_eq]
    constructor
    · rintro ⟨hkey, hsecret, hproto⟩
      obtain ⟨hkey', hkept, -⟩ := hallowlisted.mp ⟨hkey, hproto⟩
      exact ⟨hkey', hkept, hsecret, hproto⟩
    · rintro ⟨hkey, hkept, hsecret, hproto⟩
      exact ⟨(hallowlisted.mpr ⟨hkey, hkept, hproto⟩).1, hsecret, hproto⟩
  have hrun :
      applySafetyNet toLowerCase (stage3 toLowerCase casl options.ability subject value)
        { mode := options.safetyNetMode, fields := options.safetyFields } = .ok output :=
    h
  cases hmode : options.safetyNetMode with
  | mask =>
      rw [hmode] at hrun
      cases hrun
      refine ⟨fun hrefused => ?_, ?_⟩
      · rw [hrefused.1] at hmode
        cases hmode
      · rw [mem_topKeys_walkAndMask_iff, hstage3]
        simp only [survives, Bool.and_eq_true, decide_eq_true_eq]
        constructor
        · rintro ⟨hkept, -⟩
          exact hkept
        · intro hkept
          exact ⟨hkept, hkept.2.2.2⟩
  | throw =>
      rw [hmode, applySafetyNet_throw] at hrun
      have hhit :=
        isSome_walkForFieldHit_stage3 toLowerCase casl options.safetyFields options.ability subject
          value
      cases hwalk : walkForFieldHit toLowerCase options.safetyFields
          (stage3 toLowerCase casl options.ability subject value) with
      | some field =>
          rw [hwalk] at hrun
          cases hrun
      | none =>
          rw [hwalk] at hrun hhit
          cases hrun
          refine ⟨fun hrefused => ?_, hstage3⟩
          rw [hrefused.2] at hhit
          cases hhit

/-- Without a rule that allows reading the subject the ability refuses every field. -/
theorem canReadField_of_no_rule
    {ability : Ability}
    (h : ∀ rule ∈ ability, allowsReading subject rule = false)
    (key : String) :
    canReadField casl ability subject key = false := by
  by_contra hcan
  rw [Bool.not_eq_false] at hcan
  obtain ⟨rule, ⟨before, after, rfl, hallows, -⟩, happlies⟩ :=
    allowed_iff_exists_unoverruled.mp hcan
  have hreads := h rule (List.mem_append_right _ List.mem_cons_self)
  rw [allowsReading, hallows] at hreads
  simp only [AbilityRule.applies, Bool.and_eq_true] at happlies
  rw [happlies.1.1] at hreads
  cases hreads

/-- The fields are honoured exactly when the lists leave every refused field out. -/
theorem fieldsHonoured_iff
    (toLowerCase : String → String)
    (casl : Casl Item)
    (options : OutputPipelineOptions)
    (subject : String)
    (value : Value) :
    FieldsHonoured toLowerCase casl options subject value ↔
      Refused toLowerCase options subject value ∨
        ∀ key ∈ topKeys value, survives toLowerCase key = true →
          canReadField casl options.ability subject key = false →
            LeftOut options.ability subject key := by
  constructor
  · intro hhonoured
    by_cases hrefused : Refused toLowerCase options subject value
    · exact Or.inl hrefused
    · obtain ⟨output, hrun⟩ := run_of_not_refused casl hrefused
      refine Or.inr ?_
      intro key hkey hsurvives hcan
      by_contra hleft
      have hkept : kept options.ability subject key = true := by simpa [kept] using hleft
      have hout : key ∈ topKeys output :=
        (mem_topKeys_run_iff hrun key).2.mpr ⟨hkey, hkept, hsurvives⟩
      rw [(hhonoured output hrun).1 key hout] at hcan
      cases hcan
  · rintro hcondition output hrun
    have hallowed : ∀ key ∈ topKeys output, canReadField casl options.ability subject key = true := by
      intro key hkey
      obtain ⟨hnot, hkeys⟩ := mem_topKeys_run_iff hrun key
      obtain ⟨hkey', hkept, hsurvives⟩ := hkeys.mp hkey
      by_contra hcan
      rw [Bool.not_eq_true] at hcan
      have hleft := hcondition.resolve_left hnot key hkey' hsurvives hcan
      simp [kept, hleft] at hkept
    refine ⟨hallowed, ?_⟩
    intro hnoRule
    refine List.eq_nil_iff_forall_not_mem.mpr fun key hkey => ?_
    have hcan := hallowed key hkey
    rw [canReadField_of_no_rule hnoRule key] at hcan
    cases hcan

end Pipeline

end Fields

/-! ## A denied field -/

/-- Reading the subject, or a denial of reading one of its fields. -/
def readRule (inverted : Bool) (fields : List String) : AbilityRule where
  action := ["read"]
  subject := ["User"]
  conditions := none
  fields := fields
  inverted := inverted

def personResponse : Value :=
  .obj [("id", .str "u1"), ("ssn", .str "123-45-6789")]

/-- A denied field is left in, and so is every field for a caller who may read nothing. -/
theorem not_fieldsHonoured_personResponse :
    ¬ FieldsHonoured asciiLower textCasl
        { ability := [readRule false [], readRule true ["ssn"]] } "User" personResponse ∧
      ¬ FieldsHonoured asciiLower textCasl { ability := [] } "User" personResponse := by
  constructor
  · intro hhonoured
    have hrun :
        run asciiLower textCasl { ability := [readRule false [], readRule true ["ssn"]] } "User"
          personResponse = .ok personResponse := by
      rfl
    have hcan := (hhonoured personResponse hrun).1 "ssn" (by decide)
    revert hcan
    decide
  · intro hhonoured
    have hrun :
        run asciiLower textCasl { ability := [] } "User" personResponse = .ok personResponse := by
      rfl
    have hcan := (hhonoured personResponse hrun).1 "id" (by decide)
    revert hcan
    decide

end OutputPipeline
end NestBase
