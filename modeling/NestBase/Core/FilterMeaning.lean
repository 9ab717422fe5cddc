import NestBase.Core.FilterDsl

/-!
# The meaning of a resolved filter

The resolved conditions should match exactly the items that satisfy the
filter, and no variable should be left in them.

A field with a lone `_eq` or without `_eq` keeps its meaning.  An `_eq` next to
another operator is no operator of the matcher, which then refuses the whole
query.  An `_and` or `_or` list is handed on as the value of a field of that
name, with its filters as they are stored: no item matches it, and its
variables stay.
-/

namespace NestBase
namespace Permissions

open Lib

universe u

/-! ## What is required -/

section Required

variable {Item : Type u}

/-- The conditions match the items that satisfy the filter, and have no variables left. -/
structure Preserves
    (test : String → String → Json → Item → Bool)
    (ctx : ResolveContext)
    (filter : Filter)
    (conditions : List (String × Json)) : Prop where
  matching :
    ∀ item,
      satisfied test ctx item filter = true ↔
        (mongoQueryMatcher test).run conditions item = some true
  noVariable : ctx.Plain → entriesHaveVariable conditions = false

/-- A row with the filter; the resolver does not look at the rest of it. -/
def filterRow (resource : String) (action : DbAction) (fields : List String) (filter : Filter) :
    DbPermissionRow where
  resource := resource
  action := action
  itemFilter := some (filterEntries filter)
  fields := fields

/-- Whatever rule the row is resolved to preserves the filter. -/
def ResolutionPreserves
    (test : String → String → Json → Item → Bool)
    (ctx : ResolveContext)
    (row : DbPermissionRow)
    (filter : Filter) : Prop :=
  ∀ rules, resolveDbRules ctx [row] = .ok rules →
    ∃ rule conditions, rules = [rule] ∧ rule.conditions = some conditions ∧
      Preserves test ctx filter conditions

/-- `_eq` stands alone, and every ordering operand can be compared. -/
def FieldOperators.usable (operators : FieldOperators) : Bool :=
  (operators.others.isEmpty || operators.toList.all fun op => !op.isEq) &&
    operators.toList.all FieldOperator.orders

/-- The clause sets no condition: its name cannot be assigned. -/
def Clause.isDropped : Clause → Bool
  | .field name _ => decide (name = "__proto__")
  | _ => false

def Clause.isList : Clause → Bool
  | .field _ _ => false
  | _ => true

/-- The clause is a field the matcher can run, or one that is dropped. -/
def Clause.translatable : Clause → Bool
  | .field name operators => decide (name = "__proto__") || operators.usable
  | _ => false

/-- The clauses that set a condition. -/
def kept (filter : Filter) : Filter :=
  filter.filter fun clause => !clause.isDropped

/--
Either every clause is translatable and the dropped ones make no difference,
or no item satisfies the filter; and no list has a variable below it.
-/
structure KeepsMeaning
    (test : String → String → Json → Item → Bool)
    (ctx : ResolveContext)
    (filter : Filter) : Prop where
  dropped :
    (filter.all Clause.translatable) = true →
      ∀ item, satisfied test ctx item (kept filter) = true → satisfied test ctx item filter = true
  untranslatable :
    (filter.all Clause.translatable) = false →
      ∀ item, satisfied test ctx item filter = false
  lists :
    ctx.Plain →
      ∀ clause ∈ filter, clause.isList = true → hasVariable (clauseEntry clause).2 = false

end Required

/-! ## Resolved conditions -/

/-- The key of an operator next to others; `_eq` keeps its name. -/
def FieldOperator.key (op : FieldOperator) : String :=
  if op.isEq then op.name else op.mongoName

/-- What the operators of a field are resolved to. -/
def FieldOperators.condition (ctx : ResolveContext) (operators : FieldOperators) : Json :=
  match operators.first, operators.others with
  | .eq operand, [] => replaced ctx operand.toJson
  | _, _ => .obj (operators.toList.map fun op => (op.key, replaced ctx op.operand))

def Clause.conditions (ctx : ResolveContext) : Clause → List (String × Json)
  | .field name operators => setField name (operators.condition ctx) []
  | clause => [clauseEntry clause]

section Resolved

variable {ctx : ResolveContext}

theorem setField_append (field : String) (resolved : Json) (out : List (String × Json)) :
    setField field resolved out = setField field resolved [] ++ out := by
  unfold setField
  split <;> rfl

theorem operatorKey_name (op : FieldOperator) : operatorKey op.name = some op.key := by
  cases op <;> rfl

theorem resolveOperators_entries (htenant : ctx.tenantId.isSome) (operators : List FieldOperator) :
    resolveOperators ctx (operators.map FieldOperator.entry) =
      .ok (operators.map fun op => (op.key, replaced ctx op.operand)) := by
  induction operators with
  | nil => rfl
  | cons op rest ih =>
      simp only [List.map_cons, FieldOperator.entry, resolveOperators, operatorKey_name,
        substituteValue_of_tenant htenant]
      rw [ih]
      rfl

/-- An `_eq` alone. -/
def FieldOperators.lone (operators : FieldOperators) : Prop :=
  operators.first.isEq = true ∧ operators.others = []

/-- Other operators stay a map. -/
theorem condition_of_not_lone {operators : FieldOperators} (hlone : ¬ operators.lone) :
    operators.condition ctx =
      .obj (operators.toList.map fun op => (op.key, replaced ctx op.operand)) := by
  unfold FieldOperators.condition
  split
  · next operand hfirst hothers =>
      refine absurd ⟨?_, hothers⟩ hlone
      rw [hfirst]
      rfl
  · rfl

/-- As no operator occurs twice, some operator of the map is not `_eq`. -/
theorem exists_not_isEq {operators : FieldOperators} (hlone : ¬ operators.lone) :
    ∃ op ∈ operators.toList, op.isEq = false := by
  obtain ⟨first, others, hdistinct⟩ := operators
  cases hfirst : first.isEq with
  | false => exact ⟨first, List.mem_cons_self, hfirst⟩
  | true =>
      cases others with
      | nil => exact absurd ⟨hfirst, rfl⟩ hlone
      | cons second rest =>
          refine ⟨second, List.mem_cons_of_mem _ List.mem_cons_self, ?_⟩
          have hne : first.name ≠ second.name := by
            intro hsame
            rw [List.map_cons, List.map_cons, List.nodup_cons, hsame] at hdistinct
            exact hdistinct.1 List.mem_cons_self
          cases first with
          | eq operand =>
              cases second with
              | eq other => exact absurd rfl hne
              | _ => rfl
          | _ => cases hfirst

theorem resolveFieldFilter_operators (htenant : ctx.tenantId.isSome) (operators : FieldOperators) :
    resolveFieldFilter ctx (.obj (operators.toList.map FieldOperator.entry)) =
      .ok (operators.condition ctx) := by
  by_cases hlone : operators.lone
  · obtain ⟨first, others, hdistinct⟩ := operators
    obtain ⟨heq, rfl⟩ := hlone
    cases first with
    | eq operand => exact substituteValue_of_tenant htenant operand.toJson
    | _ => cases heq
  · have hentries :
        ∀ value, operators.toList.map FieldOperator.entry ≠ [("_eq", value)] := by
      intro value hsame
      simp only [FieldOperators.toList, List.map_cons, List.cons.injEq, List.map_eq_nil_iff,
        FieldOperator.entry, Prod.mk.injEq] at hsame
      refine hlone ⟨?_, hsame.2⟩
      cases hfirst : operators.first with
      | eq operand => rfl
      | _ => simp [hfirst, FieldOperator.name] at hsame
    rw [resolveFieldFilter_obj hentries, resolveOperators_entries htenant,
      condition_of_not_lone hlone]
    rfl

/-- The filters of a list are not substituted. -/
theorem replacedItems_filterObjects (filters : List (List Clause)) :
    replacedItems ctx (filterObjects filters) = filterObjects filters := by
  induction filters with
  | nil => rfl
  | cons filter rest ih =>
      rw [filterObjects, replacedItems, ih]
      rfl

theorem resolveFieldFilter_list (htenant : ctx.tenantId.isSome) (filters : List (List Clause)) :
    resolveFieldFilter ctx (.arr (filterObjects filters)) = .ok (.arr (filterObjects filters)) := by
  have hsubstituted := substituteValue_of_tenant htenant (.arr (filterObjects filters))
  rw [replaced, replacedItems_filterObjects] at hsubstituted
  exact hsubstituted

/-- With a tenant a filter is resolved clause by clause, and nothing throws. -/
theorem resolveFilter_filterEntries (htenant : ctx.tenantId.isSome) (filter : Filter) :
    resolveFilter ctx (filterEntries filter) = .ok (filter.flatMap (Clause.conditions ctx)) := by
  induction filter with
  | nil => rfl
  | cons clause rest ih =>
      rw [filterEntries, List.flatMap_cons]
      cases clause with
      | field name operators =>
          simp only [clauseEntry, resolveFilter, resolveFieldFilter_operators htenant, ih,
            Except.map, Clause.conditions]
          rw [setField_append]
      | allOf filters =>
          simp only [clauseEntry, resolveFilter, resolveFieldFilter_list htenant, ih, Except.map,
            Clause.conditions, setField]
          rfl
      | anyOf filters =>
          simp only [clauseEntry, resolveFilter, resolveFieldFilter_list htenant, ih, Except.map,
            Clause.conditions, setField]
          rfl

end Resolved

/-! ## Matching -/

section Matching

variable {Item : Type u}
variable {test : String → String → Json → Item → Bool}
variable {ctx : ResolveContext}

/-- The parser takes a field operator unless it orders by something else. -/
theorem takes_mongoName (op : FieldOperator) :
    (mongoQueryMatcher test).takes (op.mongoName, replaced ctx op.operand) = op.orders := by
  cases op with
  | eq operand => rfl
  | neq operand => rfl
  | in_ operands => rfl
  | nin operands => rfl
  | lt operand => cases operand <;> rfl
  | lte operand => cases operand <;> rfl
  | gt operand => cases operand <;> rfl
  | gte operand => cases operand <;> rfl

variable {field : String}
variable {item : Item}

/-- A scalar is compared as a whole. -/
theorem passes_scalar_iff (operand : Scalar) :
    (mongoQueryMatcher test).passes field (replaced ctx operand.toJson) item ↔
      test "$eq" field (replaced ctx operand.toJson) item = true := by
  have hplain : (mongoQueryMatcher test).hasOperators (replaced ctx operand.toJson) = false := by
    cases operand <;> rfl
  rw [QueryMatcher.passes_plain_iff hplain]
  have htakes : (mongoQueryMatcher test).takes ("$eq", replaced ctx operand.toJson) = true :=
    takes_mongoName (.eq operand)
  exact and_iff_right htakes

/-- An `_eq` next to other operators is unknown to the parser. -/
theorem takes_key (op : FieldOperator) (operand : Json) :
    (mongoQueryMatcher test).takes (op.key, operand) =
      (!op.isEq && (mongoQueryMatcher test).takes (op.mongoName, operand)) := by
  cases op <;> rfl

/-- A map with an operator of the matcher is passed operator by operator. -/
theorem passes_map_iff {operators : FieldOperators} (hlone : ¬ operators.lone) :
    (mongoQueryMatcher test).passes field (operators.condition ctx) item ↔
      ∀ op ∈ operators.toList,
        op.isEq = false ∧ op.orders = true ∧
          test op.mongoName field (replaced ctx op.operand) item = true := by
  obtain ⟨known, hknown, hnotEq⟩ := exists_not_isEq hlone
  have hoperators :
      (mongoQueryMatcher test).hasOperators
        (.obj (operators.toList.map fun op => (op.key, replaced ctx op.operand))) = true := by
    refine List.any_eq_true.mpr ⟨_, List.mem_map_of_mem hknown, ?_⟩
    cases known with
    | eq operand => cases hnotEq
    | _ => rfl
  rw [condition_of_not_lone hlone]
  unfold QueryMatcher.passes
  rw [QueryMatcher.operatorsOf_map hoperators, List.forall_mem_map]
  refine forall_congr' fun op => imp_congr_right fun _ => ?_
  rw [takes_key, takes_mongoName, Bool.and_eq_true, Bool.not_eq_true', and_assoc]
  refine and_congr_right fun hother => and_congr_right fun _ => ?_
  rw [FieldOperator.key, hother]
  rfl

/-- The resolved operators are passed by the items that satisfy them, if they are usable. -/
theorem passes_condition_iff {operators : FieldOperators} :
    (mongoQueryMatcher test).passes field (operators.condition ctx) item ↔
      operators.usable = true ∧ operators.satisfied test ctx item field = true := by
  by_cases hlone : operators.lone
  · obtain ⟨first, others, hdistinct⟩ := operators
    obtain ⟨heq, rfl⟩ := hlone
    cases first with
    | eq operand =>
        refine (passes_scalar_iff operand).trans ?_
        simp [FieldOperators.usable, FieldOperators.satisfied, FieldOperators.toList,
          FieldOperator.orders, FieldOperator.mongoName, FieldOperator.operand]
    | _ => cases heq
  · have husable :
        operators.usable = true ↔
          (∀ op ∈ operators.toList, op.isEq = false) ∧
            ∀ op ∈ operators.toList, op.orders = true := by
      simp only [FieldOperators.usable, Bool.and_eq_true, Bool.or_eq_true, List.isEmpty_iff,
        List.all_eq_true, Bool.not_eq_true']
      refine and_congr_left fun _ => or_iff_right_of_imp ?_
      intro hothers op hop
      rw [FieldOperators.toList, hothers, List.mem_singleton] at hop
      subst hop
      exact eq_false_of_ne_true fun heq => hlone ⟨heq, hothers⟩
    rw [passes_map_iff hlone, husable, FieldOperators.satisfied, List.all_eq_true]
    constructor
    · intro hpasses
      exact ⟨⟨fun op hop => (hpasses op hop).1, fun op hop => (hpasses op hop).2.1⟩,
        fun op hop => (hpasses op hop).2.2⟩
    · rintro ⟨⟨hother, horders⟩, htests⟩ op hop
      exact ⟨hother op hop, horders op hop, htests op hop⟩

/-- No item passes a list. -/
theorem not_passes_list
    (hreference : ComparesByReference test)
    (field : String)
    (items : List Json)
    (item : Item) :
    ¬ (mongoQueryMatcher test).passes field (.arr items) item := by
  rw [QueryMatcher.passes_plain_iff rfl]
  rintro ⟨-, htest⟩
  have hdiffers : test "$eq" field (.arr items) item = false := hreference.array field items item
  have hequals : test "$eq" field (.arr items) item = true := htest
  rw [hdiffers] at hequals
  cases hequals

/-- What one clause is resolved to is passed by the items that satisfy it, unless it is dropped. -/
theorem passes_conditions_iff (hreference : ComparesByReference test) {clause : Clause} :
    (∀ entry ∈ clause.conditions ctx,
        (mongoQueryMatcher test).passes entry.1 entry.2 item) ↔
      clause.translatable = true ∧
        (clause.isDropped = false → clauseSatisfied test ctx item clause = true) := by
  cases clause with
  | field name operators =>
      by_cases hproto : name = "__proto__"
      · simp [Clause.conditions, Clause.translatable, Clause.isDropped, setField, hproto]
      · simp [Clause.conditions, Clause.translatable, Clause.isDropped, setField, hproto,
          passes_condition_iff, clauseSatisfied]
  | allOf filters =>
      have hnone := not_passes_list hreference "_and" (filterObjects filters) item
      simp [Clause.conditions, Clause.translatable, clauseEntry, hnone]
  | anyOf filters =>
      have hnone := not_passes_list hreference "_or" (filterObjects filters) item
      simp [Clause.conditions, Clause.translatable, clauseEntry, hnone]

theorem run_conditions_iff (hreference : ComparesByReference test) {filter : Filter} :
    (mongoQueryMatcher test).run (filter.flatMap (Clause.conditions ctx)) item = some true ↔
      (filter.all Clause.translatable) = true ∧ satisfied test ctx item (kept filter) = true := by
  rw [QueryMatcher.run_eq_some_true_iff, satisfied_iff, List.all_eq_true]
  constructor
  · intro hpasses
    have hclauses :
        ∀ clause ∈ filter,
          clause.translatable = true ∧
            (clause.isDropped = false → clauseSatisfied test ctx item clause = true) :=
      fun clause hclause => (passes_conditions_iff hreference).mp fun entry hentry =>
        hpasses entry (List.mem_flatMap.mpr ⟨clause, hclause, hentry⟩)
    refine ⟨fun clause hclause => (hclauses clause hclause).1, ?_⟩
    intro clause hkept
    obtain ⟨hclause, hstays⟩ := List.mem_filter.mp hkept
    exact (hclauses clause hclause).2 (by simpa using hstays)
  · rintro ⟨htranslatable, hsatisfied⟩ entry hentry
    obtain ⟨clause, hclause, hin⟩ := List.mem_flatMap.mp hentry
    refine (passes_conditions_iff hreference).mpr ⟨htranslatable clause hclause, ?_⟩ entry hin
    intro hstays
    exact hsatisfied clause (List.mem_filter.mpr ⟨hclause, by simpa using hstays⟩)

end Matching

/-! ## Variables -/

section Variables

variable {ctx : ResolveContext}

theorem hasVariable_replacedText (hplain : ctx.Plain) (htenant : ctx.tenantId.isSome) (s : String) :
    VARIABLES.contains (replacedText ctx s) = false := by
  obtain ⟨tenantId, hsome⟩ := Option.isSome_iff_exists.mp htenant
  unfold replacedText
  split
  · exact hplain.userId
  · next huser =>
      split
      · rw [hsome]
        exact hplain.tenantId tenantId hsome
      · next htenantId =>
          split
          · exact hplain.now
          · next hnow => simp [VARIABLES, huser, htenantId, hnow]

theorem hasVariable_scalar (hplain : ctx.Plain) (htenant : ctx.tenantId.isSome) (operand : Scalar) :
    hasVariable (replaced ctx operand.toJson) = false := by
  cases operand with
  | str s => exact hasVariable_replacedText hplain htenant s
  | _ => rfl

theorem hasVariable_scalars
    (hplain : ctx.Plain)
    (htenant : ctx.tenantId.isSome)
    (operands : List Scalar) :
    hasVariable (replaced ctx (.arr (operands.map Scalar.toJson))) = false := by
  rw [replaced, hasVariable]
  induction operands with
  | nil => rfl
  | cons operand rest ih =>
      rw [List.map_cons, replacedItems, itemsHaveVariable,
        hasVariable_scalar hplain htenant operand, ih]
      rfl

/-- The operands have their variables replaced. -/
theorem hasVariable_operand
    (hplain : ctx.Plain)
    (htenant : ctx.tenantId.isSome)
    (op : FieldOperator) :
    hasVariable (replaced ctx op.operand) = false := by
  cases op with
  | in_ operands => exact hasVariable_scalars hplain htenant operands
  | nin operands => exact hasVariable_scalars hplain htenant operands
  | _ operand => exact hasVariable_scalar hplain htenant operand

theorem entriesHaveVariable_eq_false_iff {entries : List (String × Json)} :
    entriesHaveVariable entries = false ↔ ∀ entry ∈ entries, hasVariable entry.2 = false := by
  induction entries with
  | nil => simp [entriesHaveVariable]
  | cons entry rest ih => simp [entriesHaveVariable, ih]

theorem hasVariable_condition
    (hplain : ctx.Plain)
    (htenant : ctx.tenantId.isSome)
    (operators : FieldOperators) :
    hasVariable (operators.condition ctx) = false := by
  by_cases hlone : operators.lone
  · obtain ⟨first, others, hdistinct⟩ := operators
    obtain ⟨heq, rfl⟩ := hlone
    cases first with
    | eq operand => exact hasVariable_scalar hplain htenant operand
    | _ => cases heq
  · rw [condition_of_not_lone hlone, hasVariable, entriesHaveVariable_eq_false_iff]
    intro entry hentry
    obtain ⟨op, -, rfl⟩ := List.mem_map.mp hentry
    exact hasVariable_operand hplain htenant op

/-- The lists keep the variables they have, and nothing else has any. -/
theorem hasVariable_conditions_iff
    (hplain : ctx.Plain)
    (htenant : ctx.tenantId.isSome)
    {filter : Filter} :
    entriesHaveVariable (filter.flatMap (Clause.conditions ctx)) = false ↔
      ∀ clause ∈ filter, clause.isList = true → hasVariable (clauseEntry clause).2 = false := by
  rw [entriesHaveVariable_eq_false_iff]
  constructor
  · intro hnone clause hclause hlist
    refine hnone (clauseEntry clause) (List.mem_flatMap.mpr ⟨clause, hclause, ?_⟩)
    cases clause with
    | field name operators => cases hlist
    | allOf filters => exact List.mem_singleton_self _
    | anyOf filters => exact List.mem_singleton_self _
  · intro hlists entry hentry
    obtain ⟨clause, hclause, hin⟩ := List.mem_flatMap.mp hentry
    cases clause with
    | field name operators =>
        simp only [Clause.conditions, setField] at hin
        split at hin
        · cases hin
        · rw [List.mem_singleton.mp hin]
          exact hasVariable_condition hplain htenant operators
    | allOf filters =>
        rw [List.mem_singleton.mp hin]
        exact hlists _ hclause rfl
    | anyOf filters =>
        rw [List.mem_singleton.mp hin]
        exact hlists _ hclause rfl

end Variables

/-! ## Rows -/

section Rows

variable {Item : Type u}
variable {ctx : ResolveContext}

theorem satisfied_kept
    {test : String → String → Json → Item → Bool} {item : Item} {filter : Filter}
    (hsatisfied : satisfied test ctx item filter = true) :
    satisfied test ctx item (kept filter) = true := by
  rw [satisfied_iff] at hsatisfied ⊢
  intro clause hclause
  exact hsatisfied clause (List.mem_filter.mp hclause).1

theorem preserves_iff
    {test : String → String → Json → Item → Bool} {filter : Filter}
    (hreference : ComparesByReference test)
    (htenant : ctx.tenantId.isSome) :
    Preserves test ctx filter (filter.flatMap (Clause.conditions ctx)) ↔
      KeepsMeaning test ctx filter := by
  constructor
  · rintro ⟨hmatching, hnone⟩
    simp only [run_conditions_iff hreference] at hmatching
    constructor
    · intro htranslatable item hkept
      exact (hmatching item).mpr ⟨htranslatable, hkept⟩
    · intro huntranslatable item
      refine eq_false_of_ne_true fun hsatisfied => ?_
      have htranslatable := ((hmatching item).mp hsatisfied).1
      rw [huntranslatable] at htranslatable
      cases htranslatable
    · intro hplain
      exact (hasVariable_conditions_iff hplain htenant).mp (hnone hplain)
  · rintro ⟨hdropped, huntranslatable, hlists⟩
    constructor
    · intro item
      rw [run_conditions_iff hreference]
      constructor
      · intro hsatisfied
        refine ⟨?_, satisfied_kept hsatisfied⟩
        refine eq_true_of_ne_false fun hnot => ?_
        have hfails := huntranslatable hnot item
        rw [hsatisfied] at hfails
        cases hfails
      · rintro ⟨htranslatable, hkept⟩
        exact hdropped htranslatable item hkept
    · intro hplain
      exact (hasVariable_conditions_iff hplain htenant).mpr (hlists hplain)

/-- With a tenant the row is resolved to one rule with the translated filter. -/
theorem resolveDbRules_filterRow
    (htenant : ctx.tenantId.isSome)
    (resource : String)
    (action : DbAction)
    (fields : List String)
    (filter : Filter) :
    resolveDbRules ctx [filterRow resource action fields filter] =
      .ok
        [{ action := [action.toLowerCase]
           subject := [resource]
           conditions := some (filter.flatMap (Clause.conditions ctx))
           fields := fields
           inverted := false }] := by
  simp only [resolveDbRules, resolveDbRule, filterRow, resolveFilter_filterEntries htenant]
  rfl

/-- Resolution preserves a filter exactly when the filter keeps its meaning. -/
theorem resolutionPreserves_iff
    (test : String → String → Json → Item → Bool)
    (hreference : ComparesByReference test)
    (ctx : ResolveContext)
    (htenant : ctx.tenantId.isSome)
    (resource : String)
    (action : DbAction)
    (fields : List String)
    (filter : Filter) :
    ResolutionPreserves test ctx (filterRow resource action fields filter) filter ↔
      KeepsMeaning test ctx filter := by
  rw [← preserves_iff hreference htenant]
  constructor
  · intro hpreserves
    obtain ⟨rule, conditions, hrules, hconditions, hpreserved⟩ :=
      hpreserves _ (resolveDbRules_filterRow htenant resource action fields filter)
    rw [List.cons.injEq] at hrules
    rw [← hrules.1, Option.some.injEq] at hconditions
    rw [hconditions]
    exact hpreserved
  · intro hpreserved rules hresolved
    rw [resolveDbRules_filterRow htenant, Except.ok.injEq] at hresolved
    exact ⟨_, _, hresolved.symm, rfl, hpreserved⟩

end Rows

/-! ## Two filters -/

def hasText (operand : Json) (column : Option String) : Bool :=
  match operand, column with
  | .str value, some text => decide (text = value)
  | _, _ => false

/-- Tests of text columns; there are no numbers to order. -/
def textTest (op field : String) (operand : Json) (item : List (String × String)) : Bool :=
  match op, operand with
  | "$eq", operand => hasText operand (item.lookup field)
  | "$ne", operand => !hasText operand (item.lookup field)
  | "$in", .arr operands => operands.any fun operand => hasText operand (item.lookup field)
  | "$nin", .arr operands => !operands.any fun operand => hasText operand (item.lookup field)
  | _, _ => false

theorem comparesByReference_textTest : ComparesByReference textTest where
  array := fun _ _ _ => rfl
  object := fun _ _ _ => rfl

def acmeContext : ResolveContext where
  userId := "u1"
  now := "2026-01-01T00:00:00.000Z"
  tenantId := some "acme"

/-- The user's own rows that are neither drafts nor archived. -/
def ownedFilter : Filter :=
  [.field "ownerId" ⟨.eq (.str "$CURRENT_USER"), [], by decide⟩,
    .field "status" ⟨.neq (.str "draft"), [.nin [.str "archived"]], by decide⟩]

theorem resolutionPreserves_ownedFilter :
    ResolutionPreserves textTest acmeContext (filterRow "Example" .READ [] ownedFilter)
      ownedFilter := by
  refine
    (resolutionPreserves_iff textTest comparesByReference_textTest acmeContext rfl "Example" .READ
      [] ownedFilter).mpr ?_
  constructor
  · intro _ item hsatisfied
    exact hsatisfied
  · intro huntranslatable
    cases huntranslatable
  · intro _ clause hclause hlist
    rcases List.mem_cons.mp hclause with rfl | hrest
    · cases hlist
    · rw [List.mem_singleton.mp hrest] at hlist
      cases hlist

/-- The user's own rows and the public ones. -/
def ownedOrPublic : Filter :=
  [.anyOf
    [[.field "ownerId" ⟨.eq (.str "$CURRENT_USER"), [], by decide⟩],
      [.field "visibility" ⟨.eq (.str "public"), [], by decide⟩]]]

/-- The user's own row satisfies the filter and is not matched. -/
theorem not_resolutionPreserves_ownedOrPublic :
    ¬ ∀ filter : Filter,
      ResolutionPreserves textTest acmeContext (filterRow "Example" .READ [] filter) filter := by
  intro hpreserves
  obtain ⟨rule, conditions, hrules, hconditions, hpreserved⟩ :=
    hpreserves ownedOrPublic _ (resolveDbRules_filterRow rfl "Example" .READ [] ownedOrPublic)
  rw [List.cons.injEq] at hrules
  rw [← hrules.1, Option.some.injEq] at hconditions
  rw [← hconditions] at hpreserved
  have hmatched := (hpreserved.matching [("ownerId", "u1")]).mp rfl
  cases hmatched

end Permissions
end NestBase
