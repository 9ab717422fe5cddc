import NestBase.Core.FilterMeaning
import NestBase.Core.PermissionStorage

/-!
# Grants of a stored item filter

A permission that is created with an item filter should not allow its action
on every item.  The filter passes three checks of its shape: what `create`
stores, what a row of the table is read as, and what the resolver makes of it.
A filter that is no object is lost in the first or the second, and the rule
has no conditions.

`FilterNarrows` says in terms of the body when something of the filter is
left that excludes an item.
-/

namespace NestBase
namespace Permissions

open Lib

universe u

section Grants

variable {Item : Type u}
variable (test : String → String → Json → Item → Bool)

/-! ## What is required -/

/-- The rule has conditions, and some item does not match them. -/
def GrantsNarrowly (rule : AbilityRule) : Prop :=
  ∃ conditions, rule.conditions = some conditions ∧
    ∃ item, (mongoQueryMatcher test).run conditions item ≠ some true

/-- The operator of a query for an operator of the filter; `_eq` has none. -/
def mongoKey (op : String) : Option String :=
  (OPERATOR_MAP.lookup op).join

/-- No operator, one without an operator of the query, or one that excludes an item. -/
def OperatorsNarrow (ctx : ResolveContext) (field : String) (operators : List (String × Json)) :
    Prop :=
  operators = [] ∨
    ∃ entry ∈ operators,
      mongoKey entry.1 = none ∨
        ∃ key, mongoKey entry.1 = some key ∧
          (mongoQueryMatcher test).Excludes field (key, replaced ctx entry.2)

/-- One entry of the filter, with its variables replaced, excludes an item. -/
def EntryNarrows (ctx : ResolveContext) (field : String) : Json → Prop
  | .obj [("_eq", operand)] => (mongoQueryMatcher test).ValueExcludes field (replaced ctx operand)
  | .obj operators => OperatorsNarrow test ctx field operators
  | raw => (mongoQueryMatcher test).ValueExcludes field (replaced ctx raw)

/-- The filter is an object, and one of its entries excludes an item. -/
def FilterNarrows (ctx : ResolveContext) : Option Json → Prop
  | some (.obj entries) =>
      ∃ entry ∈ entries, entry.1 ≠ "__proto__" ∧ EntryNarrows test ctx entry.1 entry.2
  | _ => False

variable {test}
variable {ctx : ResolveContext}

/-! ## Keys of operators -/

variable {op key field : String}

theorem mem_of_lookup
    {pairs : List (String × Option String)} {mapped : Option String}
    (hfound : pairs.lookup op = some mapped) :
    (op, mapped) ∈ pairs := by
  induction pairs with
  | nil => cases hfound
  | cons pair rest ih =>
      rw [List.lookup_cons] at hfound
      split at hfound
      · next hsame =>
          cases hfound
          rw [eq_of_beq hsame]
          exact List.mem_cons_self
      · exact List.mem_cons_of_mem _ (ih hfound)

theorem mem_of_mongoKey (hkey : mongoKey op = some key) :
    (op, some key) ∈ OPERATOR_MAP :=
  mem_of_lookup (Option.join_eq_some_iff.mp hkey)

/-- An operator with a key of the query is resolved to it. -/
theorem operatorKey_of_mongoKey (hkey : mongoKey op = some key) :
    operatorKey op = some key ∧ key ∈ CASL_OPERATORS := by
  have hlookup : OPERATOR_MAP.lookup op = some (some key) := Option.join_eq_some_iff.mp hkey
  refine ⟨?_, ?_⟩
  · unfold operatorKey
    rw [hlookup]
    rfl
  · have hall :
        ∀ pair ∈ OPERATOR_MAP, ∀ mapped, pair.2 = some mapped → mapped ∈ CASL_OPERATORS := by
      decide
    exact hall _ (mem_of_mongoKey hkey) key rfl

/-- The text of a function begins with its keyword, an operator with a dollar sign. -/
theorem nativeCode_unknown (name : String) : nativeCode name ∉ CASL_OPERATORS := by
  intro hmem
  have hdollar : ∀ op ∈ CASL_OPERATORS, op.toList.head? = some '$' := by
    decide
  have hhead := hdollar _ hmem
  simp [nativeCode] at hhead

theorem inheritedKey_cases {name : String} (hkey : inheritedKey name = some key) :
    key = "[object Object]" ∨ ∃ native, key = nativeCode native := by
  unfold inheritedKey at hkey
  split at hkey
  · exact Or.inl (Option.some.inj hkey).symm
  · split at hkey
    · exact Or.inr ⟨"Object", (Option.some.inj hkey).symm⟩
    · split at hkey
      · exact Or.inr ⟨name, (Option.some.inj hkey).symm⟩
      · cases hkey

/-- Every other operator is resolved to a key the matcher does not know. -/
theorem unknown_of_operatorKey (hnone : mongoKey op = none) (hkey : operatorKey op = some key) :
    key ∉ CASL_OPERATORS := by
  unfold operatorKey at hkey
  cases hlookup : OPERATOR_MAP.lookup op with
  | some mapped =>
      simp only [hlookup, Option.some.injEq] at hkey
      have hmapped : mapped = none := by
        unfold mongoKey at hnone
        rw [hlookup] at hnone
        exact hnone
      rw [hmapped] at hlookup hkey
      have hstripped : ∀ pair ∈ OPERATOR_MAP, pair.2 = none → pair.1 ∉ CASL_OPERATORS := by
        decide
      rw [← hkey]
      exact hstripped _ (mem_of_lookup hlookup) rfl
  | none =>
      simp only [hlookup] at hkey
      rcases inheritedKey_cases hkey with rfl | ⟨name, rfl⟩
      · decide
      · exact nativeCode_unknown name

/-! ## Resolved fields -/

variable {entries conditions : List (String × Json)}

theorem resolveOperators_ok
    (htenant : ctx.tenantId.isSome)
    {resolved : List (String × Json)}
    (hresolved : resolveOperators ctx entries = .ok resolved) :
    resolved =
        entries.map (fun entry => ((operatorKey entry.1).getD entry.1, replaced ctx entry.2)) ∧
      ∀ entry ∈ entries, (operatorKey entry.1).isSome := by
  induction entries generalizing resolved with
  | nil =>
      cases hresolved
      refine ⟨rfl, ?_⟩
      intro entry hentry
      cases hentry
  | cons entry rest ih =>
      obtain ⟨op, value⟩ := entry
      simp only [resolveOperators, substituteValue_of_tenant htenant] at hresolved
      cases hkey : operatorKey op with
      | none => simp [hkey] at hresolved
      | some key =>
          cases hrest : resolveOperators ctx rest with
          | error message => simp [hkey, hrest, Except.map] at hresolved
          | ok others =>
              simp only [hkey, hrest, Except.map, Except.ok.injEq] at hresolved
              obtain ⟨rfl, hknown⟩ := ih hrest
              subst hresolved
              refine ⟨by simp [hkey], ?_⟩
              intro other hother
              rcases List.mem_cons.mp hother with rfl | hin
              · rw [hkey]
                rfl
              · exact hknown other hin

/-- An operator of a resolved map. -/
def resolvedOperator (ctx : ResolveContext) (entry : String × Json) : String × Json :=
  ((operatorKey entry.1).getD entry.1, replaced ctx entry.2)

theorem excludes_resolvedOperator_iff
    {entry : String × Json}
    (hknown : (operatorKey entry.1).isSome) :
    (mongoQueryMatcher test).Excludes field (resolvedOperator ctx entry) ↔
      mongoKey entry.1 = none ∨
        ∃ key, mongoKey entry.1 = some key ∧
          (mongoQueryMatcher test).Excludes field (key, replaced ctx entry.2) := by
  obtain ⟨resolvedKey, hresolved⟩ := Option.isSome_iff_exists.mp hknown
  cases hkey : mongoKey entry.1 with
  | none =>
      have hunknown := unknown_of_operatorKey hkey hresolved
      refine iff_of_true (Or.inl ?_) (Or.inl rfl)
      simp [QueryMatcher.takes, mongoQueryMatcher, resolvedOperator, hresolved, hunknown]
  | some key =>
      simp [resolvedOperator, (operatorKey_of_mongoKey hkey).1]

/-- A map without an operator of the query is compared as an object, which excludes every item. -/
theorem valueExcludes_plain
    [Inhabited Item]
    (hreference : ComparesByReference test)
    (hplain : (mongoQueryMatcher test).hasOperators (.obj entries) = false) :
    (mongoQueryMatcher test).ValueExcludes field (.obj entries) := by
  unfold QueryMatcher.ValueExcludes
  rw [QueryMatcher.operatorsOf_plain hplain]
  exact ⟨_, List.mem_singleton_self _, Or.inr ⟨default, hreference.object field entries default⟩⟩

theorem valueExcludes_operators_iff
    [Inhabited Item]
    (hreference : ComparesByReference test)
    (htenant : ctx.tenantId.isSome)
    {resolved : List (String × Json)}
    (hresolved : resolveOperators ctx entries = .ok resolved) :
    (mongoQueryMatcher test).ValueExcludes field (.obj resolved) ↔
      OperatorsNarrow test ctx field entries := by
  obtain ⟨hmapped, hknown⟩ := resolveOperators_ok htenant hresolved
  have hresolvedAs : resolved = entries.map (resolvedOperator ctx) := hmapped
  subst hresolvedAs
  cases hoperators :
      (mongoQueryMatcher test).hasOperators (.obj (entries.map (resolvedOperator ctx))) with
  | true =>
      have hnonempty : entries ≠ [] := by
        rintro rfl
        cases hoperators
      unfold QueryMatcher.ValueExcludes OperatorsNarrow
      rw [QueryMatcher.operatorsOf_map hoperators, or_iff_right hnonempty]
      simp only [List.mem_map, exists_exists_and_eq_and]
      refine exists_congr fun entry => and_congr_right fun hentry => ?_
      exact excludes_resolvedOperator_iff (hknown entry hentry)
  | false =>
      refine iff_of_true (valueExcludes_plain hreference hoperators) ?_
      unfold OperatorsNarrow
      rw [or_iff_not_imp_left]
      intro hnonempty
      obtain ⟨entry, hentry⟩ := List.exists_mem_of_ne_nil entries hnonempty
      refine ⟨entry, hentry, Or.inl ?_⟩
      -- A key of the query would make the map one of operators.
      refine Option.eq_none_iff_forall_ne_some.mpr fun key hkey => ?_
      obtain ⟨hresolvedKey, hmem⟩ := operatorKey_of_mongoKey hkey
      have hhas :
          (mongoQueryMatcher test).hasOperators (.obj (entries.map (resolvedOperator ctx))) =
            true := by
        refine List.any_eq_true.mpr ⟨_, List.mem_map_of_mem hentry, ?_⟩
        simp [resolvedOperator, hresolvedKey, mongoQueryMatcher, hmem]
      rw [hoperators] at hhas
      cases hhas

theorem entryNarrows_obj (hlone : ∀ operand, entries ≠ [("_eq", operand)]) :
    EntryNarrows test ctx field (.obj entries) = OperatorsNarrow test ctx field entries := by
  unfold EntryNarrows
  split
  · next operand heq =>
      injection heq with heq
      exact absurd heq (hlone operand)
  · next other _ heq =>
      injection heq with heq
      rw [heq]
  · next hraw => exact absurd rfl (hraw entries)

/-- What an entry is resolved to excludes an item exactly when the entry does. -/
theorem valueExcludes_iff
    [Inhabited Item]
    (hreference : ComparesByReference test)
    (htenant : ctx.tenantId.isSome)
    {raw resolved : Json}
    (hresolved : resolveFieldFilter ctx raw = .ok resolved) :
    (mongoQueryMatcher test).ValueExcludes field resolved ↔ EntryNarrows test ctx field raw := by
  have hreplaced : ∀ {value other : Json},
      substituteValue ctx value = .ok other → other = replaced ctx value := by
    intro value other hvalue
    rw [substituteValue_of_tenant htenant, Except.ok.injEq] at hvalue
    exact hvalue.symm
  cases raw with
  | obj entries =>
      by_cases hlone : ∃ operand, entries = [("_eq", operand)]
      · obtain ⟨operand, rfl⟩ := hlone
        rw [hreplaced hresolved]
        rfl
      · have hentries : ∀ operand, entries ≠ [("_eq", operand)] :=
          fun operand heq => hlone ⟨operand, heq⟩
        rw [entryNarrows_obj hentries]
        rw [resolveFieldFilter_obj hentries] at hresolved
        cases hoperators : resolveOperators ctx entries with
        | error message => simp [hoperators, Except.map] at hresolved
        | ok operators =>
            simp only [hoperators, Except.map, Except.ok.injEq] at hresolved
            rw [← hresolved]
            exact valueExcludes_operators_iff hreference htenant hoperators
  | null =>
      rw [hreplaced hresolved]
      rfl
  | bool b =>
      rw [hreplaced hresolved]
      rfl
  | num text =>
      rw [hreplaced hresolved]
      rfl
  | str s =>
      rw [hreplaced hresolved]
      rfl
  | arr items =>
      rw [hreplaced hresolved]
      rfl

theorem resolveFilter_cons_ok
    {raw : Json} {rest : List (String × Json)}
    (hresolved : resolveFilter ctx ((field, raw) :: rest) = .ok conditions) :
    ∃ resolved others,
      resolveFieldFilter ctx raw = .ok resolved ∧ resolveFilter ctx rest = .ok others ∧
        conditions = setField field resolved others := by
  rw [resolveFilter] at hresolved
  cases hraw : resolveFieldFilter ctx raw with
  | error message => simp [hraw] at hresolved
  | ok resolved =>
      cases hrest : resolveFilter ctx rest with
      | error message => simp [hraw, hrest, Except.map] at hresolved
      | ok others =>
          simp only [hraw, hrest, Except.map, Except.ok.injEq] at hresolved
          exact ⟨resolved, others, rfl, rfl, hresolved.symm⟩

theorem mem_setField_iff {resolved : Json} {out : List (String × Json)} {clause : String × Json} :
    clause ∈ setField field resolved out ↔
      (field ≠ "__proto__" ∧ clause = (field, resolved)) ∨ clause ∈ out := by
  unfold setField
  split
  · next hproto => simp [hproto]
  · next hname => simp [hname]

/-- The conditions are the entries that can be assigned, each resolved. -/
theorem mem_resolveFilter_iff
    (hresolved : resolveFilter ctx entries = .ok conditions)
    {clause : String × Json} :
    clause ∈ conditions ↔
      ∃ entry ∈ entries, entry.1 ≠ "__proto__" ∧ clause.1 = entry.1 ∧
        resolveFieldFilter ctx entry.2 = .ok clause.2 := by
  induction entries generalizing conditions with
  | nil =>
      cases hresolved
      simp
  | cons entry rest ih =>
      obtain ⟨field, raw⟩ := entry
      obtain ⟨resolved, others, hraw, hrest, rfl⟩ := resolveFilter_cons_ok hresolved
      rw [mem_setField_iff, ih hrest, List.exists_mem_cons_iff]
      refine or_congr ?_ Iff.rfl
      constructor
      · rintro ⟨hname, rfl⟩
        exact ⟨hname, rfl, hraw⟩
      · rintro ⟨hname, hfield, hvalue⟩
        rw [hraw, Except.ok.injEq] at hvalue
        exact ⟨hname, Prod.ext hfield hvalue.symm⟩

/-- Every entry of a resolved filter is resolved. -/
theorem resolved_of_resolveFilter (hresolved : resolveFilter ctx entries = .ok conditions) :
    ∀ entry ∈ entries, ∃ resolved, resolveFieldFilter ctx entry.2 = .ok resolved := by
  induction entries generalizing conditions with
  | nil =>
      intro entry hentry
      cases hentry
  | cons entry rest ih =>
      obtain ⟨field, raw⟩ := entry
      obtain ⟨resolved, others, hraw, hrest, -⟩ := resolveFilter_cons_ok hresolved
      intro other hother
      rcases List.mem_cons.mp hother with rfl | hin
      · exact ⟨resolved, hraw⟩
      · exact ih hrest other hin

/-- The conditions exclude an item exactly when an entry of the filter does. -/
theorem exists_excluded_iff
    [Inhabited Item]
    (hreference : ComparesByReference test)
    (htenant : ctx.tenantId.isSome)
    (hresolved : resolveFilter ctx entries = .ok conditions) :
    (∃ item, (mongoQueryMatcher test).run conditions item ≠ some true) ↔
      FilterNarrows test ctx (some (.obj entries)) := by
  rw [QueryMatcher.exists_run_ne_iff]
  constructor
  · rintro ⟨clause, hclause, hexcludes⟩
    obtain ⟨entry, hentry, hname, hfield, hvalue⟩ := (mem_resolveFilter_iff hresolved).mp hclause
    rw [hfield] at hexcludes
    exact ⟨entry, hentry, hname, (valueExcludes_iff hreference htenant hvalue).mp hexcludes⟩
  · rintro ⟨entry, hentry, hname, hnarrows⟩
    obtain ⟨resolved, hvalue⟩ := resolved_of_resolveFilter hresolved entry hentry
    refine ⟨(entry.1, resolved), ?_, (valueExcludes_iff hreference htenant hvalue).mpr hnarrows⟩
    exact (mem_resolveFilter_iff hresolved).mpr ⟨entry, hentry, hname, rfl, hvalue⟩

/-! ## Rules of rows -/

/-- The rule of a created permission is narrow exactly when its filter narrows. -/
theorem grantsNarrowly_iff
    [Inhabited Item]
    (test : String → String → Json → Item → Bool)
    (hreference : ComparesByReference test)
    (toUpperCase : String → String)
    (body : PermissionCreateBody)
    (row : PermissionRow)
    (hcreate : PermissionAdminService.create toUpperCase body = .ok row)
    (options : PrismaPermissionStorageOptions)
    (tables : PermissionTables)
    (userId tenantId now : String)
    (rules : List AbilityRule)
    (hresolved :
      resolveDbRules { userId := userId, now := now, tenantId := some tenantId }
        (findRulesForUser options tables userId tenantId) = .ok rules)
    (rule : AbilityRule)
    (hrule :
      (toDbPermissionRow row, rule) ∈ (findRulesForUser options tables userId tenantId).zip rules) :
    GrantsNarrowly test rule ↔
      FilterNarrows test { userId := userId, now := now, tenantId := some tenantId }
        body.itemFilter := by
  have hrow := resolveDbRule_of_mem_zip hresolved hrule
  have hkept := toDbPermissionRow_itemFilter hcreate
  unfold resolveDbRule at hrow
  rw [hkept] at hrow
  cases hfilter : body.itemFilter with
  | none =>
      simp only [hfilter, Except.ok.injEq] at hrow
      subst hrow
      simp [GrantsNarrowly, FilterNarrows]
  | some value =>
      cases value with
      | obj entries =>
          simp only [hfilter] at hrow
          cases hconditions :
              resolveFilter { userId := userId, now := now, tenantId := some tenantId }
                entries with
          | error message => simp [hconditions, Except.map] at hrow
          | ok conditions =>
              simp only [hconditions, Except.map, Except.ok.injEq] at hrow
              subst hrow
              rw [← exists_excluded_iff hreference rfl hconditions]
              simp [GrantsNarrowly]
      | _ =>
          simp only [hfilter, Except.ok.injEq] at hrow
          subst hrow
          simp [GrantsNarrowly, FilterNarrows]

end Grants

/-! ## One permission -/

/-- The body of a permission to read examples. -/
def readExamples (itemFilter : Json) : PermissionCreateBody where
  policyId := some (.str "p1")
  resource := some (.str "Example")
  action := some (.str "READ")
  itemFilter := some itemFilter
  fields := none

/-- The row `create` inserts for it. -/
def readExamplesRow (itemFilter : Json) : PermissionRow where
  policyId := "p1"
  resource := "Example"
  action := .READ
  itemFilter := storedFilter (some itemFilter)
  fields := []

/-- One member whose role has the policy of the permission. -/
def editorTables (row : PermissionRow) : PermissionTables where
  members := [{ userId := "u1", organizationId := "acme", role := "editor" }]
  roles := [{ id := "r1", name := "editor", tenantId := "acme" }]
  rolePolicies := [{ roleId := "r1", policyId := "p1" }]
  permissions := [row]

def explicitOnly : PrismaPermissionStorageOptions where
  synthesizeMemberRules := false
  memberResources := none
  memberPerUserResources := none
  extraTenantResources := []
  extraUserResources := []

def readRule (conditions : Option (List (String × Json))) : AbilityRule where
  action := ["read"]
  subject := ["Example"]
  conditions := conditions
  fields := []
  inverted := false

/-- Rows of the tenant. -/
def tenantFilter : Json :=
  .obj [("tenantId", .obj [("_eq", .str "$CURRENT_TENANT")])]

theorem grantsNarrowly_tenantFilter :
    GrantsNarrowly textTest (readRule (some [("tenantId", .str "acme")])) := by
  refine
    (grantsNarrowly_iff textTest comparesByReference_textTest (fun s => s)
      (readExamples tenantFilter) (readExamplesRow tenantFilter) rfl explicitOnly
      (editorTables (readExamplesRow tenantFilter)) "u1" "acme" "2026-01-01T00:00:00.000Z"
      [readRule (some [("tenantId", .str "acme")])] rfl _ (List.mem_singleton_self _)).mpr ?_
  refine ⟨_, List.mem_singleton_self _, by decide, _, List.mem_singleton_self _, ?_⟩
  exact Or.inr ⟨[], rfl⟩

/-- The same filter in a list; the rule for it has no conditions. -/
def listedFilter : Json := .arr [tenantFilter]

theorem not_grantsNarrowly_listedFilter :
    ¬ ∀ (body : PermissionCreateBody) (row : PermissionRow) (rule : AbilityRule)
        (rules : List AbilityRule),
      body.itemFilter ≠ none → body.itemFilter ≠ some .null → body.itemFilter ≠ some (.obj []) →
        PermissionAdminService.create (fun s => s) body = .ok row →
          resolveDbRules
              { userId := "u1", now := "2026-01-01T00:00:00.000Z", tenantId := some "acme" }
              (findRulesForUser explicitOnly (editorTables row) "u1" "acme") = .ok rules →
            (toDbPermissionRow row, rule) ∈
                (findRulesForUser explicitOnly (editorTables row) "u1" "acme").zip rules →
              GrantsNarrowly textTest rule := by
  intro hnarrow
  obtain ⟨conditions, hconditions, -⟩ :=
    hnarrow (readExamples listedFilter) (readExamplesRow listedFilter) (readRule none)
      [readRule none] (by simp [readExamples]) (by simp [readExamples, listedFilter])
      (by simp [readExamples, listedFilter]) rfl rfl (List.mem_singleton_self _)
  cases hconditions

end Permissions
end NestBase
