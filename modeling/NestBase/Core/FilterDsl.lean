import NestBase.Lib.MongoQuery
import NestBase.Core.CaslAbility

/-!
# The filter language of permission rows

A filter has clauses, which an item has to satisfy all.  A clause is a field
with its operators, or an `_and` or `_or` list of filters.  Operands are
scalars and lists of scalars, with the variables in their places.

The filter is stored as JSON (`filterEntries`).  Its meaning with the
variables replaced is `satisfied`; what the resolver makes of it is read by
CASL's `mongoQueryMatcher`, whose operators and operand checks are here.  What
one operator tests on one field is the parameter `test` of both.
-/

namespace NestBase
namespace Permissions

open Lib

universe u

/-! ## The matcher -/

def CASL_OPERATORS : List String :=
  ["$eq", "$ne", "$lt", "$lte", "$gt", "$gte", "$in", "$nin", "$all", "$size", "$regex",
    "$options", "$elemMatch", "$exists"]

/-- A text or a number; JSON has no dates. -/
def isComparable : Json → Bool
  | .num _ => true
  | .str _ => true
  | _ => false

/-- The checks of the instructions before a query is run. -/
def caslAccepts (op : String) (operand : Json) : Bool :=
  if op ∈ ["$lt", "$lte", "$gt", "$gte"] then isComparable operand
  else
    match op, operand with
    | "$in", .arr _ => true
    | "$in", _ => false
    | "$nin", .arr _ => true
    | "$nin", _ => false
    | "$all", .arr _ => true
    | "$all", _ => false
    | "$size", .num _ => true
    | "$size", _ => false
    | "$exists", .bool _ => true
    | "$exists", _ => false
    | "$regex", .str _ => true
    | "$regex", _ => false
    | "$elemMatch", .obj _ => true
    | "$elemMatch", _ => false
    | _, _ => true

section Test

variable {Item : Type u}

def mongoQueryMatcher (test : String → String → Json → Item → Bool) : QueryMatcher Item where
  operators := CASL_OPERATORS
  accepts := caslAccepts
  test := test

/-- No item holds the very array or object of a query. -/
structure ComparesByReference (test : String → String → Json → Item → Bool) : Prop where
  array : ∀ field items item, test "$eq" field (.arr items) item = false
  object : ∀ field entries item, test "$eq" field (.obj entries) item = false

end Test

/-! ## Variables -/

def VARIABLES : List String := ["$CURRENT_USER", "$CURRENT_TENANT", "$NOW"]

def replacedText (ctx : ResolveContext) (s : String) : String :=
  if s = "$CURRENT_USER" then ctx.userId
  else if s = "$CURRENT_TENANT" then ctx.tenantId.getD s
  else if s = "$NOW" then ctx.now
  else s

mutual

/-- The variables in value position replaced. -/
def replaced (ctx : ResolveContext) : Json → Json
  | .arr items => .arr (replacedItems ctx items)
  | .str s => .str (replacedText ctx s)
  | value => value

def replacedItems (ctx : ResolveContext) : List Json → List Json
  | [] => []
  | item :: rest => replaced ctx item :: replacedItems ctx rest

end

mutual

/-- A variable stands somewhere in the value. -/
def hasVariable : Json → Bool
  | .str s => VARIABLES.contains s
  | .arr items => itemsHaveVariable items
  | .obj entries => entriesHaveVariable entries
  | _ => false

def itemsHaveVariable : List Json → Bool
  | [] => false
  | item :: rest => hasVariable item || itemsHaveVariable rest

def entriesHaveVariable : List (String × Json) → Bool
  | [] => false
  | (_, value) :: rest => hasVariable value || entriesHaveVariable rest

end

/-- No value of the context is itself spelled like a variable. -/
structure ResolveContext.Plain (ctx : ResolveContext) : Prop where
  userId : VARIABLES.contains ctx.userId = false
  now : VARIABLES.contains ctx.now = false
  tenantId : ∀ tenantId, ctx.tenantId = some tenantId → VARIABLES.contains tenantId = false

/-! ## Filters -/

inductive Scalar where
  | null
  | bool (b : Bool)
  | num (text : String)
  | str (s : String)

def Scalar.toJson : Scalar → Json
  | null => .null
  | bool b => .bool b
  | num text => .num text
  | str s => .str s

inductive FieldOperator where
  | eq (operand : Scalar)
  | neq (operand : Scalar)
  | in_ (operands : List Scalar)
  | nin (operands : List Scalar)
  | lt (operand : Scalar)
  | lte (operand : Scalar)
  | gt (operand : Scalar)
  | gte (operand : Scalar)

namespace FieldOperator

def name : FieldOperator → String
  | eq _ => "_eq"
  | neq _ => "_neq"
  | in_ _ => "_in"
  | nin _ => "_nin"
  | lt _ => "_lt"
  | lte _ => "_lte"
  | gt _ => "_gt"
  | gte _ => "_gte"

/-- The operator of a query with the same meaning. -/
def mongoName : FieldOperator → String
  | eq _ => "$eq"
  | neq _ => "$ne"
  | in_ _ => "$in"
  | nin _ => "$nin"
  | lt _ => "$lt"
  | lte _ => "$lte"
  | gt _ => "$gt"
  | gte _ => "$gte"

def operand : FieldOperator → Json
  | eq operand => operand.toJson
  | neq operand => operand.toJson
  | in_ operands => .arr (operands.map Scalar.toJson)
  | nin operands => .arr (operands.map Scalar.toJson)
  | lt operand => operand.toJson
  | lte operand => operand.toJson
  | gt operand => operand.toJson
  | gte operand => operand.toJson

def entry (op : FieldOperator) : String × Json := (op.name, op.operand)

def isEq : FieldOperator → Bool
  | eq _ => true
  | _ => false

/-- An ordering operator has a text or a number to compare with. -/
def orders : FieldOperator → Bool
  | lt operand => isComparable operand.toJson
  | lte operand => isComparable operand.toJson
  | gt operand => isComparable operand.toJson
  | gte operand => isComparable operand.toJson
  | _ => true

end FieldOperator

/-- The operators of one field: at least one, and none twice. -/
structure FieldOperators where
  first : FieldOperator
  others : List FieldOperator
  distinct : ((first :: others).map FieldOperator.name).Nodup

def FieldOperators.toList (operators : FieldOperators) : List FieldOperator :=
  operators.first :: operators.others

inductive Clause where
  | field (name : String) (operators : FieldOperators)
  /-- `_and` -/
  | allOf (filters : List (List Clause))
  /-- `_or` -/
  | anyOf (filters : List (List Clause))

/-- An item has to satisfy every clause. -/
abbrev Filter : Type := List Clause

/-! ## The stored filter -/

mutual

def clauseEntry : Clause → String × Json
  | .field name operators => (name, .obj (operators.toList.map FieldOperator.entry))
  | .allOf filters => ("_and", .arr (filterObjects filters))
  | .anyOf filters => ("_or", .arr (filterObjects filters))

def filterEntries : List Clause → List (String × Json)
  | [] => []
  | clause :: rest => clauseEntry clause :: filterEntries rest

def filterObjects : List (List Clause) → List Json
  | [] => []
  | filter :: rest => .obj (filterEntries filter) :: filterObjects rest

end

/-! ## The meaning of a filter -/

section Meaning

variable {Item : Type u}
variable (test : String → String → Json → Item → Bool)
variable (ctx : ResolveContext)
variable (item : Item)

def FieldOperators.satisfied (operators : FieldOperators) (field : String) : Bool :=
  operators.toList.all fun op => test op.mongoName field (replaced ctx op.operand) item

mutual

def clauseSatisfied : Clause → Bool
  | .field name operators => operators.satisfied test ctx item name
  | .allOf filters => allSatisfied filters
  | .anyOf filters => anySatisfied filters

def satisfied : List Clause → Bool
  | [] => true
  | clause :: rest => clauseSatisfied clause && satisfied rest

def allSatisfied : List (List Clause) → Bool
  | [] => true
  | filter :: rest => satisfied filter && allSatisfied rest

def anySatisfied : List (List Clause) → Bool
  | [] => false
  | filter :: rest => satisfied filter || anySatisfied rest

end

theorem satisfied_iff {filter : Filter} :
    satisfied test ctx item filter = true ↔
      ∀ clause ∈ filter, clauseSatisfied test ctx item clause = true := by
  induction filter with
  | nil => simp [satisfied]
  | cons clause rest ih => simp [satisfied, ih]

end Meaning

/-! ## Resolution with a tenant -/

section Resolution

variable {ctx : ResolveContext}

theorem substituteValue_str (htenant : ctx.tenantId.isSome) (s : String) :
    substituteValue ctx (.str s) = .ok (.str (replacedText ctx s)) := by
  obtain ⟨tenantId, hsome⟩ := Option.isSome_iff_exists.mp htenant
  unfold substituteValue replacedText
  rw [hsome]
  split
  · rfl
  · split
    · rfl
    · split <;> rfl

mutual

/-- With a tenant, substitution replaces the variables and never throws. -/
theorem substituteValue_of_tenant (htenant : ctx.tenantId.isSome) :
    ∀ value, substituteValue ctx value = .ok (replaced ctx value)
  | .arr items => by
      rw [substituteValue, substituteValues_of_tenant htenant items, replaced]
      rfl
  | .str s => by
      rw [substituteValue_str htenant, replaced]
  | .null => rfl
  | .bool _ => rfl
  | .num _ => rfl
  | .obj _ => rfl

theorem substituteValues_of_tenant (htenant : ctx.tenantId.isSome) :
    ∀ items, substituteValues ctx items = .ok (replacedItems ctx items)
  | [] => rfl
  | item :: rest => by
      rw [substituteValues, substituteValue_of_tenant htenant item,
        substituteValues_of_tenant htenant rest, replacedItems]
      rfl

end

/-- Objects without a lone `_eq` are resolved operator by operator. -/
theorem resolveFieldFilter_obj
    {entries : List (String × Json)}
    (hlone : ∀ value, entries ≠ [("_eq", value)]) :
    resolveFieldFilter ctx (.obj entries) = (resolveOperators ctx entries).map .obj := by
  unfold resolveFieldFilter
  split
  · next value heq =>
      injection heq with heq
      exact absurd heq (hlone value)
  · next other _ heq =>
      injection heq with heq
      rw [heq]
  · next hraw => exact absurd rfl (hraw entries)

end Resolution

end Permissions
end NestBase
