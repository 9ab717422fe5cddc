import NestBase.Lib.Json
import Mathlib.Tactic

/-!
# Rules, abilities and the guard

`buildMemberRoleRules` synthesizes the permission rows every tenant member
has, `resolveDbRules` turns rows into ability rules with the request's user
and tenant filled in, and `CanGuard` lets a handler run when the ability
allows an action on a subject type.

The ability object itself is CASL's.  It is kept as its list of rules, and
CASL's check of an action on a subject type is the parameter `can`.
-/

namespace NestBase
namespace Permissions

open Lib

/-- An exception that ends the request with a status. -/
structure HttpException where
  status : Nat
  message : String
deriving DecidableEq, Repr

structure AbilityRule where
  action : List String
  subject : List String
  conditions : Option (List (String × Json))
  fields : List String
  inverted : Bool

abbrev Ability : Type := List AbilityRule

/-- The rules of the ability in order; an empty field list means no restriction. -/
def buildAbility (rules : List AbilityRule) : Ability := rules

/-! ## Rows -/

inductive DbAction where
  | CREATE
  | READ
  | UPDATE
  | DELETE
  | SHARE
  | MANAGE
deriving DecidableEq, Repr

/-- `action.toLowerCase()` -/
def DbAction.toLowerCase : DbAction → String
  | CREATE => "create"
  | READ => "read"
  | UPDATE => "update"
  | DELETE => "delete"
  | SHARE => "share"
  | MANAGE => "manage"

structure DbPermissionRow where
  resource : String
  action : DbAction
  itemFilter : Option (List (String × Json))
  fields : List String

def DEFAULT_MEMBER_RESOURCES : List String :=
  ["Example", "UserProfile", "File", "Folder", "Address"]

def DEFAULT_MEMBER_PER_USER_RESOURCES : List String := ["ApiKey"]

/-- `manage` on each resource where the column equals the variable. -/
def memberRow (column variable_ resource : String) : DbPermissionRow where
  resource := resource
  action := .MANAGE
  itemFilter := some [(column, .obj [("_eq", .str variable_)])]
  fields := []

def buildMemberRoleRules (resources perUserResources : List String) : List DbPermissionRow :=
  resources.map (memberRow "tenantId" "$CURRENT_TENANT") ++
    perUserResources.map (memberRow "userId" "$CURRENT_USER")

/-! ## Resolution -/

structure ResolveContext where
  userId : String
  /-- `now.toISOString()` -/
  now : String
  tenantId : Option String

/-- `null` strips the operator. -/
def OPERATOR_MAP : List (String × Option String) :=
  [("_eq", none), ("_neq", some "$ne"), ("_in", some "$in"), ("_nin", some "$nin"),
    ("_lt", some "$lt"), ("_lte", some "$lte"), ("_gt", some "$gt"), ("_gte", some "$gte")]

/-- The text of a built-in function. -/
def nativeCode (name : String) : String :=
  "function " ++ name ++ "() \x7b [native code] \x7d"

/-- Names that `in` finds on the prototype of every object, with the key `String(...)` of each. -/
def inheritedKey (name : String) : Option String :=
  if name = "__proto__" then some "[object Object]"
  else if name = "constructor" then some (nativeCode "Object")
  else if
      name ∈ ["__defineGetter__", "__defineSetter__", "hasOwnProperty", "__lookupGetter__",
        "__lookupSetter__", "isPrototypeOf", "propertyIsEnumerable", "toString", "valueOf",
        "toLocaleString"] then
    some (nativeCode name)
  else none

/-- The key an operator is resolved to, when `op in OPERATOR_MAP`. -/
def operatorKey (op : String) : Option String :=
  match OPERATOR_MAP.lookup op with
  | some mapped => some (mapped.getD op)
  | none => inheritedKey op

mutual

def substituteValue (ctx : ResolveContext) : Json → Except String Json
  | .arr items => (substituteValues ctx items).map .arr
  | .str s =>
      if s = "$CURRENT_USER" then .ok (.str ctx.userId)
      else if s = "$CURRENT_TENANT" then
        match ctx.tenantId with
        | none =>
            .error ("db-rule-resolver: rule references $CURRENT_TENANT but no tenantId " ++
              "in context — misconfigured caller")
        | some tenantId => .ok (.str tenantId)
      else if s = "$NOW" then .ok (.str ctx.now)
      else .ok (.str s)
  | value => .ok value

def substituteValues (ctx : ResolveContext) : List Json → Except String (List Json)
  | [] => .ok []
  | value :: rest =>
      match substituteValue ctx value with
      | .error message => .error message
      | .ok resolved => (substituteValues ctx rest).map (resolved :: ·)

end

def resolveOperators (ctx : ResolveContext) :
    List (String × Json) → Except String (List (String × Json))
  | [] => .ok []
  | (op, value) :: rest =>
      match operatorKey op with
      | none =>
          .error ("db-rule-resolver: unsupported operator \"" ++ op ++
            "\" — extend OPERATOR_MAP if intentional")
      | some key =>
          match substituteValue ctx value with
          | .error message => .error message
          | .ok resolved => (resolveOperators ctx rest).map ((key, resolved) :: ·)

def resolveFieldFilter (ctx : ResolveContext) : Json → Except String Json
  | .obj [("_eq", value)] => substituteValue ctx value
  | .obj entries => (resolveOperators ctx entries).map .obj
  | raw => substituteValue ctx raw

/-- `out[field] = resolved`; the name `__proto__` sets the prototype instead. -/
def setField (field : String) (resolved : Json) (out : List (String × Json)) :
    List (String × Json) :=
  if field = "__proto__" then out else (field, resolved) :: out

def resolveFilter (ctx : ResolveContext) :
    List (String × Json) → Except String (List (String × Json))
  | [] => .ok []
  | (field, raw) :: rest =>
      match resolveFieldFilter ctx raw with
      | .error message => .error message
      | .ok resolved => (resolveFilter ctx rest).map (setField field resolved)

def resolveDbRule (ctx : ResolveContext) (row : DbPermissionRow) : Except String AbilityRule :=
  let rule : AbilityRule :=
    { action := [row.action.toLowerCase]
      subject := [row.resource]
      conditions := none
      fields := row.fields
      inverted := false }
  match row.itemFilter with
  | none => .ok rule
  | some filter =>
      (resolveFilter ctx filter).map fun conditions =>
        { rule with conditions := some conditions }

def resolveDbRules (ctx : ResolveContext) : List DbPermissionRow → Except String (List AbilityRule)
  | [] => .ok []
  | row :: rest =>
      match resolveDbRule ctx row with
      | .error message => .error message
      | .ok rule => (resolveDbRules ctx rest).map (rule :: ·)

/-- The rule a member has on a per-user resource. -/
def ownRule (userId resource : String) : AbilityRule where
  action := ["manage"]
  subject := [resource]
  conditions := some [("userId", .str userId)]
  fields := []
  inverted := false

/-! ## Checks -/

section Checks

variable (can : Ability → String → String → Bool)

def HUB_CASL_SUBJECT : String := "Hub"

def canManageSubject (ability : Ability) (subject : String) : Bool :=
  can ability "manage" subject ||
    (can ability "create" subject && can ability "read" subject &&
      can ability "update" subject && can ability "delete" subject)

def grantsHubPortalAccess (ability : Ability) : Bool :=
  canManageSubject can ability "all" || can ability "read" HUB_CASL_SUBJECT

def abilityAllows (ability : Ability) (action subject : String) : Bool :=
  if action = "read" ∧ subject = HUB_CASL_SUBJECT ∧ grantsHubPortalAccess can ability then true
  else if can ability action subject then true
  else if action = "manage" then
    canManageSubject can ability subject || canManageSubject can ability "all"
  else false

/-- `CanGuard.canActivate` with the action and subject of `@Can()`. -/
def CanGuard.canActivate
    (required : Option (String × String))
    (ability : Option Ability) : Except HttpException Unit :=
  match required with
  | none => .ok ()
  | some (action, subject) =>
      match ability with
      | none => .error { status := 403, message := "forbidden" }
      | some ability =>
          if abilityAllows can ability action subject then .ok ()
          else .error { status := 403, message := "forbidden" }

/--
CASL on a subject type: conditions are not looked at, so a rule that is not
inverted allows its actions, and `manage` allows every action.
-/
structure ChecksTypesOnly : Prop where
  allows :
    ∀ (ability : Ability) (action subject : String) (rule : AbilityRule),
      rule ∈ ability →
      subject ∈ rule.subject →
      action ∈ rule.action ∨ "manage" ∈ rule.action →
      (∀ other ∈ ability,
        subject ∈ other.subject ∨ "all" ∈ other.subject → other.inverted = false) →
      can ability action subject = true

variable {can}

/-- A condition on the rule does not keep the guard from letting the type through. -/
theorem canActivate_of_rule
    (hcan : ChecksTypesOnly can)
    {ability : Ability} {action subject : String} {rule : AbilityRule}
    (hrule : rule ∈ ability)
    (hsubject : subject ∈ rule.subject)
    (hmanage : "manage" ∈ rule.action)
    (hplain :
      ∀ other ∈ ability,
        subject ∈ other.subject ∨ "all" ∈ other.subject → other.inverted = false) :
    CanGuard.canActivate can (some (action, subject)) (some ability) = .ok () := by
  have hallows : can ability action subject = true :=
    hcan.allows ability action subject rule hrule hsubject (Or.inr hmanage) hplain
  simp [CanGuard.canActivate, abilityAllows, hallows]

end Checks

end Permissions
end NestBase
