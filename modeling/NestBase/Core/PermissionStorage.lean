import NestBase.Core.Permissions

/-!
# Stored permissions

`PermissionAdminService.create` checks a request body and inserts a permission
row; `PrismaPermissionStorage.findRulesForUser` reads the rows that the role
of a member grants, and adds the synthesized ones.

The item filter of a body is kept when it is an object or an array, and read
back when it is an object.
-/

namespace NestBase
namespace Permissions

open Lib

/-! ## Creating a permission -/

/-- A body as parsed; `none` is an absent property. -/
structure PermissionCreateBody where
  policyId : Option Json
  resource : Option Json
  action : Option Json
  itemFilter : Option Json
  fields : Option Json

/-- A row of `permissions`; `none` is the SQL null of the column. -/
structure PermissionRow where
  policyId : String
  resource : String
  action : DbAction
  itemFilter : Option Json
  fields : List String

def ALLOWED_ACTIONS : List (String × DbAction) :=
  [("CREATE", .CREATE), ("READ", .READ), ("UPDATE", .UPDATE), ("DELETE", .DELETE),
    ("SHARE", .SHARE)]

def badRequest (message : String) : HttpException where
  status := 400
  message := message

def asString (value : Option Json) (label : String) : Except HttpException String :=
  match value with
  | some (.str s) =>
      if s = "" then .error (badRequest (label ++ " must be a non-empty string")) else .ok s
  | _ => .error (badRequest (label ++ " must be a non-empty string"))

/-- `String(value)` -/
def receivedText : Option Json → String
  | none => "undefined"
  | some value => value.toText

/-- Only strings in a list are kept. -/
def asStringArray : Option Json → List String
  | some (.arr items) =>
      items.filterMap fun item =>
        match item with
        | .str s => some s
        | _ => none
  | _ => []

/-- The filter is stored when it is truthy and `typeof` says object. -/
def storedFilter : Option Json → Option Json
  | some (.obj entries) => some (.obj entries)
  | some (.arr items) => some (.arr items)
  | _ => none

section Create

variable (toUpperCase : String → String)

def asAction (value : Option Json) : Except HttpException DbAction :=
  let upper :=
    match value with
    | some (.str s) => toUpperCase s
    | _ => ""
  match ALLOWED_ACTIONS.lookup upper with
  | some action => .ok action
  | none =>
      .error
        (badRequest
          ("action must be one of: " ++ ", ".intercalate (ALLOWED_ACTIONS.map Prod.fst) ++
            " (received: " ++ receivedText value ++ ")"))

/-- The row that is inserted for the body. -/
def PermissionAdminService.create (body : PermissionCreateBody) :
    Except HttpException PermissionRow := do
  let policyId ← asString body.policyId "policyId"
  let resource ← asString body.resource "resource"
  let action ← asAction toUpperCase body.action
  return {
    policyId := policyId
    resource := resource
    action := action
    itemFilter := storedFilter body.itemFilter
    fields := asStringArray body.fields }

end Create

/-! ## Reading the rows of a user -/

structure Member where
  userId : String
  organizationId : String
  role : String

structure Role where
  id : String
  name : String
  tenantId : String

structure RolePolicy where
  roleId : String
  policyId : String

structure PermissionTables where
  members : List Member
  roles : List Role
  rolePolicies : List RolePolicy
  permissions : List PermissionRow

/-- The overrides of the defaults, and the extras flattened and sorted. -/
structure PrismaPermissionStorageOptions where
  synthesizeMemberRules : Bool
  memberResources : Option (List String)
  memberPerUserResources : Option (List String)
  extraTenantResources : List String
  extraUserResources : List String

/-- The first occurrence of each value. -/
def dedupePreserveOrder (defaults extras : List String) : List String :=
  (defaults ++ extras).eraseDups

/-- `policy.roles.some.role.{ name, tenantId }` -/
def explicitRows (tables : PermissionTables) (roleName tenantId : String) : List PermissionRow :=
  tables.permissions.filter fun row =>
    tables.rolePolicies.any fun link =>
      decide (link.policyId = row.policyId) &&
        tables.roles.any fun role =>
          decide (role.id = link.roleId ∧ role.name = roleName ∧ role.tenantId = tenantId)

/-- A filter that is no object becomes none. -/
def toDbPermissionRow (row : PermissionRow) : DbPermissionRow where
  resource := row.resource
  action := row.action
  itemFilter :=
    match row.itemFilter with
    | some (.obj entries) => some entries
    | _ => none
  fields := row.fields

def synthesizedRows (options : PrismaPermissionStorageOptions) : List DbPermissionRow :=
  if options.synthesizeMemberRules then
    buildMemberRoleRules
      (dedupePreserveOrder (options.memberResources.getD DEFAULT_MEMBER_RESOURCES)
        options.extraTenantResources)
      (dedupePreserveOrder (options.memberPerUserResources.getD DEFAULT_MEMBER_PER_USER_RESOURCES)
        options.extraUserResources)
  else []

def findRulesForUser
    (options : PrismaPermissionStorageOptions)
    (tables : PermissionTables)
    (userId tenantId : String) : List DbPermissionRow :=
  match
    tables.members.find? fun member =>
      decide (member.userId = userId ∧ member.organizationId = tenantId) with
  | none => []
  | some member =>
      (explicitRows tables member.role tenantId).map toDbPermissionRow ++ synthesizedRows options

/-! ## What is kept of a body -/

section Kept

variable {toUpperCase : String → String}

theorem itemFilter_of_create
    {body : PermissionCreateBody} {row : PermissionRow}
    (hcreate : PermissionAdminService.create toUpperCase body = .ok row) :
    row.itemFilter = storedFilter body.itemFilter := by
  unfold PermissionAdminService.create at hcreate
  cases hpolicy : asString body.policyId "policyId" with
  | error exception => simp [hpolicy, bind, Except.bind] at hcreate
  | ok policyId =>
      cases hresource : asString body.resource "resource" with
      | error exception => simp [hpolicy, hresource, bind, Except.bind] at hcreate
      | ok resource =>
          cases haction : asAction toUpperCase body.action with
          | error exception => simp [hpolicy, hresource, haction, bind, Except.bind] at hcreate
          | ok action =>
              simp only [hpolicy, hresource, haction, bind, Except.bind, pure, Except.pure,
                Except.ok.injEq] at hcreate
              rw [← hcreate]

/-- The filter a stored row is resolved with. -/
theorem toDbPermissionRow_itemFilter
    {body : PermissionCreateBody} {row : PermissionRow}
    (hcreate : PermissionAdminService.create toUpperCase body = .ok row) :
    (toDbPermissionRow row).itemFilter =
      match body.itemFilter with
      | some (.obj entries) => some entries
      | _ => none := by
  unfold toDbPermissionRow
  rw [itemFilter_of_create hcreate]
  cases body.itemFilter with
  | none => rfl
  | some value => cases value <;> rfl

end Kept

end Permissions
end NestBase
