import NestBase.Core.Permissions
import NestBase.Lib.Table
import NestBase.Lib.Text

/-!
# API keys

`ApiKeyController` offers list, create, rotate and remove over
`ApiKeyService` and `PrismaApiKeyStorage`; `verifyKey` is what the request
chain uses to authenticate a bearer token.

A key is stored under a primary key `id` and a unique `lookupId`; the secret
is kept as its argon2 hash.  The values a request draws (ids, secret, hash)
and the storage calls that reject are inputs.
-/

namespace NestBase
namespace ApiKeys

open Lib
open Permissions

/-! ## Storage -/

/-- A row of `api_keys`; times are epoch milliseconds. -/
structure ApiKeyRow where
  id : String
  lookupId : String
  hash : String
  name : String
  scopes : List String
  userId : String
  expiresAt : Option Int
  lastUsedAt : Option Int
  createdAt : Int
deriving DecidableEq, Repr

structure ApiKeyRecord where
  id : String
  lookupId : String
  hash : String
  name : String
  scopes : List String
  userId : String
  expiresAt : Option Int
  lastUsedAt : Option Int
deriving DecidableEq, Repr

/-- The table with its primary key. -/
structure ApiKeyTable where
  rows : List ApiKeyRow
  ids_nodup : KeysNodup ApiKeyRow.id rows

namespace PrismaApiKeyStorage

def fromRow (row : ApiKeyRow) : ApiKeyRecord where
  id := row.id
  lookupId := row.lookupId
  hash := row.hash
  name := row.name
  scopes := row.scopes
  userId := row.userId
  expiresAt := row.expiresAt
  lastUsedAt := row.lastUsedAt

def toRow (record : ApiKeyRecord) (now : Int) : ApiKeyRow where
  id := record.id
  lookupId := record.lookupId
  hash := record.hash
  name := record.name
  scopes := record.scopes
  userId := record.userId
  expiresAt := record.expiresAt
  lastUsedAt := record.lastUsedAt
  createdAt := now

/-- Another row already has this lookup id. -/
def lookupTaken (table : ApiKeyTable) (id lookupId : String) : Bool :=
  table.rows.any fun row => decide (row.lookupId = lookupId ∧ row.id ≠ id)

/-- `none` is a violated unique column. -/
def insert (table : ApiKeyTable) (row : ApiKeyRow) : Option ApiKeyTable :=
  if lookupTaken table row.id row.lookupId then none
  else
    match h : insertRow ApiKeyRow.id row table.rows with
    | none => none
    | some rows => some ⟨rows, table.ids_nodup.insertRow h⟩

def findById (table : ApiKeyTable) (id : String) : Option ApiKeyRecord :=
  (findRow ApiKeyRow.id id table.rows).map fromRow

def findByLookupId (table : ApiKeyTable) (lookupId : String) : Option ApiKeyRecord :=
  (table.rows.find? fun row => decide (row.lookupId = lookupId)).map fromRow

def createdBefore (a b : ApiKeyRow) : Prop := a.createdAt ≤ b.createdAt

instance : DecidableRel createdBefore :=
  fun a b => inferInstanceAs (Decidable (a.createdAt ≤ b.createdAt))

def listByUser (table : ApiKeyTable) (userId : String) : List ApiKeyRecord :=
  ((table.rows.filter fun row => decide (row.userId = userId)).insertionSort
    createdBefore).map fromRow

/-- The row is removed; `false` when there was none. -/
def delete (table : ApiKeyTable) (id : String) : Bool × ApiKeyTable :=
  ((findRow ApiKeyRow.id id table.rows).isSome,
    ⟨table.rows.filter fun row => decide (row.id ≠ id),
      table.ids_nodup.sublist (List.filter_sublist.map _)⟩)

/-- Change the row with the given id; the change keeps ids. -/
def update
    (table : ApiKeyTable)
    (id : String)
    (change : ApiKeyRow → ApiKeyRow)
    (hid : ∀ row, (change row).id = row.id) : ApiKeyTable where
  rows := updateMany (fun row => decide (row.id = id)) change table.rows
  ids_nodup := table.ids_nodup.updateMany _ hid

/-- `null` when there is no such row. -/
def rotate (table : ApiKeyTable) (id lookupId hash : String) : Option ApiKeyRecord × ApiKeyTable :=
  let change (row : ApiKeyRow) : ApiKeyRow := { row with lookupId := lookupId, hash := hash }
  match findRow ApiKeyRow.id id table.rows with
  | none => (none, table)
  | some row => (some (fromRow (change row)), update table id change fun _ => rfl)

/-- `false` when there is no such row. -/
def updateLastUsed (table : ApiKeyTable) (id : String) (at_ : Int) : Bool × ApiKeyTable :=
  ((findRow ApiKeyRow.id id table.rows).isSome,
    update table id (fun row => { row with lastUsedAt := some at_ }) fun _ => rfl)

end PrismaApiKeyStorage

/-! ## Scopes -/

def API_KEY_SCOPE_ALLOWLIST : List String :=
  ["read:profile", "read:users", "write:users", "read:example", "write:example", "files:read",
    "files:write", "read:file", "write:file", "read:folder", "write:folder", "read:address",
    "write:address", "read:invoice", "write:invoice"]

def validateScopeList : List Json → Except String (List String)
  | [] => .ok []
  | .str scope :: rest =>
      if API_KEY_SCOPE_ALLOWLIST.contains scope then (validateScopeList rest).map (scope :: ·)
      else .error ("unknown api key scope \"" ++ scope ++ "\"")
  | scope :: _ => .error ("unknown api key scope \"" ++ scope.toText ++ "\"")

/-- The scopes as texts, or the message of the `ApiKeyScopeError`. -/
def validateApiKeyScopes (scopes : List Json) : Except String (List String) :=
  if scopes.isEmpty then .error "api key requires at least one scope"
  else validateScopeList scopes

/-! ## Service and controller -/

/-- What one request draws and meets: random values, the clock, and which storage calls reject. -/
structure RequestEnv where
  id : String
  lookupId : String
  secret : String
  /-- `argon2Hash(secret)` -/
  hash : String
  now : Int
  /-- How the database client reads a value of a `DateTime` column. -/
  dateTime : Json → Option Int
  insertRejects : Bool
  findByIdRejects : Bool
  listByUserRejects : Bool
  deleteRejects : Bool
  rotateRejects : Bool

inductive ApiKeyResponse where
  | keys (records : List ApiKeyRecord)
  | issued (plaintext : String) (record : ApiKeyRecord)
  | removed
deriving DecidableEq, Repr

/-- The outcome of a handler and the table it leaves. -/
abbrev Handled : Type := Except HttpException ApiKeyResponse × ApiKeyTable

def internalError : HttpException where
  status := 500
  message := "Internal server error"

def notFound (id : String) : HttpException where
  status := 404
  message := "api key not found: " ++ id

def PREFIX : String := "nst_pk_"

def plaintextOf (lookupId secret : String) : String :=
  PREFIX ++ lookupId ++ "_" ++ secret

/-- The optional expiry of the body; a value the column does not take is an error. -/
def expiryOf (env : RequestEnv) (body : Json) : Option (Option Int) :=
  match body.field? "expiresAt" with
  | none => some none
  | some value => if value.truthy then (env.dateTime value).map some else some none

namespace ApiKeyService

/-- `createKey` after its scope check. -/
def insertKey
    (env : RequestEnv)
    (table : ApiKeyTable)
    (userId name : String)
    (scopes : List String)
    (expiresAt : Option Int) : Handled :=
  let record : ApiKeyRecord :=
    { id := env.id
      lookupId := env.lookupId
      hash := env.hash
      name := name
      scopes := scopes
      userId := userId
      expiresAt := expiresAt
      lastUsedAt := none }
  let row := PrismaApiKeyStorage.toRow record env.now
  if env.insertRejects then (.error internalError, table)
  else
    match PrismaApiKeyStorage.insert table row with
    | none => (.error internalError, table)
    | some table' =>
        let stored := PrismaApiKeyStorage.fromRow row
        (.ok (.issued (plaintextOf env.lookupId env.secret) stored), table')

def createKey (env : RequestEnv) (table : ApiKeyTable) (body : Json) (scopes : List Json) :
    Handled :=
  match validateApiKeyScopes scopes with
  | .error message => (.error { status := 400, message := message }, table)
  | .ok scopes =>
      match body.field? "userId", body.field? "name", expiryOf env body with
      | some (.str userId), some (.str name), some expiresAt =>
          insertKey env table userId name scopes expiresAt
      -- The database client refuses values of another type.
      | _, _, _ => (.error internalError, table)

def rotateKey (env : RequestEnv) (table : ApiKeyTable) (id : String) : Handled :=
  if env.findByIdRejects then (.error internalError, table)
  else
    match PrismaApiKeyStorage.findById table id with
    | none => (.error (notFound id), table)
    | some existing =>
        if env.rotateRejects ||
            PrismaApiKeyStorage.lookupTaken table existing.id env.lookupId then
          (.error internalError, table)
        else
          match PrismaApiKeyStorage.rotate table existing.id env.lookupId env.hash with
          | (none, table') => (.error (notFound existing.id), table')
          | (some updated, table') =>
              (.ok (.issued (plaintextOf env.lookupId env.secret) updated), table')

def listByUser (env : RequestEnv) (table : ApiKeyTable) (userId : String) : Handled :=
  if env.listByUserRejects then (.error internalError, table)
  else (.ok (.keys (PrismaApiKeyStorage.listByUser table userId)), table)

def revoke (env : RequestEnv) (table : ApiKeyTable) (id : String) : Handled :=
  if env.deleteRejects then (.error internalError, table)
  else
    match PrismaApiKeyStorage.delete table id with
    | (true, table') => (.ok .removed, table')
    | (false, table') => (.error (notFound id), table')

end ApiKeyService

inductive ApiKeyRequest where
  | list (userId : String)
  | create (body : Json)
  | rotate (id : String)
  | remove (id : String)

/-- The `@Can()` of the route. -/
def ApiKeyRequest.required : ApiKeyRequest → String × String
  | list _ => ("read", "ApiKey")
  | create _ => ("create", "ApiKey")
  | rotate _ => ("update", "ApiKey")
  | remove _ => ("delete", "ApiKey")

namespace ApiKeyController

def create (env : RequestEnv) (table : ApiKeyTable) (body : Json) : Handled :=
  let present (name : String) : Bool := ((body.field? name).map Json.truthy).getD false
  match present "userId", present "name", body.field? "scopes" with
  | true, true, some (.arr scopes) => ApiKeyService.createKey env table body scopes
  | _, _, _ =>
      (.error { status := 400, message := "userId, name, scopes[] are required" }, table)

/-- The handler of a request. -/
def dispatch (env : RequestEnv) (table : ApiKeyTable) : ApiKeyRequest → Handled
  | .list userId => ApiKeyService.listByUser env table userId
  | .create body => create env table body
  | .rotate id => ApiKeyService.rotateKey env table id
  | .remove id => ApiKeyService.revoke env table id

end ApiKeyController

/-- Guard, then handler. -/
def serve
    (can : Ability → String → String → Bool)
    (env : RequestEnv)
    (ability : Option Ability)
    (table : ApiKeyTable)
    (request : ApiKeyRequest) : Handled :=
  match CanGuard.canActivate can (some request.required) ability with
  | .error exception => (.error exception, table)
  | .ok () => ApiKeyController.dispatch env table request

/-! ## Verification of a bearer token -/

inductive ApiKeyError where
  | invalid
  | expired
deriving DecidableEq, Repr

structure VerifyResult where
  userId : String
  scopes : List String
deriving DecidableEq, Repr

def isHexDigit (c : Char) : Bool :=
  decide ('0' ≤ c ∧ c ≤ '9') || decide ('a' ≤ c ∧ c ≤ 'f')

/-- Lookup id and secret of `nst_pk_<36 hex digits or dashes>_<64 hex digits>`. -/
def parsePlaintext (plaintext : String) : Option (String × String) :=
  let chars := plaintext.toList
  if PREFIX.toList.isPrefixOf chars then
    let rest := chars.drop PREFIX.toList.length
    let lookupId := rest.take 36
    let secret := rest.drop 37
    if lookupId.length = 36 ∧ lookupId.all (fun c => isHexDigit c || decide (c = '-')) ∧
        rest[36]? = some '_' ∧ secret.length = 64 ∧ secret.all isHexDigit then
      some (String.ofList lookupId, String.ofList secret)
    else none
  else none

/-- `verifyKey`; the use is stamped on the row that was found. -/
def ApiKeyService.verifyKey
    (argon2Verify : String → String → Bool)
    (now : Int)
    (table : ApiKeyTable)
    (plaintext : String) : Except ApiKeyError VerifyResult × ApiKeyTable :=
  match parsePlaintext plaintext with
  | none => (.error .invalid, table)
  | some (lookupId, secret) =>
      match PrismaApiKeyStorage.findByLookupId table lookupId with
      | none => (.error .invalid, table)
      | some record =>
          if record.expiresAt.any fun expiresAt => decide (expiresAt ≤ now) then
            (.error .expired, table)
          else if argon2Verify record.hash secret then
            match PrismaApiKeyStorage.updateLastUsed table record.id now with
            | (true, table') => (.ok { userId := record.userId, scopes := record.scopes }, table')
            | (false, table') => (.error .invalid, table')
          else (.error .invalid, table)

end ApiKeys
end NestBase
