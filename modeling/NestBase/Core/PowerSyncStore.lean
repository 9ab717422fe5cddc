import NestBase.Core.Permissions
import NestBase.Core.PowerSyncConflict
import NestBase.Lib.Text

/-!
# PowerSync uploads

`POST /powersync/crud` takes a batch of operations on rows named by a type and
an id.  The controller loads the rows of the batch's types into a map under
the texts `type:id`, applies the operations to the map, and writes back what
the map holds for each operation: all upserts first, then all deletes.

A row of the map is one object: the client's data spread over `id` and
`updatedAt`.  What is written back is the object without these two fields,
under the `id` the object has then.

`parsePowerSyncCrudBatch` is a zod schema; a record schema drops the key
`__proto__`.
-/

namespace NestBase
namespace PowerSync

open Lib
open PowerSyncConflict

/-! ## Batches -/

def MAX_BATCH_SIZE : Nat := 1000

/-- The fields of a JSON object. -/
abbrev Data : Type := Row Json

inductive OperationKind where
  | PUT
  | PATCH
  | DELETE
deriving DecidableEq, Repr

/-- The type and the id of a row. -/
abbrev Pair : Type := String × String

/-- `data` is empty where a DELETE has none. -/
structure Operation where
  op : OperationKind
  type : String
  id : String
  data : Data

def Operation.pair (operation : Operation) : Pair :=
  (operation.type, operation.id)

/-- A record of the schema, without the key `__proto__`. -/
def parseData : Json → Option Data
  | .obj entries =>
      some
        (entries.foldl
          (fun data entry =>
            if entry.1 = "__proto__" then data else data.set entry.1 (.other entry.2))
          Record.empty)
  | _ => none

def parseOperationKind : Json → Option OperationKind
  | .str "PUT" => some .PUT
  | .str "PATCH" => some .PATCH
  | .str "DELETE" => some .DELETE
  | _ => none

/-- `z.string().min(1)` -/
def parseName : Json → Option String
  | .str name => if name = "" then none else some name
  | _ => none

/-- Only a DELETE may come without data. -/
def parseOperation (value : Json) : Option Operation := do
  let op ← (value.field? "op").bind parseOperationKind
  let type ← (value.field? "type").bind parseName
  let id ← (value.field? "id").bind parseName
  match value.field? "data" with
  | some data => (parseData data).map fun data => { op := op, type := type, id := id, data := data }
  | none =>
      if op = .DELETE then some { op := op, type := type, id := id, data := Record.empty }
      else none

def parsePowerSyncCrudBatch (body : Json) : Option (List Operation) :=
  match body.field? "batch" with
  | some (.arr items) =>
      if items.length ≤ MAX_BATCH_SIZE then items.mapM parseOperation else none
  | _ => none

/-! ## The map of a request -/

/-- `${type}:${id}` -/
def rowKey (pair : Pair) : String :=
  pair.1 ++ ":" ++ pair.2

/-- `{ id, updatedAt, ...data }` -/
def storeRow (id : Json) (updatedAt : Value Json) (data : Data) : Row Json :=
  ((Record.empty.set "id" (.other id)).set "updatedAt" updatedAt).assign data

structure PowerSyncRowSnapshot where
  type : String
  id : Json
  data : Data
  updatedAt : Value Json

def hydrate (existing : List PowerSyncRowSnapshot) : Record String (Row Json) :=
  Record.empty.writeAll (fun row : PowerSyncRowSnapshot => row.type ++ ":" ++ row.id.toText)
    (fun row => storeRow row.id row.updatedAt row.data) existing

/-! ## `applyPowerSyncCrudBatch` -/

structure Applied where
  store : Record String (Row Json)
  /-- Id, type and fields of each partial conflict. -/
  rejected : List (String × String × List String)

/--
`protectedByType[type] ?? []`; a name every object inherits gives something
that is no list.
-/
def protectedFields
    (protectedByType : List (String × List String))
    (type : String) : Option (List String) :=
  match protectedByType.lookup type with
  | some fields => some fields
  | none => if (Permissions.inheritedKey type).isSome then none else some []

/-- One operation; `none` when `new Set(protectedFields)` throws. -/
def applyOperation
    (protectedByType : List (String × List String))
    (clientNow mergedNow : Int)
    (operation : Operation)
    (applied : Applied) : Option Applied :=
  let key := rowKey operation.pair
  if operation.op = .DELETE then some { applied with store := applied.store.remove key }
  else
    match applied.store.get key with
    | none =>
        some
          { applied with
            store :=
              applied.store.set key
                (storeRow (.str operation.id) (.date (some clientNow)) operation.data) }
    | some existing =>
        match protectedFields protectedByType operation.type with
        | none =>
            -- An empty patch returns before the fields are looked at.
            if operation.data.keys = [] then
              some
                { applied with
                  store := applied.store.set key (existing.set "updatedAt" (.date (some mergedNow))) }
            else none
        | some fields =>
            let decision :=
              resolvePowerSyncConflict
                { clientPatch := operation.data
                  clientUpdatedAt := some clientNow
                  serverRow := existing
                  protectedFields := fields }
            some
              { store :=
                  applied.store.set key (decision.merged.set "updatedAt" (.date (some mergedNow)))
                rejected :=
                  if decision.outcome = .partialConflict then
                    applied.rejected ++ [(operation.id, operation.type, decision.rejectedFields)]
                  else applied.rejected }

/-- The operations in order; the clock is read twice for each of them. -/
def applyOperations
    (protectedByType : List (String × List String))
    (clock : Nat → Int) : Nat → List Operation → Applied → Option Applied
  | _, [], applied => some applied
  | n, operation :: rest, applied =>
      (applyOperation protectedByType (clock (2 * n)) (clock (2 * n + 1)) operation applied).bind
        (applyOperations protectedByType clock (n + 1) rest)

/-! ## What is written back -/

def isReserved (field : String) : Bool :=
  field = "id" || field = "updatedAt"

/-- `const { id, updatedAt, ...payload } = after` -/
def payload (row : Row Json) : Data :=
  row.restrict fun field => !isReserved field

/-- Every row of the map has both fields, and its `id` is a JSON value. -/
def snapshot (type : String) (row : Row Json) : PowerSyncRowSnapshot where
  type := type
  id :=
    match row.get "id" with
    | some (.other id) => id
    | _ => .null
  data := payload row
  updatedAt := (row.get "updatedAt").getD (.date none)

structure Mutations where
  upserts : List PowerSyncRowSnapshot
  deletes : List Pair

/-- What the map holds for each operation of the batch. -/
def diff (batch : List Operation) (store : Record String (Row Json)) : Mutations where
  upserts :=
    batch.filterMap fun operation =>
      (store.get (rowKey operation.pair)).map (snapshot operation.type)
  deletes :=
    batch.filterMap fun operation =>
      if (store.get (rowKey operation.pair)).isNone then some operation.pair else none

/-- From the loaded rows to the mutations; `none` when applying the batch throws. -/
def plan (clock : Nat → Int) (batch : List Operation) (existing : List PowerSyncRowSnapshot) :
    Option (Mutations × List (String × String × List String)) :=
  (applyOperations [] clock 0 batch { store := hydrate existing, rejected := [] }).map
    fun applied => (diff batch applied.store, applied.rejected)

def typesOf (batch : List Operation) : List String :=
  (batch.map Operation.type).eraseDups

/-! ## The stores -/

/-- `PowerSyncStore`; `applyMutations` gets the time of its writes and may reject. -/
structure PowerSyncStore (σ : Type) where
  loadByTypes : σ → (tenantId : String) → (types : List String) → List PowerSyncRowSnapshot
  applyMutations : σ → (tenantId : String) → (now : Int) → Mutations → Option σ

structure InMemoryRow where
  tenantId : String
  row : PowerSyncRowSnapshot

abbrev InMemoryRows : Type := Record String InMemoryRow

/-- `${tenantId}:${type}:${id}` -/
def inMemoryKey (tenantId type id : String) : String :=
  tenantId ++ ":" ++ type ++ ":" ++ id

def InMemoryPowerSyncStore : PowerSyncStore InMemoryRows where
  loadByTypes rows tenantId types :=
    ((rows.entries.map Prod.snd).filter fun stored =>
      decide (stored.tenantId = tenantId) && types.contains stored.row.type).map InMemoryRow.row
  applyMutations rows tenantId _ mutations :=
    some
      ((rows.writeAll
        (fun row : PowerSyncRowSnapshot => inMemoryKey tenantId row.type row.id.toText)
        (fun row => { tenantId := tenantId, row := row }) mutations.upserts).removeAll
          (mutations.deletes.map fun pair => inMemoryKey tenantId pair.1 pair.2))

structure PrismaRow where
  data : Data
  updatedAt : Int

/-- `power_sync_rows`, by tenant, type and id. -/
abbrev PrismaRows : Type := Record (String × String × String) PrismaRow

/-- The id column takes texts. -/
def textId : Json → Option String
  | .str id => some id
  | _ => none

def PrismaPowerSyncStore : PowerSyncStore PrismaRows where
  loadByTypes rows tenantId types :=
    (rows.entries.filter fun entry =>
      decide (entry.1.1 = tenantId) && types.contains entry.1.2.1).map fun entry =>
        { type := entry.1.2.1
          id := .str entry.1.2.2
          data := entry.2.data
          updatedAt := .date (some entry.2.updatedAt) }
  applyMutations rows tenantId now mutations :=
    -- One transaction: a rejected upsert leaves the table as it was.
    if mutations.upserts.all fun row => (textId row.id).isSome then
      some
        ((rows.writeAll
          (fun row : PowerSyncRowSnapshot => (tenantId, row.type, (textId row.id).getD ""))
          (fun row => { data := row.data, updatedAt := now }) mutations.upserts).removeAll
            (mutations.deletes.map fun pair => (tenantId, pair.1, pair.2)))
    else none

/-! ## The controller -/

/-- A request, with the readings of the clock and the time its rows are written. -/
structure Request where
  body : Json
  clock : Nat → Int
  writtenAt : Int

inductive Answer where
  | noContent
  /-- `BadRequestException("invalid CRUD batch")` -/
  | invalidBatch
  /-- `BadRequestException({ rejected })` -/
  | rejected (rejected : List (String × String × List String))
  | serverError
deriving DecidableEq, Repr

/-- `crud` of an authorized request of the tenant. -/
def crud
    {σ : Type}
    (store : PowerSyncStore σ)
    (tenantId : String)
    (request : Request)
    (s : σ) : σ × Answer :=
  match parsePowerSyncCrudBatch request.body with
  | none => (s, .invalidBatch)
  | some batch =>
      let existing := store.loadByTypes s tenantId (typesOf batch)
      match plan request.clock batch existing with
      | none => (s, .serverError)
      | some (mutations, rejected) =>
          match store.applyMutations s tenantId request.writtenAt mutations with
          | none => (s, .serverError)
          | some s' => if rejected = [] then (s', .noContent) else (s', .rejected rejected)

end PowerSync
end NestBase
