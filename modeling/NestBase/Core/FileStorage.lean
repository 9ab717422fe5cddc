import NestBase.Lib.Json
import NestBase.Lib.PosixPath
import NestBase.Lib.Table
import NestBase.Lib.Text
import NestBase.Lib.Unicode

/-!
# Storage of files

A file has its bytes in a `StorageAdapter`, which is one store for all
tenants addressed by text keys, and a row in `files`, which row-level
security shows to the row's tenant only.

The adapters differ in what a key names.  S3, RustFS, Postgres and the
in-memory adapter take it as it is.  `LocalStorageAdapter` normalizes it to a
path below its root, and writes a sidecar with the MIME type next to every
object.
-/

namespace NestBase
namespace Files

open Lib

/-! ## Ids -/

def isHexDigit (c : Char) : Bool :=
  decide ('0' ≤ c ∧ c ≤ '9') || decide ('a' ≤ c ∧ c ≤ 'f') || decide ('A' ≤ c ∧ c ≤ 'F')

/-- `UUID_PATTERN`: groups of 8, 4, 4, 4 and 12 hexadecimal digits. -/
def isUuid (s : String) : Bool :=
  let groups := s.toList.splitOn '-'
  decide (groups.map List.length = [8, 4, 4, 4, 12]) && groups.all (·.all isHexDigit)

/-- A tenant id that `requireTenantContext` lets pass, or a drawn file id. -/
structure Uuid where
  value : String
  valid : isUuid value = true

/-! ## Storage path -/

/-- The classes `\p{L}` and `\p{N}` of regular expressions; on ASCII letters and digits. -/
structure UnicodeClasses where
  letterOrNumber : Char → Bool
  ascii : ∀ c : Char, c.toNat < 128 → letterOrNumber c = c.isAlphanum

/-- The two classes without the letters and digits beyond ASCII. -/
def asciiClasses : UnicodeClasses where
  letterOrNumber := Char.isAlphanum
  ascii _ _ := rfl

/-- A character the expression `[^\p{L}\p{N}._-]` does not replace. -/
def keeps (unicode : UnicodeClasses) (c : Char) : Bool :=
  unicode.letterOrNumber c || decide (c = '.') || decide (c = '_') || decide (c = '-')

def sanitiseFilename (unicode : UnicodeClasses) (input : String) : Except String String :=
  if input = "" then .error "storage-path: filename is required"
  else
    let slashed := input.toList.map fun c => if c = '\\' then '/' else c
    let segments :=
      (slashed.splitOn '/').filter fun seg => decide (0 < seg.length ∧ seg ≠ PosixPath.parent)
    let joined := ['-'].intercalate segments
    let safe := joined.map fun c => if keeps unicode c then c else '-'
    if safe = [] then .error "storage-path: filename is empty after sanitisation"
    else .ok (String.ofList safe)

def ROOT_SEGMENT : String := "_root"

/-- `<tenantId>/<folderId|_root>/<fileId>-<sanitised-filename>`; the folder is taken as it is. -/
def resolveStoragePath
    (unicode : UnicodeClasses)
    (tenantId : String)
    (folderId : Option String)
    (fileId filename : String) : Except String String :=
  if tenantId = "" then .error "storage-path: tenantId is required"
  else if fileId = "" then .error "storage-path: fileId is required"
  else if filename = "" then .error "storage-path: filename is required"
  else
    let folder := folderId.getD ROOT_SEGMENT
    match sanitiseFilename unicode filename with
    | .error message => .error message
    | .ok cleanFilename =>
        .ok (tenantId ++ "/" ++ folder ++ "/" ++ fileId ++ "-" ++ cleanFilename)

/-! ## Adapters -/

inductive Driver where
  | memory
  | s3
  | rustfs
  | postgres
  | localFs
deriving DecidableEq, Repr

/-- `adapter.driverName` -/
def Driver.driverName : Driver → String
  | memory => "memory"
  | s3 => "s3"
  | rustfs => "rustfs"
  | postgres => "postgres"
  | localFs => "local"

/-- `detectDriver`, by the name of the class. -/
def detectDriver : Driver → String
  | .s3 => "s3"
  | .localFs => "local"
  | .postgres => "postgres"
  | .rustfs => "memory"
  | .memory => "memory"

/-- What a key names in a store. -/
inductive Slot where
  | key (key : String)
  | path (segments : List PosixPath.Segment)
deriving DecidableEq

inductive StoredObject where
  | file (bytes : Bytes)
  | sidecar (mimeType : String)
deriving DecidableEq

/-- The bytes a read returns. -/
def StoredObject.bytes : StoredObject → Bytes
  | file bytes => bytes
  | sidecar mimeType =>
      Unicode.utf8 ("\x7b\"mimeType\":" ++ Json.quote mimeType ++ "\x7d").toList

abbrev Store : Type := Slot → Option StoredObject

inductive StorageError where
  | notFound
  | failed (message : String)
deriving DecidableEq, Repr

/-- `LocalStorageAdapter.resolveSafe`, as the segments below the root. -/
def resolveSafe (key : String) : Except StorageError (List PosixPath.Segment) :=
  if key = "" then .error (.failed "storage: key is required")
  else
    let normalized := String.ofList (PosixPath.normalize key.toList)
    if Text.startsWith normalized ".." || Text.includes normalized "../" ||
        Text.startsWith normalized "/" then
      .error (.failed ("storage: path traversal rejected for key \"" ++ key ++ "\""))
    else .ok (PosixPath.segments key.toList)

def slotOf (driver : Driver) (key : String) : Except StorageError Slot :=
  match driver with
  | .localFs => (resolveSafe key).map .path
  | _ => .ok (.key key)

/-- The `.meta.json` next to an object of the local adapter. -/
def metaPath : List PosixPath.Segment → Slot
  | [] => .path [".meta.json".toList]
  | segments =>
      .path (segments.dropLast ++ [segments.getLastD [] ++ ".meta.json".toList])

namespace StorageAdapter

/-- Write an object, with its sidecar where the adapter keeps one. -/
def write (store : Store) (slot : Slot) (bytes : Bytes) (mimeType : String) : Store :=
  let stored := Function.update store slot (some (.file bytes))
  match slot with
  | .key _ => stored
  | .path segments => Function.update stored (metaPath segments) (some (.sidecar mimeType))

def get (driver : Driver) (store : Store) (key : String) : Except StorageError StoredObject :=
  match slotOf driver key with
  | .error error => .error error
  | .ok slot =>
      match store slot with
      | none => .error .notFound
      | some object => .ok object

/-- The object is gone, and its sidecar with it. -/
def delete (driver : Driver) (store : Store) (key : String) : Except StorageError Store :=
  match slotOf driver key with
  | .error error => .error error
  | .ok slot =>
      match slot with
      | .key _ => .ok (Function.update store slot none)
      | .path segments =>
          .ok (Function.update (Function.update store slot none) (metaPath segments) none)

end StorageAdapter

/-- How a write may fail: before it changed anything, or after the object was written. -/
inductive WriteFault where
  | none
  | unwritten
  | written
deriving DecidableEq, Repr

/-! ## Rows -/

inductive Visibility where
  | PRIVATE
  | PUBLIC
deriving DecidableEq, Repr

inductive ScanVerdict where
  | clean
  | infected
  | indeterminate
deriving DecidableEq, Repr

structure FileRecord where
  id : String
  tenantId : String
  folderId : Option String
  filename : String
  mimeType : String
  sizeBytes : Int
  sha256 : String
  storageDriver : String
  storageKey : String
  uploaderId : String
  visibility : Visibility
  scanVerdict : Option ScanVerdict
  scanThreatName : Option String
deriving DecidableEq, Repr

/-- A row of `files`; the table has no column for a verdict. -/
structure FileRow where
  id : String
  tenantId : String
  folderId : Option String
  filename : String
  mimeType : String
  sizeBytes : Int
  sha256 : String
  storageDriver : String
  storageKey : String
  uploaderId : String
  visibility : Visibility
  deletedAt : Option Int
deriving DecidableEq, Repr

structure FileTable where
  rows : List FileRow
  ids_nodup : KeysNodup FileRow.id rows

/-- The fields `update` takes from a patch. -/
structure FilePatch where
  filename : Option String
  mimeType : Option String
  sizeBytes : Option Int
  sha256 : Option String
  storageDriver : Option String
  storageKey : Option String
  folderId : Option (Option String)
  visibility : Option Visibility

namespace PrismaFileStorage

/-- The visibility column has a default and is not written. -/
def toRow (record : FileRecord) : FileRow where
  id := record.id
  tenantId := record.tenantId
  folderId := record.folderId
  filename := record.filename
  mimeType := record.mimeType
  sizeBytes := record.sizeBytes
  sha256 := record.sha256
  storageDriver := record.storageDriver
  storageKey := record.storageKey
  uploaderId := record.uploaderId
  visibility := .PRIVATE
  deletedAt := none

def fromRow (row : FileRow) : FileRecord where
  id := row.id
  tenantId := row.tenantId
  folderId := row.folderId
  filename := row.filename
  mimeType := row.mimeType
  sizeBytes := row.sizeBytes
  sha256 := row.sha256
  storageDriver := row.storageDriver
  storageKey := row.storageKey
  uploaderId := row.uploaderId
  visibility := row.visibility
  scanVerdict := none
  scanThreatName := none

def toRowPatch (patch : FilePatch) (row : FileRow) : FileRow :=
  { row with
    filename := patch.filename.getD row.filename
    mimeType := patch.mimeType.getD row.mimeType
    sizeBytes := patch.sizeBytes.getD row.sizeBytes
    sha256 := patch.sha256.getD row.sha256
    storageDriver := patch.storageDriver.getD row.storageDriver
    storageKey := patch.storageKey.getD row.storageKey
    folderId := patch.folderId.getD row.folderId
    visibility := patch.visibility.getD row.visibility }

/-- `none` is a taken id or a row the database refuses. -/
def insert (refuses : FileRow → Bool) (table : FileTable) (record : FileRecord) :
    Option FileTable :=
  if refuses (toRow record) then none
  else
    match h : insertRow FileRow.id (toRow record) table.rows with
    | none => none
    | some rows => some ⟨rows, table.ids_nodup.insertRow h⟩

/-- An insert that succeeds has found the id free and appends its row. -/
theorem insert_spec
    {refuses : FileRow → Bool} {table table' : FileTable} {record : FileRecord}
    (hinsert : insert refuses table record = some table') :
    findRow FileRow.id record.id table.rows = none ∧
      table'.rows = table.rows ++ [toRow record] := by
  simp only [insert] at hinsert
  split at hinsert
  · cases hinsert
  · split at hinsert
    · cases hinsert
    · next rows hrows =>
      cases hinsert
      exact insertRow_eq_some_iff.mp hrows

/-- Row-level security: a transaction of a tenant sees the tenant's rows. -/
def visible (tenantId : String) (table : FileTable) : List FileRow :=
  table.rows.filter fun row => decide (row.tenantId = tenantId)

/-- A row of the tenant that is not deleted. -/
def findById (tenantId : String) (table : FileTable) (id : String) : Option FileRecord :=
  match findRow FileRow.id id (visible tenantId table) with
  | none => none
  | some row => if row.deletedAt.isSome then none else some (fromRow row)

def findByIdInTenant (tenantId : String) (table : FileTable) (id : String) : Option FileRecord :=
  findById tenantId table id

def listByFolder (tenantId : String) (folderId : Option String) (table : FileTable) :
    List FileRecord :=
  ((visible tenantId table).filter fun row =>
    decide (row.folderId = folderId ∧ row.deletedAt = none)).map fromRow

/-- Change the live row of the tenant with the given id. -/
def change
    (tenantId id : String)
    (f : FileRow → FileRow)
    (hid : ∀ row, (f row).id = row.id)
    (table : FileTable) : FileTable where
  rows :=
    updateMany
      (fun row => decide (row.id = id ∧ row.tenantId = tenantId ∧ row.deletedAt = none))
      f table.rows
  ids_nodup := table.ids_nodup.updateMany _ hid

def update (tenantId id : String) (patch : FilePatch) (table : FileTable) : FileTable :=
  change tenantId id (toRowPatch patch) (fun _ => rfl) table

/-- Rows are marked deleted, never removed. -/
def delete (tenantId id : String) (now : Int) (table : FileTable) : FileTable :=
  change tenantId id (fun row => { row with deletedAt := some now }) (fun _ => rfl) table

end PrismaFileStorage

end Files
end NestBase
