import NestBase.Core.FileStorage
import NestBase.Lib.Tombstones

/-!
# Folders, and the storages as they are bound

`FolderService` and `FileService` keep their rows through `PrismaFolderStorage`
and `PrismaFileStorage`.  Each adapter has a property `__tx` that stories bind
to a fake; `bindPrismaFolderStorage` and `bindPrismaFileStorage` bind none.
Without it the file adapter looks rows up in a transaction of the tenant, and
the folder adapter finds none.

`Storages` is what both services call, so that they run on the tables and on
plain maps alike.
-/

namespace NestBase
namespace Files

open Lib

/-! ## Columns -/

/-- What a uuid column holds for a text, where it takes the text. -/
structure UuidColumn where
  parse : String → Option String
  canonical : ∀ text value, parse text = some value → parse value = some value

def UuidColumn.parseOptional (uuid : UuidColumn) : Option String → Option (Option String)
  | none => some none
  | some text => (uuid.parse text).map some

/-- A text column takes no U+0000. -/
def takesText (text : String) : Bool :=
  !text.toList.contains (Char.ofNat 0)

/-- A column of 32 bits. -/
def takesInt (n : Int) : Bool :=
  decide (-2147483648 ≤ n ∧ n ≤ 2147483647)

/-- The row as its columns hold it. -/
def FileRow.stored (uuid : UuidColumn) (row : FileRow) : Option FileRow := do
  let id ← uuid.parse row.id
  let tenantId ← uuid.parse row.tenantId
  let folderId ← uuid.parseOptional row.folderId
  let uploaderId ← uuid.parse row.uploaderId
  if takesText row.filename && takesText row.mimeType && takesText row.sha256 &&
      takesText row.storageDriver && takesText row.storageKey && takesInt row.sizeBytes then
    some { row with id := id, tenantId := tenantId, folderId := folderId, uploaderId := uploaderId }
  else none

/-! ## Folders -/

structure FolderRecord where
  id : String
  tenantId : String
  parentId : Option String
  name : String
deriving DecidableEq, Repr

structure FolderRow where
  id : String
  tenantId : String
  parentId : Option String
  name : String
  deletedAt : Option Int
deriving DecidableEq, Repr

structure FolderTable where
  rows : List FolderRow
  ids_nodup : KeysNodup FolderRow.id rows

def FolderRow.stored (uuid : UuidColumn) (row : FolderRow) : Option FolderRow := do
  let id ← uuid.parse row.id
  let tenantId ← uuid.parse row.tenantId
  let parentId ← uuid.parseOptional row.parentId
  if takesText row.name then some { row with id := id, tenantId := tenantId, parentId := parentId }
  else none

/-- Both tables. -/
structure Database where
  folders : FolderTable
  files : FileTable

def emptyDatabase : Database where
  folders := ⟨[], List.nodup_nil⟩
  files := ⟨[], List.nodup_nil⟩

/-- The foreign key of a row; a folder may name itself. -/
def folderExists (folders : FolderTable) (folderId : Option String) : Bool :=
  folderId.all fun id => (findRow FolderRow.id id folders.rows).isSome

/-- The adapters' dependencies; `__tx` is there or not. -/
structure Deps where
  hasTx : Bool
deriving DecidableEq, Repr

def bindPrismaFolderStorage : Deps where
  hasTx := false

def bindPrismaFileStorage : Deps where
  hasTx := false

/-- `runWithRlsTenant` takes UUIDs, and the policy compares the column with the text it was given. -/
def tenantAdmits (tenantId stored : String) : Bool :=
  isUuid tenantId && decide (stored = tenantId)

/-- `findMany` without `orderBy`. -/
structure Arrangement where
  arrange : {α : Type} → List α → List α
  perm : ∀ {α : Type} (rows : List α), (arrange rows).Perm rows

namespace PrismaFolderStorage

def toRow (record : FolderRecord) : FolderRow where
  id := record.id
  tenantId := record.tenantId
  parentId := record.parentId
  name := record.name
  deletedAt := none

def fromRow (row : FolderRow) : FolderRecord where
  id := row.id
  tenantId := row.tenantId
  parentId := row.parentId
  name := row.name

/-- `none` where the database refuses the row. -/
def insert (uuid : UuidColumn) (record : FolderRecord) (db : Database) :
    Option (FolderRecord × Database) :=
  match (toRow record).stored uuid with
  | none => none
  | some row =>
      if tenantAdmits record.tenantId row.tenantId &&
          (decide (row.parentId = some row.id) || folderExists db.folders row.parentId) then
        match h : insertRow FolderRow.id row db.folders.rows with
        | none => none
        | some rows =>
            some (fromRow row, { db with folders := ⟨rows, db.folders.ids_nodup.insertRow h⟩ })
      else none

/-- A row the database takes as it is. -/
theorem insert_of_stored
    {uuid : UuidColumn} {record : FolderRecord} {db : Database}
    (hstored : (toRow record).stored uuid = some (toRow record))
    (htenant : isUuid record.tenantId = true)
    (hparent : record.parentId = some record.id ∨ folderExists db.folders record.parentId = true)
    (hfree : findRow FolderRow.id record.id db.folders.rows = none) :
    ∃ folders : FolderTable,
      insert uuid record db = some (record, { db with folders := folders }) ∧
        insertRow FolderRow.id (toRow record) db.folders.rows = some folders.rows := by
  have hrows :
      insertRow FolderRow.id (toRow record) db.folders.rows =
        some (db.folders.rows ++ [toRow record]) :=
    insertRow_eq_some_iff.mpr ⟨hfree, rfl⟩
  have hadmits :
      (tenantAdmits record.tenantId (toRow record).tenantId &&
        (decide ((toRow record).parentId = some (toRow record).id) ||
          folderExists db.folders (toRow record).parentId)) = true := by
    simp only [tenantAdmits, toRow, htenant, Bool.and_eq_true, Bool.or_eq_true, decide_eq_true_eq]
    exact ⟨⟨trivial, trivial⟩, hparent.imp_left decide_eq_true⟩
  refine ⟨⟨_, db.folders.ids_nodup.insertRow hrows⟩, ?_, hrows⟩
  simp only [insert, hstored, hadmits, if_true]
  split
  · next hnone =>
    rw [hrows] at hnone
    cases hnone
  · next rows hsome =>
    rw [hrows] at hsome
    cases hsome
    rfl

/-- There is no lookup without `__tx`. -/
def scanById (deps : Deps) (table : FolderTable) (id : String) : Option FolderRow :=
  if deps.hasTx then findRow FolderRow.id id table.rows else none

def findById (deps : Deps) (table : FolderTable) (id : String) : Option FolderRecord :=
  match scanById deps table id with
  | none => none
  | some row => if row.deletedAt.isSome then none else some (fromRow row)

def listByParent
    (uuid : UuidColumn)
    (tenantId : String)
    (arrangement : Arrangement)
    (table : FolderTable)
    (parentId : Option String) : Option (List FolderRecord) :=
  (uuid.parseOptional parentId).map fun parent =>
    (arrangement.arrange
      (table.rows.filter fun row =>
        decide (row.tenantId = tenantId ∧ row.parentId = parent ∧ row.deletedAt = none))).map
      fromRow

/-- Change the row with the given id. -/
def change
    (id : String)
    (f : FolderRow → FolderRow)
    (hid : ∀ row, (f row).id = row.id)
    (table : FolderTable) : FolderTable where
  rows := updateMany (fun row => decide (row.id = id)) f table.rows
  ids_nodup := table.ids_nodup.updateMany _ hid

/-- The patch of a rename; `none` where the database refuses the name. -/
def update (deps : Deps) (table : FolderTable) (id name : String) :
    Option (Option FolderRecord × FolderTable) :=
  match scanById deps table id with
  | none => some (none, table)
  | some row =>
      if row.deletedAt.isSome then some (none, table)
      else if takesText name then
        some
          (some (fromRow { row with name := name }),
            change id (fun row => { row with name := name }) (fun _ => rfl) table)
      else none

def delete (deps : Deps) (table : FolderTable) (id : String) (now : Int) : Bool × FolderTable :=
  match scanById deps table id with
  | none => (false, table)
  | some row =>
      if row.deletedAt.isSome then (false, table)
      else (true, change id (fun row => { row with deletedAt := some now }) (fun _ => rfl) table)

end PrismaFolderStorage

/-! ## Files -/

namespace BoundFileStorage

open PrismaFileStorage

/-- `PrismaFileStorage.insert`; `none` where the database refuses the row. -/
def insert (uuid : UuidColumn) (record : FileRecord) (db : Database) :
    Option (FileRecord × Database) :=
  match (toRow record).stored uuid with
  | none => none
  | some row =>
      if tenantAdmits record.tenantId row.tenantId && folderExists db.folders row.folderId then
        match h : insertRow FileRow.id row db.files.rows with
        | none => none
        | some rows =>
            some (fromRow row, { db with files := ⟨rows, db.files.ids_nodup.insertRow h⟩ })
      else none

/-- A row the database takes as it is; the table has no column for a verdict. -/
theorem insert_of_stored
    {uuid : UuidColumn} {record : FileRecord} {db : Database}
    (hstored : (toRow record).stored uuid = some (toRow record))
    (htenant : isUuid record.tenantId = true)
    (hfolder : folderExists db.folders record.folderId = true)
    (hfree : findRow FileRow.id record.id db.files.rows = none) :
    ∃ files : FileTable,
      insert uuid record db = some (fromRow (toRow record), { db with files := files }) ∧
        insertRow FileRow.id (toRow record) db.files.rows = some files.rows := by
  have hrows :
      insertRow FileRow.id (toRow record) db.files.rows =
        some (db.files.rows ++ [toRow record]) :=
    insertRow_eq_some_iff.mpr ⟨hfree, rfl⟩
  have hadmits :
      (tenantAdmits record.tenantId (toRow record).tenantId &&
        folderExists db.folders (toRow record).folderId) = true := by
    simp only [tenantAdmits, toRow, htenant, Bool.and_eq_true, decide_eq_true_eq]
    exact ⟨⟨trivial, trivial⟩, hfolder⟩
  refine ⟨⟨_, db.files.ids_nodup.insertRow hrows⟩, ?_, hrows⟩
  simp only [insert, hstored, hadmits, if_true]
  split
  · next hnone =>
    rw [hrows] at hnone
    cases hnone
  · next rows hsome =>
    rw [hrows] at hsome
    cases hsome
    rfl

/-- Without `__tx` a query in the tenant's transaction; one that throws finds nothing. -/
def scanById
    (deps : Deps) (uuid : UuidColumn) (tenantId : String) (table : FileTable) (id : String) :
    Option FileRow :=
  if deps.hasTx then findRow FileRow.id id table.rows
  else
    match uuid.parse id with
    | none => none
    | some id => findRow FileRow.id id (visible tenantId table)

def findById
    (deps : Deps) (uuid : UuidColumn) (tenantId : String) (table : FileTable) (id : String) :
    Option FileRecord :=
  match scanById deps uuid tenantId table id with
  | none => none
  | some row => if row.deletedAt.isSome then none else some (fromRow row)

/-- The same query with the tenant's id; both go to one transaction. -/
def findByIdInTenant
    (deps : Deps) (uuid : UuidColumn) (tenantId : String) (table : FileTable) (id : String) :
    Option FileRecord :=
  if deps.hasTx then
    match findRow FileRow.id id (visible tenantId table) with
    | none => none
    | some row => if row.deletedAt.isSome then none else some (fromRow row)
  else findById deps uuid tenantId table id

def listByFolder
    (uuid : UuidColumn)
    (tenantId : String)
    (arrangement : Arrangement)
    (table : FileTable)
    (folderId : Option String) : Option (List FileRecord) :=
  (uuid.parseOptional folderId).map fun folder =>
    arrangement.arrange (PrismaFileStorage.listByFolder tenantId folder table)

/-- `none` where the database refuses the patched row; the patches here have no ids. -/
def update
    (deps : Deps) (uuid : UuidColumn) (tenantId : String) (table : FileTable)
    (id : String) (patch : FilePatch) : Option (Option FileRecord × FileTable) :=
  match scanById deps uuid tenantId table id with
  | none => some (none, table)
  | some row =>
      if row.deletedAt.isSome then some (none, table)
      else
        match (toRowPatch patch row).stored uuid with
        | none => none
        | some next =>
            some (some (fromRow next), PrismaFileStorage.update row.tenantId row.id patch table)

def delete
    (deps : Deps) (uuid : UuidColumn) (tenantId : String) (table : FileTable)
    (id : String) (now : Int) : Bool × FileTable :=
  match scanById deps uuid tenantId table id with
  | none => (false, table)
  | some row =>
      if row.deletedAt.isSome then (false, table)
      else (true, PrismaFileStorage.delete row.tenantId row.id now table)

end BoundFileStorage

/-! ## What the services call -/

/-- `FolderStorage` and `FileServiceStorage` of one tenant; `none` is a promise that rejects. -/
structure Storages (σ : Type) where
  insertFolder : FolderRecord → σ → Option (FolderRecord × σ)
  findFolder : String → σ → Option FolderRecord
  listFolders : Option String → σ → Option (List FolderRecord)
  updateFolder : String → (name : String) → σ → Option (Option FolderRecord × σ)
  deleteFolder : String → (now : Int) → σ → Bool × σ
  insertFile : FileRecord → σ → Option (FileRecord × σ)
  findFile : String → σ → Option FileRecord
  findFileInTenant : String → σ → Option FileRecord
  listFiles : Option String → σ → Option (List FileRecord)
  updateFile : String → FilePatch → σ → Option (Option FileRecord × σ)
  deleteFile : String → (now : Int) → σ → Bool × σ

/-- The storages as the module binds them. -/
def prismaStorages (uuid : UuidColumn) (tenantId : String) (arrangement : Arrangement) :
    Storages Database where
  insertFolder := PrismaFolderStorage.insert uuid
  findFolder id db := PrismaFolderStorage.findById bindPrismaFolderStorage db.folders id
  listFolders parentId db :=
    PrismaFolderStorage.listByParent uuid tenantId arrangement db.folders parentId
  updateFolder id name db :=
    (PrismaFolderStorage.update bindPrismaFolderStorage db.folders id name).map fun updated =>
      (updated.1, { db with folders := updated.2 })
  deleteFolder id now db :=
    let deleted := PrismaFolderStorage.delete bindPrismaFolderStorage db.folders id now
    (deleted.1, { db with folders := deleted.2 })
  insertFile := BoundFileStorage.insert uuid
  findFile id db := BoundFileStorage.findById bindPrismaFileStorage uuid tenantId db.files id
  findFileInTenant id db :=
    BoundFileStorage.findByIdInTenant bindPrismaFileStorage uuid tenantId db.files id
  listFiles folderId db :=
    BoundFileStorage.listByFolder uuid tenantId arrangement db.files folderId
  updateFile id patch db :=
    (BoundFileStorage.update bindPrismaFileStorage uuid tenantId db.files id patch).map
      fun updated => (updated.1, { db with files := updated.2 })
  deleteFile id now db :=
    let deleted := BoundFileStorage.delete bindPrismaFileStorage uuid tenantId db.files id now
    (deleted.1, { db with files := deleted.2 })

/-- A patch of the file service on a record. -/
def FilePatch.onRecord (patch : FilePatch) (record : FileRecord) : FileRecord :=
  { record with
    filename := patch.filename.getD record.filename
    mimeType := patch.mimeType.getD record.mimeType
    sizeBytes := patch.sizeBytes.getD record.sizeBytes
    sha256 := patch.sha256.getD record.sha256
    storageDriver := patch.storageDriver.getD record.storageDriver
    storageKey := patch.storageKey.getD record.storageKey
    folderId := patch.folderId.getD record.folderId
    visibility := patch.visibility.getD record.visibility }

structure PlainMaps where
  folders : Tombstones String FolderRecord
  files : Tombstones String FileRecord

def emptyMaps : PlainMaps where
  folders := Record.empty
  files := Record.empty

/-- The storages as plain maps from ids to records. -/
def plainStorages : Storages PlainMaps where
  insertFolder record maps :=
    some (record, { maps with folders := maps.folders.insert record.id record })
  findFolder id maps := maps.folders.find id
  listFolders parentId maps :=
    some (maps.folders.list fun record => decide (record.parentId = parentId))
  updateFolder id name maps :=
    let updated := maps.folders.update id fun record => { record with name := name }
    some (updated.1, { maps with folders := updated.2 })
  deleteFolder id _ maps :=
    let deleted := maps.folders.delete id
    (deleted.1, { maps with folders := deleted.2 })
  insertFile record maps :=
    some (record, { maps with files := maps.files.insert record.id record })
  findFile id maps := maps.files.find id
  findFileInTenant id maps := maps.files.find id
  listFiles folderId maps :=
    some (maps.files.list fun record => decide (record.folderId = folderId))
  updateFile id patch maps :=
    let updated := maps.files.update id patch.onRecord
    some (updated.1, { maps with files := updated.2 })
  deleteFile id _ maps :=
    let deleted := maps.files.delete id
    (deleted.1, { maps with files := deleted.2 })

inductive Operation where
  /-- `FolderService.create`, with the drawn id -/
  | createFolder (record : FolderRecord)
  | findFolder (id : String)
  | listChildren (parentId : Option String)
  | renameFolder (id name : String)
  | removeFolder (id : String) (now : Int)
  /-- `FileService.create`, `insertRecord` and `uploadAndCreate` -/
  | insertFile (record : FileRecord)
  | findFile (id : String)
  | findFileInTenant (id : String)
  | listInFolder (folderId : Option String)
  | renameFile (id filename : String)
  | setVisibility (id : String) (visibility : Visibility)
  | removeFile (id : String) (now : Int)

inductive Answer where
  | folder (record : Option FolderRecord)
  | folders (records : List FolderRecord)
  | file (record : Option FileRecord)
  | files (records : List FileRecord)
  | removed
  /-- `FolderNotFoundError` and `FileNotFoundError` -/
  | notFound (message : String)
  /-- The query throws. -/
  | failed
deriving DecidableEq, Repr

def folderNotFound (id : String) : Answer :=
  .notFound ("folder not found: " ++ id)

def fileNotFound (id : String) : Answer :=
  .notFound ("file not found: " ++ id)

def renamePatch (filename : String) : FilePatch :=
  ⟨some filename, none, none, none, none, none, none, none⟩

def visibilityPatch (visibility : Visibility) : FilePatch :=
  ⟨none, none, none, none, none, none, none, some visibility⟩

section Serve

variable {σ : Type}

/-- `FileService.rename` and `setVisibility`. -/
def serveUpdate (storages : Storages σ) (id : String) (patch : FilePatch) (s : σ) : Answer × σ :=
  match storages.updateFile id patch s with
  | none => (.failed, s)
  | some (none, s') => (fileNotFound id, s')
  | some (some record, s') => (.file (some record), s')

/-- One call of a service. -/
def serveStorage (storages : Storages σ) (operation : Operation) (s : σ) : Answer × σ :=
  match operation with
  | .createFolder record =>
      match storages.insertFolder record s with
      | none => (.failed, s)
      | some (created, s') => (.folder (some created), s')
  | .findFolder id => (.folder (storages.findFolder id s), s)
  | .listChildren parentId =>
      match storages.listFolders parentId s with
      | none => (.failed, s)
      | some records => (.folders records, s)
  | .renameFolder id name =>
      match storages.updateFolder id name s with
      | none => (.failed, s)
      | some (none, s') => (folderNotFound id, s')
      | some (some record, s') => (.folder (some record), s')
  | .removeFolder id now =>
      let deleted := storages.deleteFolder id now s
      (if deleted.1 then .removed else folderNotFound id, deleted.2)
  | .insertFile record =>
      match storages.insertFile record s with
      | none => (.failed, s)
      | some (created, s') => (.file (some created), s')
  | .findFile id => (.file (storages.findFile id s), s)
  | .findFileInTenant id => (.file (storages.findFileInTenant id s), s)
  | .listInFolder folderId =>
      match storages.listFiles folderId s with
      | none => (.failed, s)
      | some records => (.files records, s)
  | .renameFile id filename => serveUpdate storages id (renamePatch filename) s
  | .setVisibility id visibility => serveUpdate storages id (visibilityPatch visibility) s
  | .removeFile id now =>
      let deleted := storages.deleteFile id now s
      (if deleted.1 then .removed else fileNotFound id, deleted.2)

end Serve

end Files
end NestBase
