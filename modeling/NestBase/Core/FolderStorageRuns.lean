import NestBase.Core.FolderStorage
import NestBase.Lib.Transition

/-!
# The storages as plain maps

Every call of the services gets from the tables what it gets from plain maps
(`sameAnswers_of_reaches`), as long as no call asks the folder adapter for a
folder that is there (`Kept`), and no file is inserted with a field the table
has no value for.  `Typed` is what PostgreSQL asks of the arguments.
-/

namespace NestBase
namespace Files
namespace StorageMaps

open Lib
open PrismaFileStorage

/-! ## Tables as maps -/

def folderMap (table : FolderTable) : Tombstones String FolderRecord :=
  Tombstones.ofRows FolderRow.id PrismaFolderStorage.fromRow (fun row => row.deletedAt.isSome)
    table.rows table.ids_nodup

def fileMap (table : FileTable) : Tombstones String FileRecord :=
  Tombstones.ofRows FileRow.id fromRow (fun row => row.deletedAt.isSome) table.rows
    table.ids_nodup

/-- The tables of one tenant are the maps. -/
structure Matches
    (uuid : UuidColumn) (tenantId : String) (db : Database) (maps : PlainMaps) : Prop where
  folders : maps.folders = folderMap db.folders
  files : maps.files = fileMap db.files
  folderTenant : ∀ row ∈ db.folders.rows, row.tenantId = tenantId
  fileTenant : ∀ row ∈ db.files.rows, row.tenantId = tenantId
  stored : ∀ row ∈ db.files.rows, row.stored uuid = some row

/-- No other spelling of a UUID. -/
def Spelled (uuid : UuidColumn) (id : String) : Prop :=
  ∀ value, uuid.parse id = some value → value = id

/-- The columns and the foreign keys take the arguments as they are. -/
def Typed (uuid : UuidColumn) (tenantId : String) (db : Database) : Operation → Prop
  | .createFolder record =>
      record.tenantId = tenantId ∧
        (PrismaFolderStorage.toRow record).stored uuid = some (PrismaFolderStorage.toRow record) ∧
          findRow FolderRow.id record.id db.folders.rows = none ∧
            (record.parentId = some record.id ∨ folderExists db.folders record.parentId = true)
  | .insertFile record =>
      record.tenantId = tenantId ∧ (toRow record).stored uuid = some (toRow record) ∧
        findRow FileRow.id record.id db.files.rows = none ∧
          folderExists db.folders record.folderId = true
  | .listChildren folderId => uuid.parseOptional folderId = some folderId
  | .listInFolder folderId => uuid.parseOptional folderId = some folderId
  | .findFile id => Spelled uuid id
  | .findFileInTenant id => Spelled uuid id
  | .renameFile id filename =>
      Spelled uuid id ∧ ((fileMap db.files).find id ≠ none → takesText filename = true)
  | .setVisibility id _ => Spelled uuid id
  | .removeFile id _ => Spelled uuid id
  | .findFolder _ => True
  | .renameFolder _ _ => True
  | .removeFolder _ _ => True

/-- The call does not need what the adapters leave out. -/
def Kept (db : Database) : Operation → Prop
  | .findFolder id => (folderMap db.folders).find id = none
  | .renameFolder id _ => (folderMap db.folders).find id = none
  | .removeFolder id _ => (folderMap db.folders).find id = none
  | .insertFile record =>
      record.visibility = .PRIVATE ∧ record.scanVerdict = none ∧ record.scanThreatName = none
  | _ => True

/-- Lists come in any order. -/
def Same : Answer → Answer → Prop
  | .folders records, .folders records' => records.Perm records'
  | .files records, .files records' => records.Perm records'
  | answer, answer' => answer = answer'

/-- A call on the tables and on the maps. -/
structure Agrees
    (uuid : UuidColumn) (tenantId : String) (arrangement : Arrangement)
    (db : Database) (maps : PlainMaps) (operation : Operation) : Prop where
  answers :
    Same (serveStorage (prismaStorages uuid tenantId arrangement) operation db).1
      (serveStorage plainStorages operation maps).1
  after :
    Matches uuid tenantId (serveStorage (prismaStorages uuid tenantId arrangement) operation db).2
      (serveStorage plainStorages operation maps).2

/-! ## Stored rows -/

theorem stored_eq_some_iff {uuid : UuidColumn} {row : FileRow} :
    row.stored uuid = some row ↔
      uuid.parse row.id = some row.id ∧ uuid.parse row.tenantId = some row.tenantId ∧
        uuid.parseOptional row.folderId = some row.folderId ∧
          uuid.parse row.uploaderId = some row.uploaderId ∧
            (takesText row.filename && takesText row.mimeType && takesText row.sha256 &&
              takesText row.storageDriver && takesText row.storageKey &&
                takesInt row.sizeBytes) = true := by
  simp only [FileRow.stored, Option.bind_eq_bind, Option.bind_eq_some_iff]
  constructor
  · rintro ⟨id, hid, tenantId, htenant, folderId, hfolder, uploaderId, huploader, hrest⟩
    split at hrest
    · next htexts =>
      have hrow := Option.some.inj hrest
      refine ⟨?_, ?_, ?_, ?_, htexts⟩
      · exact hid.trans (congrArg (fun row => some row.id) hrow)
      · exact htenant.trans (congrArg (fun row => some row.tenantId) hrow)
      · exact hfolder.trans (congrArg (fun row => some row.folderId) hrow)
      · exact huploader.trans (congrArg (fun row => some row.uploaderId) hrow)
    · cases hrest
  · rintro ⟨hid, htenant, hfolder, huploader, htexts⟩
    exact
      ⟨row.id, hid, row.tenantId, htenant, row.folderId, hfolder, row.uploaderId, huploader,
        if_pos htexts⟩

section Calls

variable {uuid : UuidColumn}
variable {tenantId : String}
variable {arrangement : Arrangement}
variable {db : Database}
variable {maps : PlainMaps}

theorem visible_eq_rows (h : Matches uuid tenantId db maps) :
    visible tenantId db.files = db.files.rows := by
  refine List.filter_eq_self.mpr fun row hrow => ?_
  exact decide_eq_true (h.fileTenant row hrow)

/-- In the table of one tenant the adapter finds the row of the id. -/
theorem scanById_eq (h : Matches uuid tenantId db maps) {id : String} (hspelled : Spelled uuid id) :
    BoundFileStorage.scanById bindPrismaFileStorage uuid tenantId db.files id =
      findRow FileRow.id id db.files.rows := by
  unfold BoundFileStorage.scanById
  rw [if_neg (show ¬ bindPrismaFileStorage.hasTx = true from Bool.false_ne_true),
    visible_eq_rows h]
  cases hparse : uuid.parse id with
  | none =>
      cases hfound : findRow FileRow.id id db.files.rows with
      | none => rfl
      | some row =>
          have hid := (stored_eq_some_iff.mp (h.stored row (mem_of_findRow hfound))).1
          rw [key_of_findRow hfound, hparse] at hid
          cases hid
  | some value =>
      obtain rfl := hspelled value hparse
      rfl

theorem find_fileMap (table : FileTable) (id : String) :
    (fileMap table).find id =
      (findRow FileRow.id id table.rows).bind fun row =>
        if row.deletedAt.isSome then none else some (fromRow row) :=
  Tombstones.find_ofRows table.ids_nodup id

theorem findById_eq (h : Matches uuid tenantId db maps) {id : String} (hspelled : Spelled uuid id) :
    BoundFileStorage.findById bindPrismaFileStorage uuid tenantId db.files id =
      maps.files.find id := by
  rw [BoundFileStorage.findById, scanById_eq h hspelled, h.files, find_fileMap]
  cases findRow FileRow.id id db.files.rows <;> rfl

/-- Changing the live row of an id changes the record of the id. -/
theorem fileMap_change
    (h : Matches uuid tenantId db maps)
    {id : String} {row : FileRow}
    (hfound : findRow FileRow.id id db.files.rows = some row)
    (hlive : row.deletedAt = none)
    {f : FileRow → FileRow}
    (hid : ∀ row, (f row).id = row.id) :
    fileMap (change tenantId id f hid db.files) =
      (fileMap db.files).set id (fromRow (f row), (f row).deletedAt.isSome) := by
  refine Tombstones.ofRows_updateMany db.files.ids_nodup hfound _ hid ?_
  intro other hother
  refine decide_eq_decide.mpr ⟨fun hmatch => hmatch.1, fun hsame => ?_⟩
  have hrow := findRow_of_mem db.files.ids_nodup hother
  rw [hsame, hfound] at hrow
  cases hrow
  exact ⟨hsame, h.fileTenant row hother, hlive⟩

/-- What stays when the row of a file changes. -/
theorem matches_change
    (h : Matches uuid tenantId db maps)
    {id : String} {row : FileRow}
    (hfound : findRow FileRow.id id db.files.rows = some row)
    (hlive : row.deletedAt = none)
    (f : FileRow → FileRow)
    (hid : ∀ row, (f row).id = row.id)
    (htenant : ∀ row, (f row).tenantId = row.tenantId)
    (hstored : (f row).stored uuid = some (f row)) :
    Matches uuid tenantId { db with files := change tenantId id f hid db.files }
      { maps with
        files := maps.files.set id (fromRow (f row), (f row).deletedAt.isSome) } where
  folders := h.folders
  files := by
    change maps.files.set id _ = fileMap (change tenantId id f hid db.files)
    rw [fileMap_change h hfound hlive hid, h.files]
  folderTenant := h.folderTenant
  fileTenant := by
    intro row' hrow'
    obtain ⟨old, hold, hcase⟩ := exists_of_mem_updateMany hrow'
    rcases hcase with ⟨-, hnew⟩ | ⟨-, hsame⟩
    · rw [hnew, htenant]
      exact h.fileTenant old hold
    · rw [hsame]
      exact h.fileTenant old hold
  stored := by
    intro row' hrow'
    obtain ⟨old, hold, hcase⟩ := exists_of_mem_updateMany hrow'
    rcases hcase with ⟨hmatch, hnew⟩ | ⟨-, hsame⟩
    · have hfind := findRow_of_mem db.files.ids_nodup hold
      rw [(of_decide_eq_true hmatch).1, hfound] at hfind
      cases hfind
      rw [hnew]
      exact hstored
    · rw [hsame]
      exact h.stored old hold

/-! ## Calls on folders -/

theorem agrees_createFolder
    (h : Matches uuid tenantId db maps)
    {record : FolderRecord}
    (hvalid : isUuid tenantId = true)
    (htyped : Typed uuid tenantId db (.createFolder record)) :
    Agrees uuid tenantId arrangement db maps (.createFolder record) := by
  obtain ⟨rfl, hstored, hfree, hparent⟩ := htyped
  obtain ⟨folders, hinsert, hrows⟩ :=
    PrismaFolderStorage.insert_of_stored hstored hvalid hparent hfree
  have hserve :
      serveStorage (prismaStorages uuid record.tenantId arrangement) (.createFolder record) db =
        (.folder (some record), { db with folders := folders }) := by
    simp only [serveStorage, prismaStorages, hinsert]
  constructor
  · rw [hserve]
    exact rfl
  · rw [hserve]
    refine ⟨?_, h.files, ?_, h.fileTenant, h.stored⟩
    · change maps.folders.insert record.id record = folderMap folders
      rw [h.folders]
      exact
        (Tombstones.ofRows_insertRow db.folders.ids_nodup folders.ids_nodup hrows rfl).symm
    · intro row hrow
      change row ∈ folders.rows at hrow
      rw [(insertRow_eq_some_iff.mp hrows).2, List.mem_append, List.mem_singleton] at hrow
      rcases hrow with hold | rfl
      · exact h.folderTenant row hold
      · rfl

/-- Without a lookup a folder that is not there is not found either way. -/
theorem agrees_findFolder
    (h : Matches uuid tenantId db maps)
    {id : String}
    (hkept : (folderMap db.folders).find id = none) :
    Agrees uuid tenantId arrangement db maps (.findFolder id) := by
  refine ⟨?_, h⟩
  simp only [serveStorage, plainStorages, h.folders, hkept]
  exact rfl

theorem agrees_renameFolder
    (h : Matches uuid tenantId db maps)
    {id name : String}
    (hkept : (folderMap db.folders).find id = none) :
    Agrees uuid tenantId arrangement db maps (.renameFolder id name) := by
  have hplain :
      serveStorage plainStorages (.renameFolder id name) maps = (folderNotFound id, maps) := by
    simp only [serveStorage, plainStorages, Tombstones.update, h.folders, hkept]
    rw [← h.folders]
  constructor
  · rw [hplain]
    exact rfl
  · rw [hplain]
    exact h

theorem agrees_removeFolder
    (h : Matches uuid tenantId db maps)
    {id : String} {now : Int}
    (hkept : (folderMap db.folders).find id = none) :
    Agrees uuid tenantId arrangement db maps (.removeFolder id now) := by
  have hplain :
      serveStorage plainStorages (.removeFolder id now) maps = (folderNotFound id, maps) := by
    simp only [serveStorage, plainStorages, Tombstones.delete, h.folders, hkept]
    rw [← h.folders]
    rfl
  constructor
  · rw [hplain]
    exact rfl
  · rw [hplain]
    exact h

theorem agrees_listChildren
    (h : Matches uuid tenantId db maps)
    {parentId : Option String}
    (htyped : Typed uuid tenantId db (.listChildren parentId)) :
    Agrees uuid tenantId arrangement db maps (.listChildren parentId) := by
  have hparse : uuid.parseOptional parentId = some parentId := htyped
  have hplain :
      maps.folders.list (fun record => decide (record.parentId = parentId)) =
        (db.folders.rows.filter fun row =>
          decide (row.tenantId = tenantId ∧ row.parentId = parentId ∧ row.deletedAt = none)).map
          PrismaFolderStorage.fromRow := by
    rw [h.folders, folderMap, Tombstones.list_ofRows]
    refine congrArg _ (List.filter_congr fun row hrow => ?_)
    rw [Bool.eq_iff_iff, Bool.and_eq_true, decide_eq_true_eq, decide_eq_true_eq]
    cases hdeleted : row.deletedAt with
    | none =>
        exact
          ⟨fun hboth => ⟨h.folderTenant row hrow, hboth.2, rfl⟩, fun hall => ⟨rfl, hall.2.1⟩⟩
    | some time => exact ⟨fun hboth => absurd hboth.1 Bool.false_ne_true, fun hall => nomatch hall.2.2⟩
  constructor
  · simp only [serveStorage, prismaStorages, plainStorages, PrismaFolderStorage.listByParent,
      hparse, Option.map_some, hplain]
    exact (arrangement.perm _).map _
  · simp only [serveStorage, prismaStorages, plainStorages, PrismaFolderStorage.listByParent,
      hparse, Option.map_some]
    exact h

/-! ## Calls on files -/

theorem agrees_insertFile
    (h : Matches uuid tenantId db maps)
    {record : FileRecord}
    (hvalid : isUuid tenantId = true)
    (htyped : Typed uuid tenantId db (.insertFile record))
    (hkept : Kept db (.insertFile record)) :
    Agrees uuid tenantId arrangement db maps (.insertFile record) := by
  obtain ⟨rfl, hstored, hfree, hfolder⟩ := htyped
  obtain ⟨hvisibility, hverdict, hthreat⟩ := hkept
  have hrecord : fromRow (toRow record) = record := by
    obtain ⟨⟩ := record
    simp only at hvisibility hverdict hthreat
    subst hvisibility hverdict hthreat
    rfl
  obtain ⟨files, hinsert, hrows⟩ :=
    BoundFileStorage.insert_of_stored hstored hvalid hfolder hfree
  rw [hrecord] at hinsert
  have hserve :
      serveStorage (prismaStorages uuid record.tenantId arrangement) (.insertFile record) db =
        (.file (some record), { db with files := files }) := by
    simp only [serveStorage, prismaStorages, hinsert]
  have hmem : ∀ row ∈ files.rows, row ∈ db.files.rows ∨ row = toRow record := by
    intro row hrow
    rw [(insertRow_eq_some_iff.mp hrows).2, List.mem_append, List.mem_singleton] at hrow
    exact hrow
  constructor
  · rw [hserve]
    exact rfl
  · rw [hserve]
    refine ⟨h.folders, ?_, h.folderTenant, ?_, ?_⟩
    · change maps.files.insert record.id record = fileMap files
      have hmap :
          fileMap files = (fileMap db.files).insert record.id (fromRow (toRow record)) :=
        Tombstones.ofRows_insertRow db.files.ids_nodup files.ids_nodup hrows rfl
      rw [hmap, hrecord, h.files]
    · intro row hrow
      rcases hmem row hrow with hold | rfl
      · exact h.fileTenant row hold
      · rfl
    · intro row hrow
      rcases hmem row hrow with hold | rfl
      · exact h.stored row hold
      · exact hstored

theorem agrees_findFile
    (h : Matches uuid tenantId db maps)
    {id : String}
    (hspelled : Spelled uuid id) :
    Agrees uuid tenantId arrangement db maps (.findFile id) :=
  ⟨congrArg Answer.file (findById_eq h hspelled), h⟩

theorem agrees_findFileInTenant
    (h : Matches uuid tenantId db maps)
    {id : String}
    (hspelled : Spelled uuid id) :
    Agrees uuid tenantId arrangement db maps (.findFileInTenant id) :=
  ⟨congrArg Answer.file (findById_eq h hspelled), h⟩

theorem agrees_listInFolder
    (h : Matches uuid tenantId db maps)
    {folderId : Option String}
    (htyped : Typed uuid tenantId db (.listInFolder folderId)) :
    Agrees uuid tenantId arrangement db maps (.listInFolder folderId) := by
  have hparse : uuid.parseOptional folderId = some folderId := htyped
  have hplain :
      maps.files.list (fun record => decide (record.folderId = folderId)) =
        PrismaFileStorage.listByFolder tenantId folderId db.files := by
    rw [h.files, fileMap, Tombstones.list_ofRows, PrismaFileStorage.listByFolder,
      visible_eq_rows h]
    refine congrArg _ (List.filter_congr fun row hrow => ?_)
    rw [Bool.eq_iff_iff, Bool.and_eq_true, decide_eq_true_eq, decide_eq_true_eq]
    cases hdeleted : row.deletedAt with
    | none => exact ⟨fun hboth => ⟨hboth.2, rfl⟩, fun hall => ⟨rfl, hall.1⟩⟩
    | some time => exact ⟨fun hboth => absurd hboth.1 Bool.false_ne_true, fun hall => nomatch hall.2⟩
  constructor
  · simp only [serveStorage, prismaStorages, plainStorages, BoundFileStorage.listByFolder,
      hparse, Option.map_some, hplain]
    exact arrangement.perm _
  · simp only [serveStorage, prismaStorages, plainStorages, BoundFileStorage.listByFolder,
      hparse, Option.map_some]
    exact h

/-- A patch the table takes is made to the row and to the record. -/
theorem agrees_update
    (arrangement : Arrangement)
    (patch : FilePatch)
    (h : Matches uuid tenantId db maps)
    {id : String}
    (hspelled : Spelled uuid id)
    (hpatch :
      ∀ row, findRow FileRow.id id db.files.rows = some row → row.deletedAt = none →
        (toRowPatch patch row).stored uuid = some (toRowPatch patch row)) :
    Same (serveUpdate (prismaStorages uuid tenantId arrangement) id patch db).1
        (serveUpdate plainStorages id patch maps).1 ∧
      Matches uuid tenantId (serveUpdate (prismaStorages uuid tenantId arrangement) id patch db).2
        (serveUpdate plainStorages id patch maps).2 := by
  have hfind : maps.files.find id = (fileMap db.files).find id := by rw [h.files]
  rw [find_fileMap] at hfind
  cases hfound : findRow FileRow.id id db.files.rows with
  | none =>
      rw [hfound, Option.bind_none] at hfind
      simp only [serveUpdate, prismaStorages, plainStorages, BoundFileStorage.update,
        scanById_eq h hspelled, hfound, Option.map_some, Tombstones.update, hfind]
      exact ⟨rfl, h⟩
  | some row =>
      rw [hfound, Option.bind_some] at hfind
      cases hdeleted : row.deletedAt with
      | some time =>
          rw [hdeleted, Option.isSome_some, if_pos rfl] at hfind
          simp only [serveUpdate, prismaStorages, plainStorages, BoundFileStorage.update,
            scanById_eq h hspelled, hfound, hdeleted, Option.isSome_some, if_true,
            Option.map_some, Tombstones.update, hfind]
          exact ⟨rfl, h⟩
      | none =>
          rw [hdeleted, Option.isSome_none, if_neg Bool.false_ne_true] at hfind
          have hstored := hpatch row hfound hdeleted
          have hid := key_of_findRow hfound
          have htenant := h.fileTenant row (mem_of_findRow hfound)
          have hmatches :
              Matches uuid tenantId
                { db with files := change tenantId id (toRowPatch patch) (fun _ => rfl) db.files }
                { maps with
                  files :=
                    maps.files.set id
                      (fromRow (toRowPatch patch row), (toRowPatch patch row).deletedAt.isSome) } :=
            matches_change h hfound hdeleted (toRowPatch patch) (fun _ => rfl) (fun _ => rfl) hstored
          have hflag : (toRowPatch patch row).deletedAt.isSome = false := by
            change row.deletedAt.isSome = false
            rw [hdeleted]
            rfl
          rw [hflag] at hmatches
          simp only [serveUpdate, prismaStorages, plainStorages, BoundFileStorage.update,
            scanById_eq h hspelled, hfound, hdeleted, Option.isSome_none, Bool.false_eq_true,
            if_false, hstored, Option.map_some, Tombstones.update, hfind]
          subst hid htenant
          exact ⟨rfl, hmatches⟩

theorem agrees_renameFile
    (h : Matches uuid tenantId db maps)
    {id filename : String}
    (htyped : Typed uuid tenantId db (.renameFile id filename)) :
    Agrees uuid tenantId arrangement db maps (.renameFile id filename) := by
  obtain ⟨hspelled, htext⟩ := htyped
  obtain ⟨hanswers, hafter⟩ :=
    agrees_update arrangement (renamePatch filename) h hspelled
      (fun row hfound hlive => by
        obtain ⟨hid, htenant, hfolder, huploader, htexts⟩ :=
          stored_eq_some_iff.mp (h.stored row (mem_of_findRow hfound))
        refine stored_eq_some_iff.mpr ⟨hid, htenant, hfolder, huploader, ?_⟩
        have hname : takesText filename = true := by
          refine htext ?_
          rw [find_fileMap, hfound, Option.bind_some, hlive]
          exact Option.some_ne_none _
        simp only [Bool.and_eq_true] at htexts ⊢
        obtain ⟨⟨⟨⟨⟨-, hmime⟩, hsha⟩, hdriver⟩, hkey⟩, hsize⟩ := htexts
        exact ⟨⟨⟨⟨⟨hname, hmime⟩, hsha⟩, hdriver⟩, hkey⟩, hsize⟩)
  exact ⟨hanswers, hafter⟩

theorem agrees_setVisibility
    (h : Matches uuid tenantId db maps)
    {id : String} {visibility : Visibility}
    (hspelled : Spelled uuid id) :
    Agrees uuid tenantId arrangement db maps (.setVisibility id visibility) := by
  obtain ⟨hanswers, hafter⟩ :=
    agrees_update arrangement (visibilityPatch visibility) h hspelled
      (fun row hfound _ => by
        have hstored := stored_eq_some_iff.mp (h.stored row (mem_of_findRow hfound))
        exact stored_eq_some_iff.mpr hstored)
  exact ⟨hanswers, hafter⟩

theorem agrees_removeFile
    (h : Matches uuid tenantId db maps)
    {id : String} {now : Int}
    (hspelled : Spelled uuid id) :
    Agrees uuid tenantId arrangement db maps (.removeFile id now) := by
  have hfind : maps.files.find id = (fileMap db.files).find id := by rw [h.files]
  rw [find_fileMap] at hfind
  cases hfound : findRow FileRow.id id db.files.rows with
  | none =>
      rw [hfound, Option.bind_none] at hfind
      constructor
      · simp only [serveStorage, prismaStorages, plainStorages, BoundFileStorage.delete,
          scanById_eq h hspelled, hfound, Tombstones.delete, hfind]
        exact rfl
      · simp only [serveStorage, prismaStorages, plainStorages, BoundFileStorage.delete,
          scanById_eq h hspelled, hfound, Tombstones.delete, hfind]
        exact h
  | some row =>
      rw [hfound, Option.bind_some] at hfind
      cases hdeleted : row.deletedAt with
      | some time =>
          rw [hdeleted, Option.isSome_some, if_pos rfl] at hfind
          constructor
          · simp only [serveStorage, prismaStorages, plainStorages, BoundFileStorage.delete,
              scanById_eq h hspelled, hfound, hdeleted, Option.isSome_some, if_true,
              Tombstones.delete, hfind]
            exact rfl
          · simp only [serveStorage, prismaStorages, plainStorages, BoundFileStorage.delete,
              scanById_eq h hspelled, hfound, hdeleted, Option.isSome_some, if_true,
              Tombstones.delete, hfind]
            exact h
      | none =>
          rw [hdeleted, Option.isSome_none, if_neg Bool.false_ne_true] at hfind
          have hid := key_of_findRow hfound
          have htenant := h.fileTenant row (mem_of_findRow hfound)
          have hstored := stored_eq_some_iff.mp (h.stored row (mem_of_findRow hfound))
          have hmatches :
              Matches uuid tenantId
                { db with
                  files :=
                    change tenantId id (fun row => { row with deletedAt := some now })
                      (fun _ => rfl) db.files }
                { maps with files := maps.files.set id (fromRow row, true) } :=
            matches_change h hfound hdeleted (fun row => { row with deletedAt := some now })
              (fun _ => rfl) (fun _ => rfl) (stored_eq_some_iff.mpr hstored)
          subst hid htenant
          constructor
          · simp only [serveStorage, prismaStorages, plainStorages, BoundFileStorage.delete,
              scanById_eq h hspelled, hfound, hdeleted, Option.isSome_none, Bool.false_eq_true,
              if_false, Tombstones.delete, hfind]
            exact rfl
          · simp only [serveStorage, prismaStorages, plainStorages, BoundFileStorage.delete,
              scanById_eq h hspelled, hfound, hdeleted, Option.isSome_none, Bool.false_eq_true,
              if_false, Tombstones.delete, hfind]
            exact hmatches

/-- Every call that is typed and kept. -/
theorem agrees_operation
    (h : Matches uuid tenantId db maps)
    {operation : Operation}
    (hvalid : isUuid tenantId = true)
    (htyped : Typed uuid tenantId db operation)
    (hkept : Kept db operation) :
    Agrees uuid tenantId arrangement db maps operation := by
  cases operation with
  | createFolder record => exact agrees_createFolder h hvalid htyped
  | findFolder id => exact agrees_findFolder h hkept
  | listChildren parentId => exact agrees_listChildren h htyped
  | renameFolder id name => exact agrees_renameFolder h hkept
  | removeFolder id now => exact agrees_removeFolder h hkept
  | insertFile record => exact agrees_insertFile h hvalid htyped hkept
  | findFile id => exact agrees_findFile h htyped
  | findFileInTenant id => exact agrees_findFileInTenant h htyped
  | listInFolder folderId => exact agrees_listInFolder h htyped
  | renameFile id filename => exact agrees_renameFile h htyped
  | setVisibility id visibility => exact agrees_setVisibility h htyped
  | removeFile id now => exact agrees_removeFile h htyped

end Calls

/-! ## Runs -/

structure World where
  db : Database
  maps : PlainMaps
  /-- What the tables and the maps have answered. -/
  answers : List (Answer × Answer)

def initialWorld : World where
  db := emptyDatabase
  maps := emptyMaps
  answers := []

/-- One call, on the tables and on the maps. -/
def step
    (uuid : UuidColumn) (tenantId : String) (arrangement : Arrangement)
    (w : World) (operation : Operation) : Option World :=
  let served := serveStorage (prismaStorages uuid tenantId arrangement) operation w.db
  let meant := serveStorage plainStorages operation w.maps
  some { db := served.2, maps := meant.2, answers := w.answers ++ [(served.1, meant.1)] }

def TypedCall (uuid : UuidColumn) (tenantId : String) (w : World) (operation : Operation) : Prop :=
  Typed uuid tenantId w.db operation

def KeptCall (uuid : UuidColumn) (tenantId : String) (w : World) (operation : Operation) : Prop :=
  Typed uuid tenantId w.db operation ∧ Kept w.db operation

def SameAnswers (w : World) : Prop :=
  ∀ answers ∈ w.answers, Same answers.1 answers.2

structure Inv (uuid : UuidColumn) (tenantId : String) (w : World) : Prop where
  tables : Matches uuid tenantId w.db w.maps
  answers : SameAnswers w

theorem inv_initialWorld (uuid : UuidColumn) (tenantId : String) :
    Inv uuid tenantId initialWorld where
  tables := by
    refine ⟨rfl, rfl, ?_, ?_, ?_⟩
    · intro row hrow
      exact absurd hrow List.not_mem_nil
    · intro row hrow
      exact absurd hrow List.not_mem_nil
    · intro row hrow
      exact absurd hrow List.not_mem_nil
  answers := by
    intro answers hmem
    exact absurd hmem List.not_mem_nil

section Runs

variable {uuid : UuidColumn}
variable {tenantId : String}
variable {arrangement : Arrangement}

theorem inv_step
    {w w' : World} {operation : Operation}
    (hvalid : isUuid tenantId = true)
    (h : Inv uuid tenantId w)
    (hguard : KeptCall uuid tenantId w operation)
    (hstep : step uuid tenantId arrangement w operation = some w') :
    Inv uuid tenantId w' := by
  cases hstep
  have hagrees : Agrees uuid tenantId arrangement w.db w.maps operation :=
    agrees_operation h.tables hvalid hguard.1 hguard.2
  refine ⟨hagrees.after, fun answers hmem => ?_⟩
  rcases List.mem_append.mp hmem with hold | hnew
  · exact h.answers answers hold
  · rw [List.mem_singleton.mp hnew]
    exact hagrees.answers

/-- The tables answer every call as plain maps do. -/
theorem sameAnswers_of_reaches {w : World} (hvalid : isUuid tenantId = true)
    (hrun :
      Reaches (step uuid tenantId arrangement) (KeptCall uuid tenantId) initialWorld w) :
    SameAnswers w :=
  (hrun.invariant (inv_initialWorld uuid tenantId) fun _ _ _ hinv hguard hstep =>
    inv_step hvalid hinv hguard hstep).answers

end Runs

/-! ## Calls on one folder and one file -/

/-- UUIDs as PostgreSQL writes them; other spellings are refused here. -/
def lowercaseColumn : UuidColumn where
  parse text :=
    if isUuid text && text.toList.all fun c => !decide ('A' ≤ c ∧ c ≤ 'F') then some text
    else none
  canonical := by
    intro text value hparse
    split at hparse
    · next htext =>
      cases hparse
      exact if_pos htext
    · cases hparse

/-- Rows in the order of the table. -/
def tableOrder : Arrangement where
  arrange rows := rows
  perm rows := List.Perm.refl rows

def tenant : String := "00000000-0000-7000-8000-000000000001"

def docs : FolderRecord where
  id := "00000000-0000-7000-8000-000000000002"
  tenantId := tenant
  parentId := none
  name := "docs"

/-- A file in the folder, with the verdict of the upload. -/
def note (scanVerdict : Option ScanVerdict) : FileRecord where
  id := "00000000-0000-7000-8000-000000000003"
  tenantId := tenant
  folderId := some docs.id
  filename := "note.txt"
  mimeType := "text/plain"
  sizeBytes := 4
  sha256 := "00"
  storageDriver := "local"
  storageKey := "note"
  uploaderId := "00000000-0000-7000-8000-000000000004"
  visibility := .PRIVATE
  scanVerdict := scanVerdict
  scanThreatName := none

theorem parse_of_lowercase
    {text : String}
    (htext : (isUuid text && text.toList.all fun c => !decide ('A' ≤ c ∧ c ≤ 'F')) = true) :
    lowercaseColumn.parse text = some text :=
  if_pos htext

theorem parse_tenant : lowercaseColumn.parse tenant = some tenant := by
  refine parse_of_lowercase ?_
  unfold isUuid tenant
  rw [String.toList_ofList]
  rfl

theorem parse_docs : lowercaseColumn.parse docs.id = some docs.id := by
  refine parse_of_lowercase ?_
  unfold isUuid docs
  rw [String.toList_ofList]
  rfl

theorem parse_note (scanVerdict : Option ScanVerdict) :
    lowercaseColumn.parse (note scanVerdict).id = some (note scanVerdict).id := by
  refine parse_of_lowercase ?_
  unfold isUuid note
  rw [String.toList_ofList]
  rfl

theorem parse_uploader (scanVerdict : Option ScanVerdict) :
    lowercaseColumn.parse (note scanVerdict).uploaderId =
      some (note scanVerdict).uploaderId := by
  refine parse_of_lowercase ?_
  unfold isUuid note
  rw [String.toList_ofList]
  rfl

theorem isUuid_tenant : isUuid tenant = true := by
  unfold isUuid tenant
  rw [String.toList_ofList]
  rfl

theorem typed_docs : Typed lowercaseColumn tenant emptyDatabase (.createFolder docs) := by
  have htenant : lowercaseColumn.parse docs.tenantId = some docs.tenantId := parse_tenant
  have hname : takesText docs.name = true := by
    rfl
  refine ⟨rfl, ?_, rfl, Or.inr rfl⟩
  simp only [FolderRow.stored, PrismaFolderStorage.toRow, parse_docs, htenant, hname,
    Option.bind_eq_bind, Option.bind_some, if_true]
  rfl

/-- The database with the folder. -/
def docsDatabase : Database where
  folders := ⟨[PrismaFolderStorage.toRow docs], List.nodup_singleton _⟩
  files := ⟨[], List.nodup_nil⟩

theorem insert_docs :
    PrismaFolderStorage.insert lowercaseColumn docs emptyDatabase = some (docs, docsDatabase) := by
  obtain ⟨-, hstored, hfree, hparent⟩ := typed_docs
  obtain ⟨folders, hinsert, hrows⟩ :=
    PrismaFolderStorage.insert_of_stored hstored isUuid_tenant hparent hfree
  have hfolders : folders = docsDatabase.folders := by
    cases folders with
    | mk rows hnodup =>
        have hrow : rows = docsDatabase.folders.rows := (insertRow_eq_some_iff.mp hrows).2
        subst hrow
        rfl
  rw [hinsert, hfolders]
  rfl

/-- The world with the folder. -/
def withDocs : World :=
  ((step lowercaseColumn tenant tableOrder initialWorld (.createFolder docs)).getD initialWorld)

theorem serveStorage_createFolder
    {storages : Storages σ} {record created : FolderRecord} {s s' : σ}
    (hinsert : storages.insertFolder record s = some (created, s')) :
    serveStorage storages (.createFolder record) s = (.folder (some created), s') := by
  simp only [serveStorage, hinsert]

theorem serveStorage_insertFile
    {storages : Storages σ} {record created : FileRecord} {s s' : σ}
    (hinsert : storages.insertFile record s = some (created, s')) :
    serveStorage storages (.insertFile record) s = (.file (some created), s') := by
  simp only [serveStorage, hinsert]

theorem withDocs_eq :
    withDocs =
      { db := docsDatabase
        maps := (serveStorage plainStorages (.createFolder docs) emptyMaps).2
        answers := [(.folder (some docs), .folder (some docs))] } := by
  have hserve :
      serveStorage (prismaStorages lowercaseColumn tenant tableOrder) (.createFolder docs)
          initialWorld.db =
        (.folder (some docs), docsDatabase) :=
    serveStorage_createFolder insert_docs
  unfold withDocs step
  rw [hserve]
  rfl

theorem step_docs :
    step lowercaseColumn tenant tableOrder initialWorld (.createFolder docs) = some withDocs :=
  rfl

theorem typed_note (scanVerdict : Option ScanVerdict) :
    Typed lowercaseColumn tenant withDocs.db (.insertFile (note scanVerdict)) := by
  have hstored :
      (toRow (note scanVerdict)).stored lowercaseColumn = some (toRow (note scanVerdict)) := by
    have hfolder : lowercaseColumn.parseOptional (some docs.id) = some (some docs.id) :=
      congrArg (Option.map some) parse_docs
    refine stored_eq_some_iff.mpr
      ⟨parse_note scanVerdict, parse_tenant, hfolder, parse_uploader scanVerdict, ?_⟩
    unfold takesText toRow note
    rw [String.toList_ofList, String.toList_ofList, String.toList_ofList, String.toList_ofList,
      String.toList_ofList]
    rfl
  have hfolder : folderExists withDocs.db.folders (some docs.id) = true := by
    rw [withDocs_eq]
    simp [folderExists, docsDatabase, findRow, PrismaFolderStorage.toRow]
  rw [withDocs_eq] at hfolder ⊢
  exact ⟨rfl, hstored, rfl, hfolder⟩

/-- The database with the folder and the file; there is no column for the verdict. -/
def noteDatabase : Database where
  folders := docsDatabase.folders
  files := ⟨[toRow (note none)], List.nodup_singleton _⟩

theorem insert_note (scanVerdict : Option ScanVerdict) :
    BoundFileStorage.insert lowercaseColumn (note scanVerdict) docsDatabase =
      some (note none, noteDatabase) := by
  have htyped := typed_note scanVerdict
  rw [withDocs_eq] at htyped
  obtain ⟨-, hstored, hfree, hfolder⟩ := htyped
  obtain ⟨files, hinsert, hrows⟩ :=
    BoundFileStorage.insert_of_stored hstored isUuid_tenant hfolder hfree
  have hfiles : files = noteDatabase.files := by
    cases files with
    | mk rows hnodup =>
        have hrow : rows = noteDatabase.files.rows := (insertRow_eq_some_iff.mp hrows).2
        subst hrow
        rfl
  rw [hinsert, hfiles]
  rfl

theorem findById_note :
    BoundFileStorage.findById bindPrismaFileStorage lowercaseColumn tenant noteDatabase.files
        (note none).id =
      some (note none) := by
  unfold BoundFileStorage.findById BoundFileStorage.scanById
  rw [if_neg (show ¬ bindPrismaFileStorage.hasTx = true from Bool.false_ne_true), parse_note]
  simp [noteDatabase, visible, findRow, toRow, fromRow, note]

theorem serveStorage_note :
    serveStorage (prismaStorages lowercaseColumn tenant tableOrder) (.findFile (note none).id)
        noteDatabase =
      (.file (some (note none)), noteDatabase) :=
  congrArg (fun found => (Answer.file found, noteDatabase)) findById_note

theorem spelled_note : Spelled lowercaseColumn (note none).id := by
  intro value hvalue
  rw [parse_note] at hvalue
  exact (Option.some.inj hvalue).symm

/-- A folder, a file without a verdict, and its new name. -/
theorem sameAnswers_renamedNote :
    ∃ w, Reaches (step lowercaseColumn tenant tableOrder) (KeptCall lowercaseColumn tenant)
        initialWorld w ∧
      (w.maps.files.find (note none).id).map FileRecord.filename = some "b.txt" ∧
        SameAnswers w := by
  obtain ⟨w₁, h₁⟩ :
      ∃ w₁,
        step lowercaseColumn tenant tableOrder withDocs (.insertFile (note none)) = some w₁ :=
    ⟨_, rfl⟩
  obtain ⟨w₂, h₂⟩ :
      ∃ w₂,
        step lowercaseColumn tenant tableOrder w₁ (.renameFile (note none).id "b.txt") =
          some w₂ :=
    ⟨_, rfl⟩
  have hrun :
      Reaches (step lowercaseColumn tenant tableOrder) (KeptCall lowercaseColumn tenant)
        initialWorld w₂ := by
    refine (((Reaches.refl _).tail ?_ step_docs).tail ?_ h₁).tail ?_ h₂
    · exact ⟨typed_docs, trivial⟩
    · exact ⟨typed_note none, rfl, rfl, rfl⟩
    · exact ⟨⟨spelled_note, fun _ => by decide⟩, trivial⟩
  have hvalid : isUuid tenant = true := by
    rfl
  refine ⟨w₂, hrun, ?_, sameAnswers_of_reaches hvalid hrun⟩
  cases h₁
  cases h₂
  rfl

theorem not_sameAnswers_of_mem
    {w : World} {answer answer' : Answer}
    (hmem : (answer, answer') ∈ w.answers)
    (hnot : ¬ Same answer answer') :
    ¬ SameAnswers w :=
  fun h => hnot (h _ hmem)

/--
A folder that was created is not found, not renamed and not removed, and a file
that was inserted with a verdict is found without it.
-/
theorem not_sameAnswers_docs :
    (∃ w, Reaches (step lowercaseColumn tenant tableOrder) (TypedCall lowercaseColumn tenant)
        initialWorld w ∧
      (Answer.folder none, Answer.folder (some docs)) ∈ w.answers ∧ ¬ SameAnswers w) ∧
    (∃ w, Reaches (step lowercaseColumn tenant tableOrder) (TypedCall lowercaseColumn tenant)
        initialWorld w ∧
      (folderNotFound docs.id, Answer.folder (some { docs with name := "notes" })) ∈ w.answers ∧
        ¬ SameAnswers w) ∧
    (∃ w, Reaches (step lowercaseColumn tenant tableOrder) (TypedCall lowercaseColumn tenant)
        initialWorld w ∧
      (folderNotFound docs.id, Answer.removed) ∈ w.answers ∧ ¬ SameAnswers w) ∧
    (∃ w, Reaches (step lowercaseColumn tenant tableOrder) (TypedCall lowercaseColumn tenant)
        initialWorld w ∧
      (Answer.file (some (note none)), Answer.file (some (note (some .clean)))) ∈ w.answers ∧
        ¬ SameAnswers w) := by
  have hdocs :
      Reaches (step lowercaseColumn tenant tableOrder) (TypedCall lowercaseColumn tenant)
        initialWorld withDocs :=
    (Reaches.refl _).tail typed_docs step_docs
  refine ⟨?_, ?_, ?_, ?_⟩
  · obtain ⟨w, h⟩ :
        ∃ w, step lowercaseColumn tenant tableOrder withDocs (.findFolder docs.id) = some w :=
      ⟨_, rfl⟩
    have hmem : (Answer.folder none, Answer.folder (some docs)) ∈ w.answers := by
      rw [withDocs_eq] at h
      cases h
      decide
    refine ⟨w, Reaches.tail (e := .findFolder docs.id) hdocs trivial h, hmem, ?_⟩
    exact not_sameAnswers_of_mem hmem nofun
  · obtain ⟨w, h⟩ :
        ∃ w,
          step lowercaseColumn tenant tableOrder withDocs (.renameFolder docs.id "notes") =
            some w :=
      ⟨_, rfl⟩
    have hmem :
        (folderNotFound docs.id, Answer.folder (some { docs with name := "notes" })) ∈
          w.answers := by
      rw [withDocs_eq] at h
      cases h
      decide
    refine ⟨w, Reaches.tail (e := .renameFolder docs.id "notes") hdocs trivial h, hmem, ?_⟩
    exact not_sameAnswers_of_mem hmem nofun
  · obtain ⟨w, h⟩ :
        ∃ w, step lowercaseColumn tenant tableOrder withDocs (.removeFolder docs.id 1) = some w :=
      ⟨_, rfl⟩
    have hmem : (folderNotFound docs.id, Answer.removed) ∈ w.answers := by
      rw [withDocs_eq] at h
      cases h
      decide
    refine ⟨w, Reaches.tail (e := .removeFolder docs.id 1) hdocs trivial h, hmem, ?_⟩
    exact not_sameAnswers_of_mem hmem nofun
  · obtain ⟨w₁, h₁⟩ :
        ∃ w₁,
          step lowercaseColumn tenant tableOrder withDocs (.insertFile (note (some .clean))) =
            some w₁ :=
      ⟨_, rfl⟩
    obtain ⟨w₂, h₂⟩ :
        ∃ w₂, step lowercaseColumn tenant tableOrder w₁ (.findFile (note none).id) = some w₂ :=
      ⟨_, rfl⟩
    have hmem :
        (Answer.file (some (note none)), Answer.file (some (note (some .clean)))) ∈
          w₂.answers := by
      rw [withDocs_eq, step, serveStorage_insertFile (insert_note (some .clean))] at h₁
      cases h₁
      dsimp only at h₂
      rw [step, serveStorage_note] at h₂
      cases h₂
      decide
    have hne : ¬ Same (.file (some (note none))) (.file (some (note (some .clean)))) := by
      intro hsame
      cases hsame
    have hinserted :
        Reaches (step lowercaseColumn tenant tableOrder) (TypedCall lowercaseColumn tenant)
          initialWorld w₁ :=
      hdocs.tail (typed_note (some .clean)) h₁
    refine ⟨w₂, Reaches.tail (e := .findFile (note none).id) hinserted spelled_note h₂, hmem, ?_⟩
    exact not_sameAnswers_of_mem hmem hne

end StorageMaps
end Files
end NestBase
