import NestBase.Core.FileService
import NestBase.Core.StorageKeys
import NestBase.Lib.Transition

/-!
# Infected uploads

Bytes come in through `uploadAndCreate` or through the finish hook of TUS.
For bytes the scanner finds infected, quarantine asks for two things: they
are put below `_quarantine/` only, and every later read of their row says
that they are infected.

The hook does not scan, and the row has no column for the verdict, so both
hold only for infected uploads that leave no row.
-/

namespace NestBase
namespace Files

open Lib

/-! ## Ingestion -/

inductive Ingestion where
  | direct (input : UploadAndCreateInput)
  | tus (session : TusSession) (upload : TusUpload)

def ingest
    (services : FileServices) (draws : FileDraws) (state : FileState) : Ingestion → FileState
  | .direct input => (FileService.uploadAndCreate services draws state input).2
  | .tus session upload => (onUploadFinish services draws session state upload).2

/-- The contents that come in and what is said about them. -/
def Ingestion.input? (services : FileServices) (state : FileState) :
    Ingestion → Option UploadAndCreateInput
  | direct input => some input
  | tus _ upload =>
      match StorageAdapter.get services.driver state.store (TUS_PREFIX ++ upload.id) with
      | .ok object => some (upload.input object.bytes)
      | .error _ => none

/-- The scanner is bound and finds the contents infected. -/
def FoundInfected
    (services : FileServices) (input : UploadAndCreateInput) (result : FileScanResult) : Prop :=
  (∃ scanner,
    services.fileScanner = some scanner ∧
      scanner
          { body := input.bytes, contentType := input.mimeType, filename := input.filename } =
        .ok result) ∧
    result.verdict = .infected

/-! ## Later reads -/

/-- What may happen to the rows later. -/
inductive StorageOp where
  | insert (refuses : FileRow → Bool) (record : FileRecord)
  | update (tenantId id : String) (patch : FilePatch)
  | delete (tenantId id : String) (now : Int)

def storageStep (table : FileTable) : StorageOp → Option FileTable
  | .insert refuses record => PrismaFileStorage.insert refuses table record
  | .update tenantId id patch => some (PrismaFileStorage.update tenantId id patch table)
  | .delete tenantId id now => some (PrismaFileStorage.delete tenantId id now table)

inductive FileRead where
  | findById (tenantId id : String)
  | findByIdInTenant (tenantId id : String)
  | listByFolder (tenantId : String) (folderId : Option String)

def FileRead.records (table : FileTable) : FileRead → List FileRecord
  | findById tenantId id => (PrismaFileStorage.findById tenantId table id).toList
  | findByIdInTenant tenantId id =>
      (PrismaFileStorage.findByIdInTenant tenantId table id).toList
  | listByFolder tenantId folderId => PrismaFileStorage.listByFolder tenantId folderId table

/-! ## Quarantine -/

/-- The slot lies below `_quarantine/`. -/
def Slot.InQuarantine : Slot → Prop
  | .key text => Text.startsWith text QUARANTINE_PREFIX = true
  | .path inside => ∃ rest, rest ≠ [] ∧ inside = quarantineSegment :: rest

/-- The adapter takes the key to a slot below `_quarantine/`. -/
def InQuarantine (services : FileServices) (key : String) : Prop :=
  ∃ slot, slotOf services.driver key = .ok slot ∧ slot.InQuarantine

/-- Infected contents are put in quarantine only and stay marked. -/
structure Quarantines (services : FileServices) (before after : FileState) : Prop where
  puts :
    ∀ put ∈ after.puts.drop before.puts.length, InQuarantine services put.key
  reads :
    ∀ row ∈ after.files.rows, row ∉ before.files.rows →
      ∀ later, Reaches storageStep anyEvent after.files later →
        ∀ read : FileRead, ∀ record ∈ read.records later,
          record.id = row.id → record.scanVerdict = some .infected

def KeepsQuarantine
    (services : FileServices)
    (draws : FileDraws)
    (state : FileState)
    (ingestion : Ingestion) : Prop :=
  ∀ input result,
    ingestion.input? services state = some input →
      FoundInfected services input result →
        Quarantines services state (ingest services draws state ingestion)

/-! ## When it holds -/

/-- The put of a key writes something. -/
def writes (services : FileServices) (draws : FileDraws) (key : String) : Bool :=
  decide (key ≠ "") && (slotOf services.driver key).toBool && decide (draws.put ≠ .unwritten)

/-- The put succeeds and the database takes the row. -/
def inserts
    (services : FileServices)
    (draws : FileDraws)
    (state : FileState)
    (record : FileRecord) : Bool :=
  writes services draws record.storageKey && decide (draws.put = .none) &&
    (PrismaFileStorage.insert draws.refuses state.files record).isSome

/-- The checks before the bytes are stored let them pass. -/
def Ingestion.admits (services : FileServices) (input : UploadAndCreateInput) :
    Ingestion → Bool
  | direct _ => !(services.strictMime && !(sniff services input.bytes input.mimeType).ok)
  | tus session _ =>
      (tusRefusal session input.tenantId).isNone && (sniff services input.bytes input.mimeType).ok

/-- The record that infected contents are stored with under a storage path. -/
def Ingestion.record
    (services : FileServices)
    (draws : FileDraws)
    (input : UploadAndCreateInput)
    (result : FileScanResult)
    (clean : String) : Ingestion → FileRecord
  | direct _ =>
      input.record services draws (detectDriver services.driver) (QUARANTINE_PREFIX ++ clean)
        (some result)
  | tus _ _ => input.record services draws services.driver.driverName clean none

/-- The record of infected contents; `none` when they are refused before they are stored. -/
def Ingestion.record?
    (services : FileServices)
    (draws : FileDraws)
    (input : UploadAndCreateInput)
    (result : FileScanResult)
    (ingestion : Ingestion) : Option FileRecord :=
  if ingestion.admits services input then
    match resolveStoragePath services.unicode input.tenantId input.folderId draws.fileId.value
      input.filename with
    | .error _ => none
    | .ok clean => some (ingestion.record services draws input result clean)
  else none

/-- Infected contents are refused, or land in quarantine without a row. -/
def LeavesNoRow
    (services : FileServices)
    (draws : FileDraws)
    (state : FileState)
    (ingestion : Ingestion) : Prop :=
  ∀ input result record,
    ingestion.input? services state = some input →
      FoundInfected services input result →
        ingestion.record? services draws input result = some record →
          writes services draws record.storageKey = false ∨
            (InQuarantine services record.storageKey ∧
              inserts services draws state record = false)

section FileQuarantine

variable {services : FileServices}
variable {draws : FileDraws}
variable {state : FileState}

/-! ## Put and insert -/

/-- The log after a put. -/
theorem put_puts (tenantId key : String) (bytes : Bytes) (mimeType : String) :
    (state.put services draws tenantId key bytes mimeType).2.puts =
        (if writes services draws key then
          state.puts ++ [{ tenantId := tenantId, key := key, bytes := bytes }]
        else state.puts) ∧
      (state.put services draws tenantId key bytes mimeType).2.files = state.files ∧
        ((state.put services draws tenantId key bytes mimeType).1 = .ok () ↔
          writes services draws key = true ∧ draws.put = .none) := by
  unfold FileState.put writes
  by_cases hkey : key = ""
  · simp [hkey]
  · cases hslot : slotOf services.driver key with
    | error _ =>
        simp [hkey, Except.toBool]
    | ok slot =>
        cases hput : draws.put <;> simp [hkey, Except.toBool]

/-- Put and insert, as far as log and rows are concerned. -/
theorem putAndInsert_eq (bytes : Bytes) (record : FileRecord) :
    (state.putAndInsert services draws bytes record).2.puts =
        (if writes services draws record.storageKey then
          state.puts ++
            [{ tenantId := record.tenantId, key := record.storageKey, bytes := bytes }]
        else state.puts) ∧
      (state.putAndInsert services draws bytes record).2.files =
        (if inserts services draws state record then
          (PrismaFileStorage.insert draws.refuses state.files record).getD state.files
        else state.files) := by
  obtain ⟨hputs, hfiles, hok⟩ :=
    @put_puts services draws state record.tenantId record.storageKey bytes record.mimeType
  unfold FileState.putAndInsert
  rcases hput :
    state.put services draws record.tenantId record.storageKey bytes record.mimeType with
    ⟨_ | _, put⟩
  · rw [hput] at hputs hfiles hok
    have hfails : inserts services draws state record = false := by
      rw [Bool.eq_false_iff]
      intro hinserts
      simp only [inserts, Bool.and_eq_true, decide_eq_true_eq] at hinserts
      cases hok.mpr hinserts.1
    rw [hfails]
    exact ⟨hputs, hfiles⟩
  · rw [hput] at hputs hfiles hok
    obtain ⟨hwrites, hnone⟩ := hok.mp rfl
    simp only at hputs hfiles
    simp only [FileState.insert, inserts, hwrites, hnone, hfiles]
    cases PrismaFileStorage.insert draws.refuses state.files record with
    | none =>
        exact ⟨hputs.trans (if_pos hwrites), hfiles⟩
    | some files =>
        exact ⟨hputs.trans (if_pos hwrites), rfl⟩

/-! ## Ingestion of infected contents -/

variable {input : UploadAndCreateInput}
variable {result : FileScanResult}

/-- Infected contents of an upload go to quarantine. -/
theorem scan_of_foundInfected (hfound : FoundInfected services input result) :
    FileService.scan services input = .ok (.quarantine, some result) := by
  obtain ⟨⟨scanner, hbound, hscan⟩, hverdict⟩ := hfound
  simp only [FileService.scan, hbound, hscan, hverdict, planScanDisposition]

/-- An ingestion stores a record as `putAndInsert` does, as far as log and rows are concerned. -/
def StoresAs
    (services : FileServices)
    (draws : FileDraws)
    (state after : FileState)
    (bytes : Bytes) : Option FileRecord → Prop
  | none => after.puts = state.puts ∧ after.files = state.files
  | some record =>
      after.puts = (state.putAndInsert services draws bytes record).2.puts ∧
        after.files = (state.putAndInsert services draws bytes record).2.files

theorem direct_storesAs (hfound : FoundInfected services input result) :
    StoresAs services draws state (ingest services draws state (.direct input)) input.bytes
      ((Ingestion.direct input).record? services draws input result) := by
  have hscan := scan_of_foundInfected hfound
  cases hmime : services.strictMime && !(sniff services input.bytes input.mimeType).ok with
  | true =>
      simp only [ingest, FileService.uploadAndCreate, Ingestion.record?, Ingestion.admits, hmime]
      exact ⟨rfl, rfl⟩
  | false =>
      simp only [ingest, FileService.uploadAndCreate, Ingestion.record?, Ingestion.admits, hmime,
        hscan, FileService.store]
      cases resolveStoragePath services.unicode input.tenantId input.folderId
        draws.fileId.value input.filename with
      | error message =>
          exact ⟨rfl, rfl⟩
      | ok clean =>
          exact ⟨rfl, rfl⟩

theorem promoteStaged_storesAs
    (upload : TusUpload)
    (input : UploadAndCreateInput)
    {clean : String}
    (hclean :
      resolveStoragePath services.unicode input.tenantId input.folderId draws.fileId.value
        input.filename = .ok clean) :
    StoresAs services draws state (promoteStaged services draws state upload input).2 input.bytes
      (some (input.record services draws services.driver.driverName clean none)) := by
  simp only [promoteStaged, hclean, StoresAs]
  rcases state.putAndInsert services draws input.bytes
    (input.record services draws services.driver.driverName clean none) with ⟨_ | _, stored⟩
  · exact ⟨rfl, rfl⟩
  · -- Clearing the staging area touches neither log nor rows.
    simp only
    split
    · exact ⟨rfl, rfl⟩
    · exact ⟨rfl, rfl⟩

theorem tus_storesAs
    {session : TusSession} {upload : TusUpload}
    (hinput : (Ingestion.tus session upload).input? services state = some input)
    (result : FileScanResult) :
    StoresAs services draws state (ingest services draws state (.tus session upload)) input.bytes
      ((Ingestion.tus session upload).record? services draws input result) := by
  simp only [Ingestion.input?] at hinput
  split at hinput
  · next object hobject =>
    simp only [Option.some.injEq] at hinput
    have htenant : (upload.meta? "tenantId").getD "" = input.tenantId := by
      rw [← hinput]
      rfl
    cases hrefusal : tusRefusal session input.tenantId with
    | some refusal =>
        simp only [ingest, onUploadFinish, htenant, hrefusal, Ingestion.record?,
          Ingestion.admits]
        exact ⟨rfl, rfl⟩
    | none =>
        cases hmime : (sniff services input.bytes input.mimeType).ok with
        | false =>
            simp only [ingest, onUploadFinish, hobject, hinput, htenant, hrefusal, hmime,
              Ingestion.record?, Ingestion.admits]
            exact ⟨rfl, rfl⟩
        | true =>
            simp only [ingest, onUploadFinish, hobject, hinput, htenant, hrefusal, hmime,
              Ingestion.record?, Ingestion.admits]
            cases hclean :
              resolveStoragePath services.unicode input.tenantId input.folderId
                draws.fileId.value input.filename with
            | error message =>
                simp only [promoteStaged, hclean]
                exact ⟨rfl, rfl⟩
            | ok clean =>
                exact promoteStaged_storesAs upload input hclean
  · cases hinput

/-- Ingestion puts and inserts its record, or changes neither log nor rows. -/
theorem ingest_storesAs
    {ingestion : Ingestion}
    (hinput : ingestion.input? services state = some input)
    (hfound : FoundInfected services input result) :
    StoresAs services draws state (ingest services draws state ingestion) input.bytes
      (ingestion.record? services draws input result) := by
  cases ingestion with
  | direct given =>
      simp only [Ingestion.input?, Option.some.injEq] at hinput
      subst hinput
      exact direct_storesAs hfound
  | tus session upload =>
      exact tus_storesAs hinput result

/-! ## Verdicts of rows -/

/-- No read of a row reports a verdict. -/
theorem scanVerdict_fromRow (row : FileRow) :
    (PrismaFileStorage.fromRow row).scanVerdict = none :=
  rfl

/-- A row that was just inserted is found by its id. -/
theorem findById_of_insert
    {refuses : FileRow → Bool} {table table' : FileTable} {record : FileRecord}
    (hinsert : PrismaFileStorage.insert refuses table record = some table') :
    PrismaFileStorage.toRow record ∈ table'.rows ∧
      PrismaFileStorage.toRow record ∉ table.rows ∧
        PrismaFileStorage.findById record.tenantId table' record.id =
          some (PrismaFileStorage.fromRow (PrismaFileStorage.toRow record)) := by
  obtain ⟨hfree, hrows⟩ := PrismaFileStorage.insert_spec hinsert
  have hmem : PrismaFileStorage.toRow record ∈ table'.rows := by
    rw [hrows]
    exact List.mem_append_right _ (List.mem_singleton_self _)
  refine ⟨hmem, ?_, ?_⟩
  · intro hold
    rw [findRow_eq_none_iff] at hfree
    exact hfree (List.mem_map_of_mem hold)
  · have hvisible :
        PrismaFileStorage.toRow record ∈ PrismaFileStorage.visible record.tenantId table' :=
      List.mem_filter.mpr ⟨hmem, decide_eq_true rfl⟩
    have hnodup :
        KeysNodup FileRow.id (PrismaFileStorage.visible record.tenantId table') :=
      table'.ids_nodup.sublist (List.filter_sublist.map _)
    have hfound := findRow_of_mem hnodup hvisible
    simp only [PrismaFileStorage.findById]
    rw [show record.id = (PrismaFileStorage.toRow record).id from rfl, hfound]
    rfl

/-! ## The condition -/

/-- For infected contents with a record, quarantine is kept exactly without a row outside. -/
theorem quarantines_iff
    {after : FileState} {bytes : Bytes} {record : FileRecord}
    (hstores : StoresAs services draws state after bytes (some record)) :
    Quarantines services state after ↔
      writes services draws record.storageKey = false ∨
        (InQuarantine services record.storageKey ∧
          inserts services draws state record = false) := by
  obtain ⟨hputs, hfiles⟩ := hstores
  obtain ⟨hputsEq, hfilesEq⟩ := @putAndInsert_eq services draws state bytes record
  rw [hputsEq] at hputs
  rw [hfilesEq] at hfiles
  constructor
  · rintro ⟨hquarantined, hreads⟩
    by_cases hwrites : writes services draws record.storageKey = true
    · right
      rw [if_pos hwrites] at hputs
      refine ⟨?_, ?_⟩
      · apply hquarantined { tenantId := record.tenantId, key := record.storageKey, bytes := bytes }
        rw [hputs, List.drop_left]
        exact List.mem_singleton_self _
      · -- A row would be read back without its verdict.
        rw [Bool.eq_false_iff]
        intro hinserts
        rw [if_pos hinserts] at hfiles
        simp only [inserts, Bool.and_eq_true, Option.isSome_iff_exists] at hinserts
        obtain ⟨-, table, htable⟩ := hinserts
        rw [htable, Option.getD_some] at hfiles
        obtain ⟨hmem, hnew, hfound⟩ := findById_of_insert htable
        rw [← hfiles] at hmem hfound
        have hverdict :=
          hreads _ hmem hnew after.files (Reaches.refl _)
            (.findById record.tenantId record.id) _
            (Option.mem_toList.mpr hfound) rfl
        rw [scanVerdict_fromRow] at hverdict
        cases hverdict
    · left
      exact Bool.eq_false_iff.mpr hwrites
  · intro hcondition
    have hnothing : inserts services draws state record = false := by
      rcases hcondition with hwrites | ⟨-, hinserts⟩
      · simp only [inserts, hwrites, Bool.false_and]
      · exact hinserts
    rw [hnothing] at hfiles
    refine ⟨?_, ?_⟩
    · intro put hput
      rcases hcondition with hwrites | ⟨hquarantine, -⟩
      · rw [hputs, hwrites] at hput
        simp at hput
      · rw [hputs] at hput
        split at hput
        · rw [List.drop_left, List.mem_singleton] at hput
          rw [hput]
          exact hquarantine
        · simp at hput
    · intro row hrow hnew
      rw [hfiles] at hrow
      exact absurd hrow hnew

/-- Infected uploads stay in quarantine and marked exactly when they leave no row. -/
theorem ingest_keepsQuarantine_iff
    (services : FileServices)
    (draws : FileDraws)
    (state : FileState)
    (ingestion : Ingestion) :
    KeepsQuarantine services draws state ingestion ↔
      LeavesNoRow services draws state ingestion := by
  constructor
  · intro hkeeps input result record hinput hfound hrecord
    have hstores := @ingest_storesAs services draws state input result ingestion hinput hfound
    rw [hrecord] at hstores
    exact (quarantines_iff hstores).mp (hkeeps input result hinput hfound)
  · intro hleaves input result hinput hfound
    have hstores := @ingest_storesAs services draws state input result ingestion hinput hfound
    cases hrecord : ingestion.record? services draws input result with
    | some record =>
        rw [hrecord] at hstores
        exact (quarantines_iff hstores).mpr (hleaves input result record hinput hfound hrecord)
    | none =>
        rw [hrecord] at hstores
        obtain ⟨hputs, hfiles⟩ := hstores
        refine ⟨?_, ?_⟩
        · intro put hput
          rw [hputs] at hput
          simp at hput
        · intro row hrow hnew
          rw [hfiles] at hrow
          exact absurd hrow hnew

/-! ## The test file -/

def EICAR_SIGNATURE : String :=
  "X5O!P%@AP[4\\PZX54(P^)7CC)7\x7d$EICAR-STANDARD-ANTIVIRUS-TEST-FILE!$H+H*"

/-- `EicarTestFileScanner` -/
def eicarScan (input : FileScanInput) : FileScanResult :=
  if Text.includes (String.ofList (Unicode.charsOfUtf8 input.body)) EICAR_SIGNATURE then
    { verdict := .infected, threatName := some "Eicar-Test-Signature" }
  else { verdict := .clean, threatName := none }

def eicarServices : FileServices where
  driver := .localFs
  unicode := asciiClasses
  fileScanner := some fun input => .ok (eicarScan input)
  scanIndeterminatePolicy := none
  strictMime := false
  checkSniffedMimeMatchesClaim _ claimed := { ok := true, sniffed := "", claimed := claimed }
  sha256 _ := "275a021bbfb6489e54d471899f7db9d1663fc695ec2fe2a2c4538aabf651fd0f"

def eicarDraws : FileDraws where
  fileId :=
    { value := "0190a000-0000-7000-8000-00000000000e"
      valid := by decide }
  put := .none
  refuses _ := false
  removeFails := false

/-- The test file, uploaded by a tenant. -/
def eicarInput : UploadAndCreateInput where
  tenantId := "0190a000-0000-7000-8000-000000000001"
  folderId := none
  filename := "eicar.com"
  mimeType := "application/octet-stream"
  uploaderId := "0190a000-0000-7000-8000-0000000000aa"
  bytes := Unicode.utf8 EICAR_SIGNATURE.toList

def eicarTusUpload : TusUpload where
  id := "upload-1"
  metadata :=
    [("tenantId", some "0190a000-0000-7000-8000-000000000001"), ("filename", some "eicar.com"),
      ("uploaderId", some "0190a000-0000-7000-8000-0000000000aa")]

/-- A store that has the test file in the staging area. -/
def stagedState : FileState where
  store :=
    Function.update (fun _ => none) (.path ["_tus".toList, "upload-1".toList])
      (some (.file eicarInput.bytes))
  files := { rows := [], ids_nodup := List.nodup_nil }
  puts := []

/-- The scanner finds the test file. -/
theorem foundInfected_eicar :
    FoundInfected eicarServices eicarInput
      { verdict := .infected, threatName := some "Eicar-Test-Signature" } := by
  refine ⟨⟨_, rfl, ?_⟩, rfl⟩
  simp only [eicarScan, eicarInput, Unicode.charsOfUtf8_utf8, String.ofList_toList,
    Text.includes_self, if_pos]

/-- Infected contents that get a row break quarantine. -/
theorem not_keepsQuarantine_of_inserts
    {ingestion : Ingestion} {record : FileRecord}
    (hinput : ingestion.input? services state = some input)
    (hfound : FoundInfected services input result)
    (hrecord : ingestion.record? services draws input result = some record)
    (hinserts : inserts services draws state record = true) :
    ¬ KeepsQuarantine services draws state ingestion := by
  intro hkeeps
  have hstores := @ingest_storesAs services draws state input result ingestion hinput hfound
  rw [hrecord] at hstores
  rcases (quarantines_iff hstores).mp (hkeeps input result hinput hfound) with
    hwrites | ⟨-, hnothing⟩
  · simp [inserts, hwrites] at hinserts
  · rw [hinserts] at hnothing
    cases hnothing

/-- A key of these characters is one the local adapter stores under. -/
theorem toBool_slotOf_localFs
    {key : String} {chars : List Char}
    (hkey : key.toList = chars)
    (hnonempty : chars ≠ [])
    (hsafe :
      ("..".toList.isPrefixOf (PosixPath.normalize chars) ||
        (PosixPath.normalize chars).tails.any (fun rest => "../".toList.isPrefixOf rest) ||
          "/".toList.isPrefixOf (PosixPath.normalize chars)) = false) :
    key ≠ "" ∧ (slotOf .localFs key).toBool = true := by
  have hne : key ≠ "" := by
    rintro rfl
    exact hnonempty hkey.symm
  refine ⟨hne, ?_⟩
  unfold slotOf resolveSafe Text.startsWith Text.includes
  simp only [hkey, String.toList_ofList]
  rw [if_neg hne, hsafe]
  rfl

theorem inserts_eicar
    {record : FileRecord} {chars : List Char}
    (hkey : record.storageKey.toList = chars)
    (hnonempty : chars ≠ [])
    (hsafe :
      ("..".toList.isPrefixOf (PosixPath.normalize chars) ||
        (PosixPath.normalize chars).tails.any (fun rest => "../".toList.isPrefixOf rest) ||
          "/".toList.isPrefixOf (PosixPath.normalize chars)) = false) :
    inserts eicarServices eicarDraws stagedState record = true := by
  obtain ⟨hne, hslot⟩ := toBool_slotOf_localFs hkey hnonempty hsafe
  unfold inserts writes
  rw [decide_eq_true hne, show eicarServices.driver = .localFs from rfl, hslot]
  rfl

/-- The characters of the storage path of the test file. -/
theorem toList_eicarPath :
    (eicarInput.tenantId ++ "/" ++ ROOT_SEGMENT ++ "/" ++ eicarDraws.fileId.value ++ "-" ++
        String.ofList "eicar.com".toList).toList =
      ("0190a000-0000-7000-8000-000000000001/_root/" ++
        "0190a000-0000-7000-8000-00000000000e-eicar.com").toList := by
  unfold eicarInput ROOT_SEGMENT eicarDraws
  dsimp only
  simp only [String.toList_append]
  repeat rw [String.toList_ofList]
  rfl

/-- The test file breaks quarantine on both ways in. -/
theorem not_keepsQuarantine_eicar :
    ¬ KeepsQuarantine eicarServices eicarDraws stagedState (.direct eicarInput) ∧
      ¬ KeepsQuarantine eicarServices eicarDraws stagedState
        (.tus (.session (some "0190a000-0000-7000-8000-000000000001")) eicarTusUpload) := by
  constructor
  · refine not_keepsQuarantine_of_inserts rfl foundInfected_eicar rfl ?_
    refine inserts_eicar
      (String.toList_append.trans (congrArg (QUARANTINE_PREFIX.toList ++ ·) toList_eicarPath))
      ?_ ?_
    · unfold QUARANTINE_PREFIX
      rw [String.toList_ofList]
      exact List.cons_ne_nil _ _
    · unfold QUARANTINE_PREFIX
      rw [String.toList_append]
      repeat rw [String.toList_ofList]
      rfl
  · have hinput :
        (Ingestion.tus (.session (some "0190a000-0000-7000-8000-000000000001"))
          eicarTusUpload).input? eicarServices stagedState = some eicarInput := by
      rfl
    refine not_keepsQuarantine_of_inserts hinput foundInfected_eicar rfl ?_
    refine inserts_eicar toList_eicarPath ?_ ?_
    · rw [String.toList_append, String.toList_ofList]
      exact List.cons_ne_nil _ _
    · rw [String.toList_append]
      repeat rw [String.toList_ofList]
      rfl

end FileQuarantine

end Files
end NestBase
