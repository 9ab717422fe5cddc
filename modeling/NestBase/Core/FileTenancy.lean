import NestBase.Core.FileService
import NestBase.Core.StorageKeys
import NestBase.Lib.Transition

/-!
# Tenants over the shared store

Runs of the four requests that move file contents: `POST /files`,
`POST /files/upload`, `POST /files/zip` and `GET /assets/:key`, by any
tenants over one store.  Rows are shown to their tenant only, but the bytes
lie in one store addressed by keys, and three of the requests take a part of
a key from the client: the row of `POST /files` has the client's storage
key, an upload the client's folder, and `GET /assets/:key` any key at all.

As long as these stay with the tenant of the request, contents do too.
-/

namespace NestBase
namespace Files

open Lib
open Permissions

/-! ## Runs -/

/-- The contents a tenant sent with an upload. -/
structure Upload where
  tenantId : Uuid
  bytes : Bytes

structure Answered where
  tenantId : Uuid
  response : Except HttpException FileResponse

structure FileWorld where
  state : FileState
  uploads : List Upload
  responses : List Answered

structure FileEvent where
  tenantId : Uuid
  draws : FileDraws
  request : FileRequest

def noFiles : FileTable where
  rows := []
  ids_nodup := List.nodup_nil

def initialWorld : FileWorld where
  state := { store := fun _ => none, files := noFiles, puts := [] }
  uploads := []
  responses := []

/-- The uploads of a request. -/
def FileEvent.uploads (event : FileEvent) : List Upload :=
  match event.request with
  | .upload body => [{ tenantId := event.tenantId, bytes := body.bytes }]
  | _ => []

def fileStep (services : FileServices) (world : FileWorld) (event : FileEvent) :
    Option FileWorld :=
  let (response, state) :=
    serveFile services event.draws world.state event.tenantId.value event.request
  some
    { state := state
      uploads := world.uploads ++ event.uploads
      responses := world.responses ++ [{ tenantId := event.tenantId, response := response }] }

/-! ## Isolation -/

def StoredObject.file? : StoredObject → Option Bytes
  | file bytes => some bytes
  | sidecar _ => none

/-- The file contents in a response. -/
def FileResponse.contents : FileResponse → List Bytes
  | record _ => []
  | archive entries => entries.filterMap fun entry => entry.2.file?
  | asset object => object.file?.toList

/-- Some upload of the tenant sent these bytes. -/
def SentBy (uploads : List Upload) (tenantId : String) (bytes : Bytes) : Prop :=
  ∃ upload ∈ uploads, upload.tenantId.value = tenantId ∧ upload.bytes = bytes

structure TenantsIsolated (world : FileWorld) : Prop where
  /-- A response has contents of its own tenant only. -/
  responses :
    ∀ answered ∈ world.responses,
      ∀ response, answered.response = .ok response →
        ∀ bytes ∈ response.contents, SentBy world.uploads answered.tenantId.value bytes
  /-- Uploads are written below their own tenant only. -/
  puts : ∀ put ∈ world.state.puts, BelowTenant put.tenantId put.key

/-- What a request takes from the client stays with its tenant. -/
def KeepsToTenant (services : FileServices) (world : FileWorld) (event : FileEvent) : Prop :=
  match event.request with
  | .create body =>
      ∀ key, body.field? "storageKey" = some (.str key) → BelowTenant event.tenantId.value key
  | .upload body => FolderStays event.tenantId.value body.folderId
  | .downloadZip _ => True
  | .asset key =>
      (∃ error, StorageAdapter.get services.driver world.state.store key = .error error) ∨
        BelowTenant event.tenantId.value key

section FileTenancy

variable {services : FileServices}
variable {draws : FileDraws}
variable {state state' : FileState}

/-! ## Effects of the operations -/

variable {bytes : Bytes}

/-- A write changes the files of one slot. -/
theorem write_file_cases
    {store : Store} {slot other : Slot} {found : Bytes} {mimeType : String}
    (hfound : StorageAdapter.write store slot bytes mimeType other = some (.file found)) :
    (other = slot ∧ found = bytes) ∨ store other = some (.file found) := by
  have hupdate :
      ∀ base : Store, base = Function.update store slot (some (.file bytes)) →
        base other = some (.file found) →
          (other = slot ∧ found = bytes) ∨ store other = some (.file found) := by
    intro base hbase hat
    rw [hbase, Function.update_apply] at hat
    split at hat
    · next heq =>
      cases hat
      exact Or.inl ⟨heq, rfl⟩
    · exact Or.inr hat
  cases slot with
  | key text =>
      exact hupdate _ rfl hfound
  | path inside =>
      simp only [StorageAdapter.write] at hfound
      rw [Function.update_apply] at hfound
      split at hfound
      · cases hfound
      · exact hupdate _ rfl hfound

/-- A put writes one object under the slot of its key, or nothing. -/
structure PutEffect
    (services : FileServices)
    (tenantId key : String)
    (bytes : Bytes)
    (state state' : FileState) : Prop where
  files : state'.files = state.files
  written :
    state' = state ∨
      ∃ slot mimeType,
        slotOf services.driver key = .ok slot ∧
          state'.store = StorageAdapter.write state.store slot bytes mimeType ∧
            state'.puts = state.puts ++ [{ tenantId := tenantId, key := key, bytes := bytes }]

theorem put_effect
    (services : FileServices)
    (draws : FileDraws)
    (state : FileState)
    (tenantId key : String)
    (bytes : Bytes)
    (mimeType : String) :
    PutEffect services tenantId key bytes state
      (state.put services draws tenantId key bytes mimeType).2 := by
  unfold FileState.put
  split
  · exact ⟨rfl, Or.inl rfl⟩
  · split
    · exact ⟨rfl, Or.inl rfl⟩
    · next slot hslot =>
      simp only
      split
      · exact ⟨rfl, Or.inl rfl⟩
      · exact ⟨rfl, Or.inr ⟨slot, mimeType, hslot, rfl, rfl⟩⟩
      · exact ⟨rfl, Or.inr ⟨slot, mimeType, hslot, rfl, rfl⟩⟩

/-- An insert adds the row of its record, or nothing. -/
theorem insert_effect (draws : FileDraws) (state : FileState) (record : FileRecord) :
    (state.insert draws record).2.store = state.store ∧
      (state.insert draws record).2.puts = state.puts ∧
        ∀ row ∈ (state.insert draws record).2.files.rows,
          row ∈ state.files.rows ∨ row = PrismaFileStorage.toRow record := by
  unfold FileState.insert
  split
  · refine ⟨rfl, rfl, ?_⟩
    intro row hrow
    exact Or.inl hrow
  · next files hfiles =>
    refine ⟨rfl, rfl, ?_⟩
    intro row hrow
    rw [(PrismaFileStorage.insert_spec hfiles).2] at hrow
    rcases List.mem_append.mp hrow with hold | hnew
    · exact Or.inl hold
    · exact Or.inr (List.mem_singleton.mp hnew)

/-- Put and insert: the effect of the put, and at most the row of the record. -/
theorem putAndInsert_effect
    (services : FileServices)
    (draws : FileDraws)
    (state : FileState)
    (bytes : Bytes)
    (record : FileRecord) :
    ∃ put,
      PutEffect services record.tenantId record.storageKey bytes state put ∧
        (state.putAndInsert services draws bytes record).2.store = put.store ∧
          (state.putAndInsert services draws bytes record).2.puts = put.puts ∧
            ∀ row ∈ (state.putAndInsert services draws bytes record).2.files.rows,
              row ∈ put.files.rows ∨ row = PrismaFileStorage.toRow record := by
  refine
    ⟨_, put_effect services draws state record.tenantId record.storageKey bytes record.mimeType,
      ?_⟩
  unfold FileState.putAndInsert
  rcases state.put services draws record.tenantId record.storageKey bytes record.mimeType with
    ⟨_ | _, put⟩
  · refine ⟨rfl, rfl, ?_⟩
    intro row hrow
    exact Or.inl hrow
  · exact insert_effect draws put record

/--
An upload puts its bytes under its storage path, in quarantine or not, and
may add a row with that key; or it changes nothing.
-/
theorem uploadAndCreate_effect
    (services : FileServices)
    (draws : FileDraws)
    (state : FileState)
    (input : UploadAndCreateInput) :
    let after := (FileService.uploadAndCreate services draws state input).2
    after = state ∨
      ∃ clean key put,
        resolveStoragePath services.unicode input.tenantId input.folderId draws.fileId.value
            input.filename = .ok clean ∧
          (key = clean ∨ key = "_quarantine/" ++ clean) ∧
            PutEffect services input.tenantId key input.bytes state put ∧
              after.store = put.store ∧
                after.puts = put.puts ∧
                  ∀ row ∈ after.files.rows,
                    row ∈ put.files.rows ∨
                      (row.tenantId = input.tenantId ∧ row.storageKey = key) := by
  intro after
  simp only [after, FileService.uploadAndCreate]
  split
  · exact Or.inl rfl
  · split
    · exact Or.inl rfl
    · next disposition result _ =>
      simp only [FileService.store]
      split
      · exact Or.inl rfl
      · next clean hclean =>
        right
        obtain ⟨put, hput, hstore, hputs, hrows⟩ :=
          putAndInsert_effect services draws state input.bytes
            (input.record services draws (detectDriver services.driver)
              (if disposition = .quarantine then QUARANTINE_PREFIX ++ clean else clean) result)
        refine ⟨clean, _, put, hclean, ?_, hput, hstore, hputs, ?_⟩
        · by_cases hquarantine : disposition = .quarantine
          · exact Or.inr (if_pos hquarantine)
          · exact Or.inl (if_neg hquarantine)
        · intro row hrow
          rcases hrows row hrow with hold | rfl
          · exact Or.inl hold
          · exact Or.inr ⟨rfl, rfl⟩

/-! ## Invariant -/

/-- Contents lie with the tenant that sent them, and rows point to their own tenant. -/
structure Tenancy (state : FileState) (uploads : List Upload) : Prop where
  stored :
    ∀ slot bytes, state.store slot = some (.file bytes) →
      ∃ upload ∈ uploads, upload.bytes = bytes ∧ slot.BelowTenant upload.tenantId.value
  rows : ∀ row ∈ state.files.rows, BelowTenant row.tenantId row.storageKey
  puts : ∀ put ∈ state.puts, BelowTenant put.tenantId put.key

variable {uploads : List Upload}
variable {tenant : Uuid}

theorem Tenancy.more_uploads (hinv : Tenancy state uploads) (more : List Upload) :
    Tenancy state (uploads ++ more) where
  stored := by
    intro slot bytes hstored
    obtain ⟨upload, hmem, hbytes, hbelow⟩ := hinv.stored slot bytes hstored
    exact ⟨upload, List.mem_append_left more hmem, hbytes, hbelow⟩
  rows := hinv.rows
  puts := hinv.puts

variable {tenantId : String}

theorem SentBy.more_uploads (hsent : SentBy uploads tenantId bytes) (more : List Upload) :
    SentBy (uploads ++ more) tenantId bytes := by
  obtain ⟨upload, hmem, howner⟩ := hsent
  exact ⟨upload, List.mem_append_left more hmem, howner⟩

/-- Bytes put under a key of the tenant that sent them keep the invariant. -/
theorem Tenancy.put
    {key : String}
    (hinv : Tenancy state uploads)
    (heffect : PutEffect services tenant.value key bytes state state')
    (hbelow : BelowTenant tenant.value key)
    (hsent : { tenantId := tenant, bytes := bytes : Upload } ∈ uploads) :
    Tenancy state' uploads := by
  rcases heffect.written with rfl | ⟨slot, mimeType, hslot, hstore, hputs⟩
  · exact hinv
  · refine ⟨?_, ?_, ?_⟩
    · intro other found hfound
      rw [hstore] at hfound
      rcases write_file_cases hfound with ⟨rfl, rfl⟩ | hold
      · exact ⟨_, hsent, rfl, slotOf_belowTenant hbelow hslot⟩
      · exact hinv.stored other found hold
    · rw [heffect.files]
      exact hinv.rows
    · rw [hputs]
      intro put hput
      rcases List.mem_append.mp hput with hold | hnew
      · exact hinv.puts put hold
      · rw [List.mem_singleton.mp hnew]
        exact hbelow

/-- What is read under a key of a tenant was sent by the tenant. -/
theorem Tenancy.sentBy_of_get
    {key : String} {object : StoredObject}
    (hinv : Tenancy state uploads)
    (hbelow : BelowTenant tenant.value key)
    (hget : StorageAdapter.get services.driver state.store key = .ok object)
    (hfile : object.file? = some bytes) :
    SentBy uploads tenant.value bytes := by
  unfold StorageAdapter.get at hget
  split at hget
  · cases hget
  · next slot hslot =>
    split at hget
    · cases hget
    · next found hfound =>
      cases hget
      cases object with
      | sidecar mimeType =>
          cases hfile
      | file content =>
          cases hfile
          obtain ⟨upload, hmem, hbytes, howned⟩ := hinv.stored slot _ hfound
          have hsame : upload.tenantId.value = tenant.value :=
            slot_belowTenant_unique howned (slotOf_belowTenant hbelow hslot)
          exact ⟨upload, hmem, hsame, hbytes⟩

/-! ## Requests -/

theorem createRecord_storageKey
    {body : Json} {record : FileRecord}
    (hrecord : FileController.createRecord draws tenantId body = some record) :
    record.tenantId = tenantId ∧ body.field? "storageKey" = some (.str record.storageKey) := by
  simp only [FileController.createRecord, Option.bind_eq_bind, Option.bind_eq_some_iff,
    Option.some.injEq] at hrecord
  obtain ⟨id, -, folderId, -, filename, -, mimeType, -, sizeBytes, -, sha256, -, driver, -,
    storageKey, hkey, uploaderId, -, rfl⟩ := hrecord
  refine ⟨rfl, ?_⟩
  unfold FileController.text? at hkey
  split at hkey
  · next value hvalue =>
    cases hkey
    exact hvalue
  · cases hkey

/-- A row of the body keeps the invariant when its key lies with the tenant. -/
theorem Tenancy.create {body : Json} (hinv : Tenancy state uploads)
    (hkeeps :
      ∀ key, body.field? "storageKey" = some (.str key) → BelowTenant tenant.value key) :
    Tenancy (FileController.create draws state tenant.value body).2 uploads := by
  unfold FileController.create
  split
  · exact hinv
  · next record hrecord =>
    obtain ⟨htenant, hkey⟩ := createRecord_storageKey hrecord
    obtain ⟨hstore, hputs, hrows⟩ := insert_effect draws state record
    refine ⟨?_, ?_, ?_⟩
    · rw [hstore]
      exact hinv.stored
    · intro row hrow
      rcases hrows row hrow with hold | rfl
      · exact hinv.rows row hold
      · simp only [PrismaFileStorage.toRow, htenant]
        exact hkeeps record.storageKey hkey
    · rw [hputs]
      exact hinv.puts

/-- An upload keeps the invariant when its folder stays with the tenant. -/
theorem Tenancy.uploadAndCreate
    {input : UploadAndCreateInput}
    (hinv : Tenancy state uploads)
    (htenant : input.tenantId = tenant.value)
    (hstays : FolderStays tenant.value input.folderId)
    (hsent : { tenantId := tenant, bytes := input.bytes : Upload } ∈ uploads) :
    Tenancy (FileService.uploadAndCreate services draws state input).2 uploads := by
  rcases uploadAndCreate_effect services draws state input with
    hsame | ⟨clean, key, put, hclean, hkey, hput, hstore, hputs, hrows⟩
  · rw [hsame]
    exact hinv
  · rw [htenant] at hclean hput hrows
    have hbelow : BelowTenant tenant.value key := by
      obtain ⟨hplain, hquarantined⟩ := belowTenant_of_resolveStoragePath hclean hstays
      rcases hkey with rfl | rfl
      · exact hplain
      · exact hquarantined
    have hafter : Tenancy put uploads := hinv.put hput hbelow hsent
    refine ⟨?_, ?_, ?_⟩
    · rw [hstore]
      exact hafter.stored
    · intro row hrow
      rcases hrows row hrow with hold | ⟨hrowTenant, hrowKey⟩
      · exact hafter.rows row hold
      · rw [hrowTenant, hrowKey]
        exact hbelow
    · rw [hputs]
      exact hafter.puts

/-- A row that a tenant finds is a row of the tenant. -/
theorem row_of_findById
    {id : String} {table : FileTable} {record : FileRecord}
    (hfound : PrismaFileStorage.findById tenantId table id = some record) :
    ∃ row ∈ table.rows, row.tenantId = tenantId ∧ row.storageKey = record.storageKey := by
  unfold PrismaFileStorage.findById at hfound
  split at hfound
  · cases hfound
  · next row hrow =>
    split at hfound
    · cases hfound
    · cases hfound
      have hvisible := mem_of_findRow hrow
      simp only [PrismaFileStorage.visible, List.mem_filter, decide_eq_true_eq] at hvisible
      exact ⟨row, hvisible.1, hvisible.2, rfl⟩

/-- Every entry of an archive was sent by the tenant that asks for it. -/
theorem Tenancy.zipEntries
    {ids : List String} {entries : List (String × StoredObject)}
    (hinv : Tenancy state uploads)
    (hentries : FileController.zipEntries services state tenant.value ids = .ok entries) :
    ∀ entry ∈ entries, ∀ bytes, entry.2.file? = some bytes →
      SentBy uploads tenant.value bytes := by
  induction ids generalizing entries with
  | nil =>
      simp only [FileController.zipEntries] at hentries
      cases hentries
      intro entry hentry
      cases hentry
  | cons id rest ih =>
      simp only [FileController.zipEntries] at hentries
      split at hentries
      · cases hentries
      · next record hrecord =>
        split at hentries
        · cases hentries
        · next object hobject =>
          obtain ⟨row, hrow, hrowTenant, hrowKey⟩ := row_of_findById hrecord
          have hbelow : BelowTenant tenant.value record.storageKey := by
            have hown := hinv.rows row hrow
            rwa [hrowTenant, hrowKey] at hown
          cases hrest : FileController.zipEntries services state tenant.value rest with
          | error exception =>
              rw [hrest] at hentries
              cases hentries
          | ok others =>
              rw [hrest] at hentries
              cases hentries
              intro entry hentry bytes hfile
              rcases List.mem_cons.mp hentry with rfl | hother
              · exact hinv.sentBy_of_get hbelow hobject hfile
              · exact ih hrest entry hother bytes hfile

/-! ## Steps -/

variable {world world' : FileWorld}
variable {event : FileEvent}

/-- A request that keeps to its tenant leaves the invariant. -/
theorem tenancy_serveFile
    (hinv : Tenancy world.state world.uploads)
    (hkeeps : KeepsToTenant services world event) :
    Tenancy
      (serveFile services event.draws world.state event.tenantId.value event.request).2
      (world.uploads ++ event.uploads) := by
  obtain ⟨tenantId, draws, request⟩ := event
  cases request with
  | create body =>
      exact (hinv.create hkeeps).more_uploads _
  | upload body =>
      have hmore := hinv.more_uploads [{ tenantId := tenantId, bytes := body.bytes }]
      simp only [serveFile, FileController.upload, FileEvent.uploads]
      split
      · exact hmore
      · split
        · exact hmore
        · split
          · exact hmore
          · exact hmore.uploadAndCreate rfl hkeeps (by simp)
  | downloadZip body =>
      exact hinv.more_uploads _
  | asset key =>
      exact hinv.more_uploads _

/-- The response of such a request has contents of its tenant only. -/
theorem sentBy_serveFile
    {response : FileResponse}
    (hinv : Tenancy world.state world.uploads)
    (hkeeps : KeepsToTenant services world event)
    (hresponse :
      (serveFile services event.draws world.state event.tenantId.value event.request).1 =
        .ok response)
    (hbytes : bytes ∈ response.contents) :
    SentBy world.uploads event.tenantId.value bytes := by
  obtain ⟨tenantId, draws, request⟩ := event
  have hrecord :
      ∀ result : Except HttpException FileRecord,
        result.map FileResponse.record = .ok response → False := by
    intro result hmap
    cases result with
    | error _ => cases hmap
    | ok record =>
        cases hmap
        cases hbytes
  cases request with
  | create body =>
      exact (hrecord _ hresponse).elim
  | upload body =>
      exact (hrecord _ hresponse).elim
  | downloadZip body =>
      simp only [serveFile, FileController.downloadZip] at hresponse
      split at hresponse
      · split at hresponse
        · cases hresponse
        · next ids _ _ =>
          cases hentries :
            FileController.zipEntries services world.state tenantId.value
              (FileController.zipIds ids) with
          | error exception =>
              rw [hentries] at hresponse
              cases hresponse
          | ok entries =>
              rw [hentries] at hresponse
              cases hresponse
              obtain ⟨entry, hentry, hfile⟩ := List.mem_filterMap.mp hbytes
              exact hinv.zipEntries hentries entry hentry bytes hfile
      · cases hresponse
  | asset key =>
      simp only [serveFile, AssetController.get] at hresponse
      split at hresponse
      · cases hresponse
      · split at hresponse
        · next object hobject =>
          cases hresponse
          rcases hkeeps with ⟨error, herror⟩ | hbelow
          · rw [herror] at hobject
            cases hobject
          · exact hinv.sentBy_of_get hbelow hobject (Option.mem_toList.mp hbytes)
        · cases hresponse
        · cases hresponse

theorem fileStep_eq (hstep : fileStep services world event = some world') :
    world'.state =
        (serveFile services event.draws world.state event.tenantId.value event.request).2 ∧
      world'.uploads = world.uploads ++ event.uploads ∧
        world'.responses =
          world.responses ++
            [{ tenantId := event.tenantId
               response :=
                (serveFile services event.draws world.state event.tenantId.value
                  event.request).1 }] := by
  cases hstep
  exact ⟨rfl, rfl, rfl⟩

/-- One request keeps the invariant and isolation. -/
theorem tenancy_fileStep
    (hinv : Tenancy world.state world.uploads)
    (hisolated : TenantsIsolated world)
    (hkeeps : KeepsToTenant services world event)
    (hstep : fileStep services world event = some world') :
    Tenancy world'.state world'.uploads ∧ TenantsIsolated world' := by
  obtain ⟨hstate, huploads, hresponses⟩ := fileStep_eq hstep
  have hafter : Tenancy world'.state world'.uploads := by
    rw [hstate, huploads]
    exact tenancy_serveFile hinv hkeeps
  refine ⟨hafter, ?_, hafter.puts⟩
  intro answered hanswered response hresponse bytes hbytes
  rw [hresponses] at hanswered
  rw [huploads]
  rcases List.mem_append.mp hanswered with hold | hnew
  · exact (hisolated.responses answered hold response hresponse bytes hbytes).more_uploads _
  · rw [List.mem_singleton.mp hnew] at hresponse ⊢
    exact (sentBy_serveFile hinv hkeeps hresponse hbytes).more_uploads _

/-- Runs whose requests keep to their tenants isolate the tenants. -/
theorem tenantsIsolated_of_keepsToTenant
    (services : FileServices)
    (world : FileWorld)
    (hrun : Reaches (fileStep services) (KeepsToTenant services) initialWorld world) :
    TenantsIsolated world := by
  have hinitial : Tenancy initialWorld.state initialWorld.uploads := by
    refine ⟨?_, ?_, ?_⟩
    · intro slot bytes hstored
      cases hstored
    · intro row hrow
      cases hrow
    · intro put hput
      cases hput
  have hisolated : TenantsIsolated initialWorld := by
    refine ⟨?_, hinitial.puts⟩
    intro answered hanswered
    cases hanswered
  have hboth :=
    Reaches.invariant
      (I := fun world => Tenancy world.state world.uploads ∧ TenantsIsolated world)
      hrun ⟨hinitial, hisolated⟩
      (fun _ _ _ hinv hkeeps hstep => tenancy_fileStep hinv.1 hinv.2 hkeeps hstep)
  exact hboth.2

/-! ## Examples of runs -/

/-- A bucket, ASCII letters and digits, and no scanner. -/
def bucketServices : FileServices where
  driver := .s3
  unicode := asciiClasses
  fileScanner := none
  scanIndeterminatePolicy := none
  strictMime := false
  checkSniffedMimeMatchesClaim _ claimed := { ok := true, sniffed := "", claimed := claimed }
  sha256 _ := "8f434346648f6b96df89dda901c5176b10a6d83961dd3c1ac88b59b2dc327aa4"

def firstTenant : Uuid where
  value := "0190a000-0000-7000-8000-000000000001"
  valid := by decide

def secondTenant : Uuid where
  value := "0190a000-0000-7000-8000-000000000002"
  valid := by decide

def quietDraws : FileDraws where
  fileId :=
    { value := "0190a000-0000-7000-8000-00000000000f"
      valid := by decide }
  put := .none
  refuses _ := false
  removeFails := false

/-- The second tenant uploads `hi`. -/
def uploadEvent : FileEvent where
  tenantId := secondTenant
  draws := quietDraws
  request :=
    .upload
      { folderId := none
        filename := "a.txt"
        mimeType := some "text/plain"
        uploaderId := "0190a000-0000-7000-8000-0000000000aa"
        contentsBase64 := "aGk=" }

/-- Somebody asks for the object by its key. -/
def assetEvent (tenantId : Uuid) : FileEvent where
  tenantId := tenantId
  draws := quietDraws
  request :=
    .asset
      "0190a000-0000-7000-8000-000000000002/_root/0190a000-0000-7000-8000-00000000000f-a.txt"

/-- The tenant of an upload reads its contents back. -/
theorem tenantsIsolated_ownAsset :
    ∃ world,
      runEvents (fileStep bucketServices) initialWorld [uploadEvent, assetEvent secondTenant] =
          some world ∧
        TenantsIsolated world := by
  have hkey :
      BelowTenant secondTenant.value
        "0190a000-0000-7000-8000-000000000002/_root/0190a000-0000-7000-8000-00000000000f-a.txt" := by
    unfold BelowTenant secondTenant
    rw [String.toList_ofList, String.toList_ofList]
    refine
      ⟨by decide +kernel,
        ["_root".toList, "0190a000-0000-7000-8000-00000000000f-a.txt".toList], by simp, Or.inl ?_⟩
    rw [String.toList_ofList, String.toList_ofList]
    decide +kernel
  refine ⟨_, rfl, ?_⟩
  apply tenantsIsolated_of_keepsToTenant bucketServices
  refine Reaches.tail (Reaches.tail (Reaches.refl _) (e := uploadEvent) trivial rfl)
    (e := assetEvent secondTenant) (Or.inr hkey) rfl

/-- Isolation fails: any tenant reads any object by its key. -/
theorem not_tenantsIsolated_foreignAsset :
    ¬ ∀ services world,
      Reaches (fileStep services) anyEvent initialWorld world → TenantsIsolated world := by
  intro hall
  obtain ⟨world, hrun, huploads, answered, hanswered, htenant, hresponse⟩ :
      ∃ world,
        runEvents (fileStep bucketServices) initialWorld [uploadEvent, assetEvent firstTenant] =
            some world ∧
          (world.uploads = uploadEvent.uploads ∧
            ∃ answered ∈ world.responses,
              answered.tenantId = firstTenant ∧
                answered.response = .ok (.asset (.file [104, 105]))) := by
    refine ⟨_, rfl, rfl, _, List.mem_cons_of_mem _ List.mem_cons_self, rfl, ?_⟩
    rfl
  have hisolated := hall bucketServices world (reaches_of_runEvents hrun)
  obtain ⟨upload, hupload, howner, -⟩ :=
    hisolated.responses answered hanswered _ hresponse [104, 105] List.mem_cons_self
  rw [huploads] at hupload
  rw [List.mem_singleton.mp hupload, htenant] at howner
  revert howner
  decide

end FileTenancy

end Files
end NestBase
