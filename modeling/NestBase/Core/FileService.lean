import NestBase.Core.FileStorage
import NestBase.Core.Permissions
import NestBase.Lib.Base64

/-!
# Uploads and downloads

`FileService.uploadAndCreate` scans the bytes of an upload, puts them under a
key derived from tenant, folder, id and name, and inserts the row.  The
finish hook of a TUS upload does the same for bytes that were collected under
`_tus/`.  `FileController` and `AssetController` are the requests over them.

The scanner, the MIME sniffer, the digest, the session lookup and the writes
that fail are inputs.  A zip archive is kept as the list of its entries.
-/

namespace NestBase
namespace Files

open Lib
open Permissions

/-! ## Scanner -/

structure FileScanInput where
  body : Bytes
  contentType : String
  filename : String

structure FileScanResult where
  verdict : ScanVerdict
  threatName : Option String

inductive IndeterminatePolicy where
  | keep
  | reject
deriving DecidableEq, Repr

inductive ScanDisposition where
  | keep
  | quarantine
  | reject
deriving DecidableEq, Repr

def planScanDisposition (verdict : ScanVerdict) (indeterminatePolicy : Option IndeterminatePolicy) :
    ScanDisposition :=
  match verdict with
  | .clean => .keep
  | .infected => .quarantine
  | .indeterminate => if indeterminatePolicy = some .reject then .reject else .keep

/-! ## Services and state -/

structure MimeMatchResult where
  ok : Bool
  sniffed : String
  claimed : String

structure FileServices where
  driver : Driver
  unicode : UnicodeClasses
  fileScanner : Option (FileScanInput → Except String FileScanResult)
  scanIndeterminatePolicy : Option IndeterminatePolicy
  /-- `features.filesMimeStrict.enabled` -/
  strictMime : Bool
  checkSniffedMimeMatchesClaim : Bytes → String → MimeMatchResult
  sha256 : Bytes → String

/-- What one request draws and meets. -/
structure FileDraws where
  fileId : Uuid
  put : WriteFault
  /-- The database refuses the row. -/
  refuses : FileRow → Bool
  removeFails : Bool

/-- Bytes of an upload that were written under a key. -/
structure Put where
  tenantId : String
  key : String
  bytes : Bytes

structure FileState where
  store : Store
  files : FileTable
  puts : List Put

def serverError : HttpException where
  status := 500
  message := "Internal server error"

def badRequest (message : String) : HttpException where
  status := 400
  message := message

/-- `adapter.put` -/
def FileState.put
    (services : FileServices)
    (draws : FileDraws)
    (state : FileState)
    (tenantId key : String)
    (bytes : Bytes)
    (mimeType : String) : Except HttpException Unit × FileState :=
  if key = "" then (.error serverError, state)
  else
    match slotOf services.driver key with
    | .error _ => (.error serverError, state)
    | .ok slot =>
        let written : FileState :=
          { state with
            store := StorageAdapter.write state.store slot bytes mimeType
            puts := state.puts ++ [{ tenantId := tenantId, key := key, bytes := bytes }] }
        match draws.put with
        | .unwritten => (.error serverError, state)
        | .written => (.error serverError, written)
        | .none => (.ok (), written)

/-- `FileServiceStorage.insert` -/
def FileState.insert (draws : FileDraws) (state : FileState) (record : FileRecord) :
    Except HttpException FileRecord × FileState :=
  match PrismaFileStorage.insert draws.refuses state.files record with
  | none => (.error serverError, state)
  | some files => (.ok record, { state with files := files })

/-! ## Upload -/

structure UploadAndCreateInput where
  tenantId : String
  folderId : Option String
  filename : String
  mimeType : String
  uploaderId : String
  bytes : Bytes

def QUARANTINE_PREFIX : String := "_quarantine/"

/-- The record of an upload that was stored under a key. -/
def UploadAndCreateInput.record
    (input : UploadAndCreateInput)
    (services : FileServices)
    (draws : FileDraws)
    (storageDriver storageKey : String)
    (result : Option FileScanResult) : FileRecord where
  id := draws.fileId.value
  tenantId := input.tenantId
  folderId := input.folderId
  filename := input.filename
  mimeType := input.mimeType
  sizeBytes := input.bytes.length
  sha256 := services.sha256 input.bytes
  storageDriver := storageDriver
  storageKey := storageKey
  uploaderId := input.uploaderId
  visibility := .PRIVATE
  scanVerdict := result.map FileScanResult.verdict
  scanThreatName := Text.truthy (result.bind FileScanResult.threatName)

/-- Put the bytes under the key of the record, then insert the record. -/
def FileState.putAndInsert
    (services : FileServices)
    (draws : FileDraws)
    (state : FileState)
    (bytes : Bytes)
    (record : FileRecord) : Except HttpException FileRecord × FileState :=
  match state.put services draws record.tenantId record.storageKey bytes record.mimeType with
  | (.error exception, state) => (.error exception, state)
  | (.ok (), state) => state.insert draws record

/-- The first 256 bytes against the claimed MIME type. -/
def sniff (services : FileServices) (bytes : Bytes) (mimeType : String) : MimeMatchResult :=
  services.checkSniffedMimeMatchesClaim (bytes.take 256) mimeType

namespace FileService

/-- Whether an upload goes on, and with which verdict. -/
def scan (services : FileServices) (input : UploadAndCreateInput) :
    Except HttpException (ScanDisposition × Option FileScanResult) :=
  match services.fileScanner with
  | none => .ok (.keep, none)
  | some scanner =>
      match scanner
        { body := input.bytes, contentType := input.mimeType, filename := input.filename } with
      | .error _ => .error serverError
      | .ok result =>
          match planScanDisposition result.verdict services.scanIndeterminatePolicy with
          | .reject =>
              let reason :=
                match Text.truthy result.threatName with
                | some threatName => "indeterminate (" ++ threatName ++ ")"
                | none => "indeterminate"
              .error (badRequest ("Upload rejected by file scanner: " ++ reason))
          | disposition => .ok (disposition, some result)

/-- The part of `uploadAndCreate` after the scan. -/
def store
    (services : FileServices)
    (draws : FileDraws)
    (state : FileState)
    (input : UploadAndCreateInput)
    (disposition : ScanDisposition)
    (result : Option FileScanResult) : Except HttpException FileRecord × FileState :=
  match resolveStoragePath services.unicode input.tenantId input.folderId draws.fileId.value
    input.filename with
  | .error _ => (.error serverError, state)
  | .ok cleanKey =>
      let storageKey :=
        if disposition = .quarantine then QUARANTINE_PREFIX ++ cleanKey else cleanKey
      state.putAndInsert services draws input.bytes
        (input.record services draws (detectDriver services.driver) storageKey result)

def uploadAndCreate
    (services : FileServices)
    (draws : FileDraws)
    (state : FileState)
    (input : UploadAndCreateInput) : Except HttpException FileRecord × FileState :=
  let sniffed := sniff services input.bytes input.mimeType
  if services.strictMime && !sniffed.ok then
    (.error (badRequest
      ("upload rejected: claimed mime \"" ++ sniffed.claimed ++
        "\" does not match sniffed \"" ++ sniffed.sniffed ++ "\"")), state)
  else
    match scan services input with
    | .error exception => (.error exception, state)
    | .ok (disposition, result) => store services draws state input disposition result

end FileService

/-! ## TUS -/

/-- The session of the request that finishes a TUS upload. -/
inductive TusSession where
  | notConfigured
  | absent
  | session (activeOrganizationId : Option String)

structure TusUpload where
  id : String
  metadata : List (String × Option String)

/-- `meta[name]`; absent and `null` are `none`. -/
def TusUpload.meta? (upload : TusUpload) (name : String) : Option String :=
  (upload.metadata.find? fun entry => decide (entry.1 = name)).bind Prod.snd

inductive TusResponse where
  | promoted (fileId storageKey : String)
  | error (statusCode : Nat) (body : String)

def TUS_PREFIX : String := "_tus/"

/-- Why a finishing upload is refused for its tenant. -/
def tusRefusal (session : TusSession) (tenantId : String) : Option (Nat × String) :=
  match session with
  | .notConfigured => none
  | .absent =>
      if tenantId = "" then some (400, "tus-finish-hook: tenantId metadata is required")
      else some (401, "tus-finish-hook: unauthenticated upload rejected")
  | .session activeOrganizationId =>
      let sessionTenantId := activeOrganizationId.getD ""
      if tenantId = "" then some (400, "tus-finish-hook: tenantId metadata is required")
      else if sessionTenantId = "" ∨ sessionTenantId ≠ tenantId then
        some (403, "tus-finish-hook: metadata tenantId \"" ++ tenantId ++
          "\" does not match session tenantId \"" ++ sessionTenantId ++ "\"")
      else none

/-- `dataStore.remove` -/
def removeStaged (services : FileServices) (draws : FileDraws) (store : Store) (id : String) :
    Except HttpException Store :=
  if draws.removeFails then .error serverError
  else
    match StorageAdapter.delete services.driver store (TUS_PREFIX ++ id) with
    | .error _ => .error serverError
    | .ok store =>
        match StorageAdapter.delete services.driver store (TUS_PREFIX ++ id ++ ".meta") with
        | .error _ => .error serverError
        | .ok store => .ok store

/-- What a finishing upload asks to store, its bytes read from the staging area. -/
def TusUpload.input (upload : TusUpload) (bytes : Bytes) : UploadAndCreateInput where
  tenantId := (upload.meta? "tenantId").getD ""
  folderId := upload.meta? "folderId"
  filename := (upload.meta? "filename").getD upload.id
  mimeType := (upload.meta? "filetype").getD "application/octet-stream"
  uploaderId := (upload.meta? "uploaderId").getD ""
  bytes := bytes

/-- The part of the hook that stores the bytes; there is no scan. -/
def promoteStaged
    (services : FileServices)
    (draws : FileDraws)
    (state : FileState)
    (upload : TusUpload)
    (input : UploadAndCreateInput) : Except HttpException TusResponse × FileState :=
  match resolveStoragePath services.unicode input.tenantId input.folderId draws.fileId.value
    input.filename with
  | .error _ => (.error serverError, state)
  | .ok storageKey =>
      let record := input.record services draws services.driver.driverName storageKey none
      match state.putAndInsert services draws input.bytes record with
      | (.error exception, state) => (.error exception, state)
      | (.ok _, state) =>
          match removeStaged services draws state.store upload.id with
          | .error exception => (.error exception, state)
          | .ok store =>
              (.ok (.promoted draws.fileId.value storageKey), { state with store := store })

def onUploadFinish
    (services : FileServices)
    (draws : FileDraws)
    (session : TusSession)
    (state : FileState)
    (upload : TusUpload) : Except HttpException TusResponse × FileState :=
  match tusRefusal session ((upload.meta? "tenantId").getD "") with
  | some (statusCode, body) => (.ok (.error statusCode body), state)
  | none =>
      match StorageAdapter.get services.driver state.store (TUS_PREFIX ++ upload.id) with
      | .error _ => (.error serverError, state)
      | .ok object =>
          let input := upload.input object.bytes
          let sniffed := sniff services input.bytes input.mimeType
          if sniffed.ok then promoteStaged services draws state upload input
          else
            (.ok (.error 415 ("tus-finish-hook: MIME mismatch — claimed \"" ++ sniffed.claimed ++
              "\", sniffed \"" ++ sniffed.sniffed ++ "\"")), state)

/-! ## Requests -/

/-- The body of `POST /files/upload`. -/
structure CreateFileBody where
  folderId : Option String
  filename : String
  mimeType : Option String
  uploaderId : String
  contentsBase64 : String

def CreateFileBody.bytes (body : CreateFileBody) : Bytes :=
  Base64.decode (Unicode.ofText body.contentsBase64)

inductive FileRequest where
  | create (body : Json)
  | upload (body : CreateFileBody)
  | downloadZip (body : Json)
  | asset (key : String)

inductive FileResponse where
  | record (record : FileRecord)
  | archive (entries : List (String × StoredObject))
  | asset (object : StoredObject)

namespace FileController

/-- A text column of the body. -/
def text? (body : Json) (name : String) : Option String :=
  match body.field? name with
  | some (.str value) => some value
  | _ => none

/-- The drawn id, which a field of the body overrides. -/
def id? (draws : FileDraws) (body : Json) : Option String :=
  match body.field? "id" with
  | none => some draws.fileId.value
  | some (.str id) => some id
  | some _ => none

def folderId? (body : Json) : Option (Option String) :=
  match body.field? "folderId" with
  | none => some none
  | some .null => some none
  | some (.str folderId) => some (some folderId)
  | some _ => none

def sizeBytes? (body : Json) : Option Int :=
  match body.field? "sizeBytes" with
  | some (.num text) => text.toInt?
  | _ => none

/-- `{ id, visibility, ...body, tenantId }` as far as the database takes it. -/
def createRecord (draws : FileDraws) (tenantId : String) (body : Json) : Option FileRecord := do
  some
    { id := ← id? draws body
      tenantId := tenantId
      folderId := ← folderId? body
      filename := ← text? body "filename"
      mimeType := ← text? body "mimeType"
      sizeBytes := ← sizeBytes? body
      sha256 := ← text? body "sha256"
      storageDriver := ← text? body "storageDriver"
      storageKey := ← text? body "storageKey"
      uploaderId := ← text? body "uploaderId"
      visibility := .PRIVATE
      scanVerdict := none
      scanThreatName := none }

/-- `POST /files`; the row is what the body says. -/
def create (draws : FileDraws) (state : FileState) (tenantId : String) (body : Json) :
    Except HttpException FileRecord × FileState :=
  match createRecord draws tenantId body with
  | none => (.error serverError, state)
  | some record => state.insert draws record

/-- `POST /files/upload` -/
def upload
    (services : FileServices)
    (draws : FileDraws)
    (state : FileState)
    (tenantId : String)
    (body : CreateFileBody) : Except HttpException FileRecord × FileState :=
  if body.uploaderId = "" then (.error (badRequest "uploaderId required"), state)
  else if body.filename = "" then (.error (badRequest "filename required"), state)
  else if body.contentsBase64 = "" then (.error (badRequest "contentsBase64 required"), state)
  else
    FileService.uploadAndCreate services draws state
      { tenantId := tenantId
        folderId := body.folderId
        filename := body.filename
        mimeType := body.mimeType.getD "application/octet-stream"
        uploaderId := body.uploaderId
        bytes := body.bytes }

def isSlash (c : Char) : Bool := decide (c = '/') || decide (c = '\\')

/-- The name of an entry: no control characters, drive, `.` or `..`. -/
def safeZipFilename (input : String) : String :=
  let printable := input.toList.map fun c => if c.toNat < 32 then '_' else c
  let stripped := printable.dropWhile isSlash
  let relative :=
    match stripped with
    | drive :: ':' :: slash :: rest =>
        if drive.isAlpha && isSlash slash then rest else stripped
    | _ => stripped
  let segments :=
    (relative.splitOnP isSlash).filter fun segment =>
      decide (segment ≠ [] ∧ segment ≠ PosixPath.parent ∧ segment ≠ ['.'])
  let joined := ['/'].intercalate segments
  if joined = [] then "file" else String.ofList joined

/-- The entries of the archive, in the order of the ids. -/
def zipEntries (services : FileServices) (state : FileState) (tenantId : String) :
    List String → Except HttpException (List (String × StoredObject))
  | [] => .ok []
  | id :: rest =>
      match PrismaFileStorage.findById tenantId state.files id with
      | none => .error { status := 404, message := "file not found" }
      | some record =>
          match StorageAdapter.get services.driver state.store record.storageKey with
          | .error _ => .error serverError
          | .ok object =>
              (zipEntries services state tenantId rest).map
                ((safeZipFilename record.filename, object) :: ·)

/-- `body.ids`, without what is not a non-empty text. -/
def zipIds (ids : List Json) : List String :=
  ids.filterMap fun
    | .str id => if id = "" then none else some id
    | _ => none

/-- `POST /files/zip` -/
def downloadZip (services : FileServices) (state : FileState) (tenantId : String) (body : Json) :
    Except HttpException (List (String × StoredObject)) :=
  match body.field? "ids" with
  | some (.arr ids) =>
      if zipIds ids = [] then .error (badRequest "body.ids must contain at least one id")
      else zipEntries services state tenantId (zipIds ids)
  | _ => .error (badRequest "body.ids (string[]) is required")

end FileController

namespace AssetController

/-- `GET /assets/:key` without a transform. -/
def get (services : FileServices) (state : FileState) (key : String) :
    Except HttpException StoredObject :=
  if key = "" then .error (badRequest "key required")
  else
    match StorageAdapter.get services.driver state.store key with
    | .ok object => .ok object
    | .error .notFound => .error { status := 404, message := "asset not found: " ++ key }
    | .error (.failed _) => .error serverError

end AssetController

/-- One request of a tenant. -/
def serveFile
    (services : FileServices)
    (draws : FileDraws)
    (state : FileState)
    (tenantId : String) :
    FileRequest → Except HttpException FileResponse × FileState
  | .create body =>
      let (response, state) := FileController.create draws state tenantId body
      (response.map .record, state)
  | .upload body =>
      let (response, state) := FileController.upload services draws state tenantId body
      (response.map .record, state)
  | .downloadZip body =>
      ((FileController.downloadZip services state tenantId body).map .archive, state)
  | .asset key => ((AssetController.get services state key).map .asset, state)

end Files
end NestBase
