import NestBase.Lib.JsonText
import NestBase.Lib.OrderedMap
import NestBase.Lib.Text
import NestBase.Lib.Unicode
import Mathlib.Logic.Function.Basic

/-!
# Resumable uploads over a storage adapter

`StorageAdapterDataStore` keeps two objects for each upload: the bytes received
so far, and a JSON document with the offset the client is told.  A call is a
sequence of accesses to the storage, and calls overlap at these accesses.
-/

namespace NestBase
namespace Files
namespace DataStore

open Lib

/-! ## Objects and keys -/

/-- What an adapter stores under a key. -/
structure StorageEntry where
  body : Bytes
  mimeType : String
deriving DecidableEq

abbrev Storage := String → Option StorageEntry

structure UploadMetadata where
  size : Option Nat
  offset : Nat
  metadata : Option (Record String (Option String))
  creation_date : String
deriving DecidableEq

structure Upload where
  id : String
  size : Option Nat
  offset : Nat
  metadata : Option (Record String (Option String))
  creation_date : Option String
deriving DecidableEq

def TUS_PREFIX : String := "_tus/"

def META_SUFFIX : String := ".meta"

def metaKey (id : String) : String := TUS_PREFIX ++ id ++ META_SUFFIX

def bodyKey (id : String) : String := TUS_PREFIX ++ id

/-- `metadata?.["filetype"] ?? "application/octet-stream"` -/
def fileType (metadata : Option (Record String (Option String))) : String :=
  ((metadata.bind fun record => record.get "filetype").bind id).getD "application/octet-stream"

inductive DataStoreError where
  | notFound
  | putFailed
  /-- `JSON.parse` throws. -/
  | unreadable
  /-- The stream of a write throws. -/
  | aborted
  | offsetMismatch (message : String)
deriving DecidableEq

def offsetMismatch (expected got : Nat) : DataStoreError :=
  .offsetMismatch
    ("tus: offset mismatch (expected " ++ toString expected ++ ", got " ++ toString got ++ ")")

/-! ## The JSON document -/

def stringOrNull : Option String → List Char
  | none => "null".toList
  | some value => (Json.quote value).toList

def entryText (entry : String × Option String) : List Char :=
  (Json.quote entry.1).toList ++ ':' :: stringOrNull entry.2

/-- The entries behind the first one, and the closing brace. -/
def entriesText : List (String × Option String) → List Char
  | [] => ['\x7d']
  | entry :: rest => ',' :: (entryText entry ++ entriesText rest)

def recordText : List (String × Option String) → List Char
  | [] => ['\x7b', '\x7d']
  | entry :: rest => '\x7b' :: (entryText entry ++ entriesText rest)

def sizeText : Option Nat → List Char
  | none => "null".toList
  | some size => (toString size).toList

def metadataText : Option (Record String (Option String)) → List Char
  | none => "null".toList
  | some record => recordText record.entries

/-- `JSON.stringify` of the metadata of an upload. -/
def stringify (uploadMeta : UploadMetadata) : List Char :=
  "\x7b\"size\":".toList ++ (sizeText uploadMeta.size ++ ',' :: ("\"offset\":".toList ++
    ((toString uploadMeta.offset).toList ++ ',' :: ("\"metadata\":".toList ++
      (metadataText uploadMeta.metadata ++ ',' :: ("\"creation_date\":".toList ++
        ((Json.quote uploadMeta.creation_date).toList ++ ['\x7d'])))))))

def encodeJson (uploadMeta : UploadMetadata) : Bytes :=
  Unicode.utf8 (stringify uploadMeta)

/-- `JSON.parse` of decoded bytes: it reads what was printed. -/
structure JsonReader where
  parse : Bytes → Option UploadMetadata
  parse_encodeJson : ∀ uploadMeta, parse (encodeJson uploadMeta) = some uploadMeta

/-! ## Accesses -/

def get (storage : Storage) (key : String) : Except DataStoreError Bytes :=
  match storage key with
  | none => .error .notFound
  | some entry => .ok entry.body

def put (storage : Storage) (key : String) (body : Bytes) (mimeType : String) : Storage :=
  Function.update storage key (some { body := body, mimeType := mimeType })

section DataStore

variable (reader : JsonReader)

def readMeta (storage : Storage) (id : String) : Except DataStoreError UploadMetadata :=
  match get storage (metaKey id) with
  | .error error => .error error
  | .ok bytes =>
      match reader.parse bytes with
      | none => .error .unreadable
      | some uploadMeta => .ok uploadMeta

def writeMeta (storage : Storage) (id : String) (uploadMeta : UploadMetadata) : Storage :=
  put storage (metaKey id) (encodeJson uploadMeta) "application/json"

def getUpload (storage : Storage) (id : String) : Except DataStoreError Upload :=
  match readMeta reader storage id with
  | .error error => .error error
  | .ok uploadMeta =>
      .ok
        { id := id
          size := uploadMeta.size
          offset := uploadMeta.offset
          metadata := uploadMeta.metadata
          creation_date :=
            if uploadMeta.creation_date = "" then none else some uploadMeta.creation_date }

/-- What a write does first: it reads the body and compares the offsets. -/
def checkOffset (storage : Storage) (id : String) (offset : Nat) : Except DataStoreError Bytes :=
  match get storage (bodyKey id) with
  | .error error => .error error
  | .ok existing =>
      if existing.length ≠ offset then .error (offsetMismatch existing.length offset)
      else .ok existing

/-! ## Calls -/

/-- What a call waits for next. -/
inductive Turn where
  | get
  | stream (aborted : Bool)
  | put (fails : Bool)

inductive CreateState where
  | called
  /-- The metadata are put. -/
  | described
  | finished (result : Except DataStoreError Upload)

/-- The upload as it is created at a time. -/
def initialMeta (file : Upload) (now : String) : UploadMetadata where
  size := file.size
  offset := 0
  metadata := file.metadata
  creation_date := now

def create (file : Upload) (now : String) (storage : Storage) :
    CreateState → Turn → Option (Storage × CreateState)
  | .called, .put fails =>
      if fails then some (storage, .finished (.error .putFailed))
      else some (writeMeta storage file.id (initialMeta file now), .described)
  | .described, .put fails =>
      if fails then some (storage, .finished (.error .putFailed))
      else some (put storage (bodyKey file.id) [] (fileType file.metadata), .finished (.ok file))
  | _, _ => none

structure WriteRequest where
  id : String
  offset : Nat
  /-- What the stream yields. -/
  incoming : Bytes
deriving DecidableEq

inductive WriteState where
  | called
  /-- The body read has the right length. -/
  | checked (existing : Bytes)
  | collected (existing : Bytes)
  | described (existing : Bytes) (uploadMeta : UploadMetadata)
  /-- The merged body is put. -/
  | stored (existing : Bytes) (uploadMeta : UploadMetadata)
  | finished (result : Except DataStoreError Nat)

def write (request : WriteRequest) (storage : Storage) :
    WriteState → Turn → Option (Storage × WriteState)
  | .called, .get =>
      match checkOffset storage request.id request.offset with
      | .error error => some (storage, .finished (.error error))
      | .ok existing => some (storage, .checked existing)
  | .checked existing, .stream aborted =>
      if aborted then some (storage, .finished (.error .aborted))
      else some (storage, .collected existing)
  | .collected existing, .get =>
      match readMeta reader storage request.id with
      | .error error => some (storage, .finished (.error error))
      | .ok uploadMeta => some (storage, .described existing uploadMeta)
  | .described existing uploadMeta, .put fails =>
      if fails then some (storage, .finished (.error .putFailed))
      else
        some
          (put storage (bodyKey request.id) (existing ++ request.incoming)
              (fileType uploadMeta.metadata),
            .stored existing uploadMeta)
  | .stored existing uploadMeta, .put fails =>
      if fails then some (storage, .finished (.error .putFailed))
      else
        let newOffset := (existing ++ request.incoming).length
        some
          (writeMeta storage request.id { uploadMeta with offset := newOffset },
            .finished (.ok newOffset))
  | _, _ => none

inductive DeclareState where
  | called
  | described (uploadMeta : UploadMetadata)
  | finished (result : Except DataStoreError Unit)

def declareUploadLength (id : String) (uploadLength : Nat) (storage : Storage) :
    DeclareState → Turn → Option (Storage × DeclareState)
  | .called, .get =>
      match readMeta reader storage id with
      | .error error => some (storage, .finished (.error error))
      | .ok uploadMeta => some (storage, .described uploadMeta)
  | .described uploadMeta, .put fails =>
      if fails then some (storage, .finished (.error .putFailed))
      else
        some (writeMeta storage id { uploadMeta with size := some uploadLength }, .finished (.ok ()))
  | _, _ => none

end DataStore

/-! ## The document determines the metadata -/

variable {rest rest' : List Char}

theorem stringOrNull_append_inj
    {value value' : Option String}
    (h : stringOrNull value ++ rest = stringOrNull value' ++ rest') :
    value = value' ∧ rest = rest' := by
  cases value with
  | none =>
      cases value' with
      | none => exact ⟨rfl, List.append_cancel_left h⟩
      | some s =>
          rw [stringOrNull, stringOrNull, Json.toList_quote] at h
          simp at h
  | some s =>
      cases value' with
      | none =>
          rw [stringOrNull, stringOrNull, Json.toList_quote] at h
          simp at h
      | some t =>
          obtain ⟨rfl, hrest⟩ := Json.quote_append_inj h
          exact ⟨rfl, hrest⟩

theorem entryText_append_inj
    {entry entry' : String × Option String}
    (h : entryText entry ++ rest = entryText entry' ++ rest') :
    entry = entry' ∧ rest = rest' := by
  unfold entryText at h
  rw [List.append_assoc, List.append_assoc, List.cons_append, List.cons_append] at h
  obtain ⟨hname, hvalue⟩ := Json.quote_append_inj h
  obtain ⟨hsame, hrest⟩ := stringOrNull_append_inj (List.cons.inj hvalue).2
  exact ⟨Prod.ext hname hsame, hrest⟩

/-- The entries end at their brace. -/
theorem entriesText_append_inj
    {entries entries' : List (String × Option String)}
    (h : entriesText entries ++ rest = entriesText entries' ++ rest') :
    entries = entries' ∧ rest = rest' := by
  induction entries generalizing entries' with
  | nil =>
      cases entries' with
      | nil => exact ⟨rfl, (List.cons.inj h).2⟩
      | cons entry' entries' =>
          have hhead := (List.cons.inj h).1
          exact absurd hhead (by decide)
  | cons entry entries ih =>
      cases entries' with
      | nil =>
          have hhead := (List.cons.inj h).1
          exact absurd hhead (by decide)
      | cons entry' entries' =>
          simp only [entriesText, List.cons_append, List.append_assoc, List.cons.injEq,
            true_and] at h
          obtain ⟨rfl, hothers⟩ := entryText_append_inj h
          obtain ⟨rfl, hrest⟩ := ih hothers
          exact ⟨rfl, hrest⟩

theorem recordText_append_inj
    {entries entries' : List (String × Option String)}
    (h : recordText entries ++ rest = recordText entries' ++ rest') :
    entries = entries' ∧ rest = rest' := by
  have hquote :
      ∀ (entry : String × Option String) (back front : List Char),
        entryText entry ++ back ≠ '\x7d' :: front := by
    intro entry back front hsame
    unfold entryText at hsame
    rw [Json.toList_quote] at hsame
    have hhead := (List.cons.inj hsame).1
    exact absurd hhead (by decide)
  cases entries with
  | nil =>
      cases entries' with
      | nil => exact ⟨rfl, (List.cons.inj (List.cons.inj h).2).2⟩
      | cons entry' entries' =>
          simp only [recordText, List.cons_append, List.append_assoc, List.cons.injEq,
            true_and] at h
          exact absurd h.symm (hquote _ _ _)
  | cons entry entries =>
      cases entries' with
      | nil =>
          simp only [recordText, List.cons_append, List.append_assoc, List.cons.injEq,
            true_and] at h
          exact absurd h (hquote _ _ _)
      | cons entry' entries' =>
          simp only [recordText, List.cons_append, List.append_assoc, List.cons.injEq,
            true_and] at h
          obtain ⟨rfl, hothers⟩ := entryText_append_inj h
          obtain ⟨rfl, hrest⟩ := entriesText_append_inj hothers
          exact ⟨rfl, hrest⟩

theorem metadataText_append_inj
    {metadata metadata' : Option (Record String (Option String))}
    (h : metadataText metadata ++ rest = metadataText metadata' ++ rest') :
    metadata = metadata' ∧ rest = rest' := by
  have hbrace :
      ∀ (entries : List (String × Option String)) (back front : List Char),
        recordText entries ++ back ≠ "null".toList ++ front := by
    intro entries back front hsame
    cases entries with
    | nil => exact absurd (List.cons.inj hsame).1 (by decide)
    | cons entry entries => exact absurd (List.cons.inj hsame).1 (by decide)
  cases metadata with
  | none =>
      cases metadata' with
      | none => exact ⟨rfl, List.append_cancel_left h⟩
      | some record' => exact absurd h.symm (hbrace _ _ _)
  | some record =>
      cases metadata' with
      | none => exact absurd h (hbrace _ _ _)
      | some record' =>
          obtain ⟨entries, hdistinct⟩ := record
          obtain ⟨entries', hdistinct'⟩ := record'
          obtain ⟨rfl, hrest⟩ := recordText_append_inj h
          exact ⟨rfl, hrest⟩

theorem comma_not_mem_toString (n : Nat) : ',' ∉ (toString n).toList := by
  intro hmem
  exact absurd (Text.isDigit_of_mem_toString hmem) (by decide)

theorem comma_not_mem_sizeText (size : Option Nat) : ',' ∉ sizeText size := by
  cases size with
  | none => decide
  | some n => exact comma_not_mem_toString n

theorem sizeText_inj {size size' : Option Nat} (h : sizeText size = sizeText size') :
    size = size' := by
  have hdigits : ∀ n : Nat, (toString n).toList ≠ "null".toList := by
    intro n hsame
    have hmem : 'n' ∈ (toString n).toList := by
      rw [hsame]
      decide
    exact absurd (Text.isDigit_of_mem_toString hmem) (by decide)
  cases size with
  | none =>
      cases size' with
      | none => rfl
      | some n' => exact absurd h.symm (hdigits n')
  | some n =>
      cases size' with
      | none => exact absurd h (hdigits n)
      | some n' => rw [Text.toString_inj h]

theorem stringify_inj
    {uploadMeta uploadMeta' : UploadMetadata}
    (h : stringify uploadMeta = stringify uploadMeta') :
    uploadMeta = uploadMeta' := by
  obtain ⟨size, offset, metadata, created⟩ := uploadMeta
  obtain ⟨size', offset', metadata', created'⟩ := uploadMeta'
  unfold stringify at h
  obtain ⟨hsize, hbehind⟩ :=
    Text.append_cons_inj (comma_not_mem_sizeText _) (comma_not_mem_sizeText _)
      (List.append_cancel_left h)
  obtain ⟨hoffset, hrest⟩ :=
    Text.append_cons_inj (comma_not_mem_toString _) (comma_not_mem_toString _)
      (List.append_cancel_left hbehind)
  obtain ⟨rfl, hlast⟩ := metadataText_append_inj (List.append_cancel_left hrest)
  obtain ⟨rfl, -⟩ := Json.quote_append_inj (List.append_cancel_left (List.cons.inj hlast).2)
  obtain rfl := sizeText_inj hsize
  obtain rfl := Text.toString_inj hoffset
  rfl

theorem encodeJson_inj
    {uploadMeta uploadMeta' : UploadMetadata}
    (h : encodeJson uploadMeta = encodeJson uploadMeta') :
    uploadMeta = uploadMeta' := by
  unfold encodeJson at h
  exact stringify_inj (Unicode.utf8_injective h)

/-- What is printed can be read back. -/
theorem nonempty_jsonReader : Nonempty JsonReader :=
  ⟨{ parse := Function.partialInv encodeJson
     parse_encodeJson := fun uploadMeta =>
      Function.partialInv_left (fun _ _ h => encodeJson_inj h) uploadMeta }⟩

/-! ## Keys apart -/

variable {id' : String}

theorem metaKey_inj {id : String} : metaKey id = metaKey id' ↔ id = id' := by
  unfold metaKey
  rw [String.append_left_inj, String.append_right_inj]

theorem bodyKey_inj {id : String} : bodyKey id = bodyKey id' ↔ id = id' := by
  unfold bodyKey
  rw [String.append_right_inj]

/-- The body of an upload lies where the metadata of another are for such ids only. -/
theorem bodyKey_eq_metaKey_iff {id : String} :
    bodyKey id = metaKey id' ↔ id = id' ++ META_SUFFIX := by
  unfold bodyKey metaKey
  rw [String.append_assoc, String.append_right_inj]

end DataStore
end Files
end NestBase
