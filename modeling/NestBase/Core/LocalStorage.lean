import NestBase.Core.FileStorage

/-!
# The local storage adapter as a key-value map

`LocalStorageAdapter` keeps the body of a key in the file that the key names
below the root, and its MIME type in a second file, the path of the first with
`.meta.json` behind it.  The file system is a map from absolute paths to byte
strings.

Both files live in one name space.  The adapter is the key-value map of its
calls for a set of keys if and only if no two of the keys resolve to one path,
and none of them to the sidecar path of another (`localStorage_keyValue_iff`).
-/

namespace NestBase
namespace Files
namespace LocalStorage

open Lib
open PosixPath (Segment)

/-- The segments of an absolute path. -/
abbrev Path := List Segment

abbrev FileSystem := Path → Option Bytes

/-! ## Paths -/

/-- The file of a key, or the error of a key outside the root. -/
def resolveSafe (root : Path) (key : String) : Except StorageError Path :=
  match Files.resolveSafe key with
  | .error error => .error error
  | .ok segments =>
      let rel := String.ofList (['/'].intercalate segments)
      if Text.startsWith rel ".." then
        .error (.failed ("storage: path traversal rejected for key \"" ++ key ++ "\""))
      else .ok (root ++ segments)

def META_SUFFIX : List Char := ".meta.json".toList

/-- The path with `.meta.json` behind its text; the text of the empty path is the slash. -/
def metaPath (filePath : Path) : Path :=
  filePath.dropLast ++ [filePath.getLastD [] ++ META_SUFFIX]

/-- `JSON.stringify({ mimeType })` as it is written. -/
def sidecarBytes (mimeType : String) : Bytes :=
  (StoredObject.sidecar mimeType).bytes

/-! ## Calls -/

inductive Request
  | put (key : String) (body : Bytes) (mimeType : String)
  | get (key : String)
  | delete (key : String)
  | exists_ (key : String)
deriving DecidableEq

def Request.key : Request → String
  | put key _ _ => key
  | get key => key
  | delete key => key
  | exists_ key => key

inductive Response
  | metadata (key : String) (sizeBytes : Nat) (mimeType : String)
  | body (bytes : Bytes)
  | flag (value : Bool)
  | failed (error : StorageError)
deriving DecidableEq

section Adapter

variable (root : Path)

def put (fs : FileSystem) (key : String) (body : Bytes) (mimeType : String) :
    Response × FileSystem :=
  if key = "" then (.failed (.failed "storage: key is required"), fs)
  else
    match resolveSafe root key with
    | .error error => (.failed error, fs)
    | .ok filePath =>
        (.metadata key body.length mimeType,
          Function.update (Function.update fs filePath (some body)) (metaPath filePath)
            (some (sidecarBytes mimeType)))

def get (fs : FileSystem) (key : String) : Response :=
  match resolveSafe root key with
  | .error error => .failed error
  | .ok filePath =>
      match fs filePath with
      | none => .failed .notFound
      | some buffer => .body buffer

def delete (fs : FileSystem) (key : String) : Response × FileSystem :=
  match resolveSafe root key with
  | .error error => (.failed error, fs)
  | .ok filePath =>
      if (fs filePath).isSome then
        (.flag true,
          Function.update (Function.update fs filePath none) (metaPath filePath) none)
      else (.flag false, fs)

/-- A key that `resolveSafe` rejects does not exist. -/
def exists_ (fs : FileSystem) (key : String) : Response :=
  match resolveSafe root key with
  | .error _ => .flag false
  | .ok filePath => .flag (fs filePath).isSome

def handle (fs : FileSystem) : Request → Response × FileSystem
  | .put key body mimeType => put root fs key body mimeType
  | .get key => (get root fs key, fs)
  | .delete key => delete root fs key
  | .exists_ key => (exists_ root fs key, fs)

/-- The responses to a sequence of calls. -/
def responses (fs : FileSystem) : List Request → List Response
  | [] => []
  | request :: rest =>
      (handle root fs request).1 :: responses (handle root fs request).2 rest

end Adapter

/-! ## The key-value map -/

/-- What the store is for: the last body put under each key and not deleted. -/
abbrev KeyValue := String → Option Bytes

def mapHandle (kv : KeyValue) : Request → Response × KeyValue
  | .put key body mimeType =>
      (.metadata key body.length mimeType, Function.update kv key (some body))
  | .get key =>
      match kv key with
      | none => (.failed .notFound, kv)
      | some body => (.body body, kv)
  | .delete key => (.flag (kv key).isSome, Function.update kv key none)
  | .exists_ key => (.flag (kv key).isSome, kv)

def mapResponses (kv : KeyValue) : List Request → List Response
  | [] => []
  | request :: rest => (mapHandle kv request).1 :: mapResponses (mapHandle kv request).2 rest

def emptyFileSystem : FileSystem := fun _ => none

def emptyMap : KeyValue := fun _ => none

/-- Every sequence of calls with these keys is answered as by the map. -/
def IsKeyValueMap (root : Path) (keys : String → Prop) : Prop :=
  ∀ requests : List Request, (∀ request ∈ requests, keys request.key) →
    responses root emptyFileSystem requests = mapResponses emptyMap requests

/-- Different keys name different files, and no key names the sidecar of another. -/
def Separate (root : Path) (keys : String → Prop) : Prop :=
  ∀ key key', keys key → keys key' → key ≠ key' →
    ∀ filePath filePath', resolveSafe root key = .ok filePath →
      resolveSafe root key' = .ok filePath' →
        filePath ≠ filePath' ∧ filePath ≠ metaPath filePath'

/-! ## Both files of a key -/

theorem metaPath_ne (filePath : Path) : metaPath filePath ≠ filePath := by
  intro heq
  have hlast : (metaPath filePath).getLastD [] = filePath.getLastD [] ++ META_SUFFIX := by
    unfold metaPath
    rw [List.getLastD_concat]
  rw [heq] at hlast
  have hlength := congrArg List.length hlast
  rw [List.length_append] at hlength
  have hsuffix : META_SUFFIX.length = 10 := by decide
  omega

theorem sidecarBytes_ne_nil (mimeType : String) : sidecarBytes mimeType ≠ [] := by
  intro hnil
  have hlength := Unicode.length_le_length_utf8
    ("\x7b\"mimeType\":" ++ Json.quote mimeType ++ "\x7d").toList
  change (_ : Nat) ≤ (sidecarBytes mimeType).length at hlength
  rw [hnil] at hlength
  simp at hlength

/-- The adapter accepts the key. -/
def Accepted (root : Path) (key : String) : Prop :=
  ∃ filePath, resolveSafe root key = .ok filePath

theorem ne_empty_of_resolveSafe
    {root : Path} {key : String} {filePath : Path}
    (hpath : resolveSafe root key = .ok filePath) :
    key ≠ "" := by
  rintro rfl
  cases hpath

/-! ## One call -/

section Simulation

variable {root : Path}
variable {keys : String → Prop}

/-- The file of each key holds what the map has under it. -/
def Agrees (root : Path) (keys : String → Prop) (fs : FileSystem) (kv : KeyValue) : Prop :=
  ∀ key filePath, keys key → resolveSafe root key = .ok filePath → fs filePath = kv key

variable {kv : KeyValue}
variable {fs : FileSystem}

/-- Changing both files of one key changes that key only. -/
theorem Agrees.update
    {key : String} {filePath : Path}
    (hagrees : Agrees root keys fs kv)
    (hseparate : Separate root keys)
    (hkey : keys key)
    (hpath : resolveSafe root key = .ok filePath)
    (body sidecar : Option Bytes) :
    Agrees root keys
      (Function.update (Function.update fs filePath body) (metaPath filePath) sidecar)
      (Function.update kv key body) := by
  intro key' filePath' hkey' hpath'
  by_cases hsame : key' = key
  · subst hsame
    obtain rfl := Except.ok.inj (hpath.symm.trans hpath')
    rw [Function.update_of_ne (metaPath_ne filePath).symm, Function.update_self,
      Function.update_self]
  · obtain ⟨hfile, hmeta⟩ :=
      hseparate key' key hkey' hkey hsame filePath' filePath hpath' hpath
    rw [Function.update_of_ne hmeta, Function.update_of_ne hfile, Function.update_of_ne hsame]
    exact hagrees key' filePath' hkey' hpath'

/-- One call is answered as by the map and keeps the agreement. -/
theorem handle_agrees
    {request : Request}
    (haccepted : ∀ key, keys key → Accepted root key)
    (hseparate : Separate root keys)
    (hagrees : Agrees root keys fs kv)
    (hkey : keys request.key) :
    (handle root fs request).1 = (mapHandle kv request).1 ∧
      Agrees root keys (handle root fs request).2 (mapHandle kv request).2 := by
  obtain ⟨filePath, hpath⟩ := haccepted request.key hkey
  have hfile : fs filePath = kv request.key := hagrees request.key filePath hkey hpath
  cases request with
  | put key body mimeType =>
      change resolveSafe root key = .ok filePath at hpath
      have hempty : key ≠ "" := ne_empty_of_resolveSafe hpath
      simp only [handle, put, mapHandle, if_neg hempty, hpath, true_and]
      exact hagrees.update hseparate hkey hpath _ _
  | get key =>
      change resolveSafe root key = .ok filePath at hpath
      change fs filePath = kv key at hfile
      simp only [handle, get, mapHandle, hpath, hfile]
      cases kv key with
      | none => exact ⟨rfl, hagrees⟩
      | some body => exact ⟨rfl, hagrees⟩
  | delete key =>
      change resolveSafe root key = .ok filePath at hpath
      change fs filePath = kv key at hfile
      simp only [handle, delete, mapHandle, hpath, hfile]
      cases hkv : kv key with
      | none =>
          refine ⟨rfl, ?_⟩
          have hsame : Function.update kv key none = kv := by
            rw [← hkv, Function.update_eq_self]
          rw [hsame]
          exact hagrees
      | some body => exact ⟨rfl, hagrees.update hseparate hkey hpath _ _⟩
  | exists_ key =>
      change resolveSafe root key = .ok filePath at hpath
      change fs filePath = kv key at hfile
      simp only [handle, exists_, mapHandle, hpath, hfile, true_and]
      exact hagrees

theorem responses_agree
    (haccepted : ∀ key, keys key → Accepted root key)
    (hseparate : Separate root keys)
    {requests : List Request}
    (hkeys : ∀ request ∈ requests, keys request.key)
    (hagrees : Agrees root keys fs kv) :
    responses root fs requests = mapResponses kv requests := by
  induction requests generalizing fs kv with
  | nil => rfl
  | cons request requests ih =>
      obtain ⟨hresponse, hnext⟩ :=
        handle_agrees haccepted hseparate hagrees (hkeys request List.mem_cons_self)
      rw [responses, mapResponses, hresponse,
        ih (fun other hother => hkeys other (List.mem_cons_of_mem _ hother)) hnext]

/-! ## Keys that share a file -/

/-- What `get` reports of one key after the other was put behind it. -/
theorem responses_put_put_get
    {key key' : String} {filePath filePath' : Path} {body body' : Bytes}
    (hpath : resolveSafe root key = .ok filePath)
    (hpath' : resolveSafe root key' = .ok filePath') :
    responses root emptyFileSystem [.put key body "", .put key' body' "", .get key] =
      [.metadata key body.length "", .metadata key' body'.length "",
        match
          Function.update
            (Function.update
              (Function.update (Function.update emptyFileSystem filePath (some body))
                (metaPath filePath) (some (sidecarBytes "")))
              filePath' (some body'))
            (metaPath filePath') (some (sidecarBytes "")) filePath with
        | none => .failed .notFound
        | some buffer => .body buffer] := by
  simp only [responses, handle, put, get, if_neg (ne_empty_of_resolveSafe hpath),
    if_neg (ne_empty_of_resolveSafe hpath'), hpath, hpath']

theorem mapResponses_put_put_get {key key' : String} {body body' : Bytes} (hne : key ≠ key') :
    mapResponses emptyMap [.put key body "", .put key' body' "", .get key] =
      [.metadata key body.length "", .metadata key' body'.length "", .body body] := by
  simp only [mapResponses, mapHandle, Function.update_of_ne hne, Function.update_self]

/-- An adapter that answers as the map keeps the files of its keys apart. -/
theorem separate_of_isKeyValueMap (hmap : IsKeyValueMap root keys) : Separate root keys := by
  intro key key' hkey hkey' hne filePath filePath' hpath hpath'
  have hresponses :
      ∀ body body' : Bytes,
        responses root emptyFileSystem [.put key body "", .put key' body' "", .get key] =
          [.metadata key body.length "", .metadata key' body'.length "", .body body] := by
    intro body body'
    have hkeys :
        ∀ request ∈ [Request.put key body "", .put key' body' "", .get key],
          keys request.key := by
      intro request hrequest
      simp only [List.mem_cons, List.not_mem_nil, or_false] at hrequest
      rcases hrequest with rfl | rfl | rfl
      · exact hkey
      · exact hkey'
      · exact hkey
    rw [hmap _ hkeys, mapResponses_put_put_get hne]
  refine ⟨?_, ?_⟩
  · -- one file for both keys: the body of the second shows under the first
    rintro rfl
    have hshared := hresponses [0] []
    rw [responses_put_put_get hpath hpath', Function.update_of_ne (metaPath_ne filePath).symm,
      Function.update_self] at hshared
    simp at hshared
  · -- the file of the first key is the sidecar of the second
    rintro rfl
    have hshared := hresponses [] []
    rw [responses_put_put_get hpath hpath', Function.update_self] at hshared
    simp [sidecarBytes_ne_nil] at hshared

end Simulation

/--
For every set of accepted keys, every sequence of calls is answered as by a
key-value map, if and only if no two of the keys share a file and no key names
the sidecar of another.
-/
theorem localStorage_keyValue_iff
    {root : Path} {keys : String → Prop}
    (haccepted : ∀ key, keys key → Accepted root key) :
    IsKeyValueMap root keys ↔ Separate root keys := by
  constructor
  · exact separate_of_isKeyValueMap
  · intro hseparate requests hkeys
    refine responses_agree haccepted hseparate hkeys ?_
    intro key filePath _ _
    rfl

/-! ## An object beside a sidecar -/

def dataRoot : Path := ["data".toList]

theorem resolveSafe_a : resolveSafe dataRoot "a" = .ok ["data".toList, "a".toList] := by
  rfl

theorem resolveSafe_b : resolveSafe dataRoot "b" = .ok ["data".toList, "b".toList] := by
  rfl

theorem resolveSafe_sidecar :
    resolveSafe dataRoot "a.meta.json" = .ok ["data".toList, "a.meta.json".toList] := by
  rfl

/-- The keys `a` and `b` keep their files apart. -/
theorem localStorage_keyValue_ab :
    IsKeyValueMap dataRoot fun key => key = "a" ∨ key = "b" := by
  have haccepted : ∀ key, key = "a" ∨ key = "b" → Accepted dataRoot key := by
    rintro key (rfl | rfl)
    · exact ⟨_, resolveSafe_a⟩
    · exact ⟨_, resolveSafe_b⟩
  refine (localStorage_keyValue_iff haccepted).mpr ?_
  rintro key key' (rfl | rfl) (rfl | rfl) hne filePath filePath' hpath hpath'
  · exact absurd rfl hne
  · obtain rfl := Except.ok.inj (resolveSafe_a.symm.trans hpath)
    obtain rfl := Except.ok.inj (resolveSafe_b.symm.trans hpath')
    decide
  · obtain rfl := Except.ok.inj (resolveSafe_b.symm.trans hpath)
    obtain rfl := Except.ok.inj (resolveSafe_a.symm.trans hpath')
    decide
  · exact absurd rfl hne

/-- Putting `a` overwrites the object under `a.meta.json`. -/
theorem not_isKeyValueMap_sidecar :
    ¬ ∀ (root : Path) (keys : String → Prop),
        (∀ key, keys key → Accepted root key) →
        (∀ key key', keys key → keys key' → key ≠ key' →
          PosixPath.normalize key.toList ≠ PosixPath.normalize key'.toList) →
        IsKeyValueMap root keys := by
  intro hall
  have haccepted : ∀ key, key = "a.meta.json" ∨ key = "a" → Accepted dataRoot key := by
    rintro key (rfl | rfl)
    · exact ⟨_, resolveSafe_sidecar⟩
    · exact ⟨_, resolveSafe_a⟩
  have hmap := hall dataRoot (fun key => key = "a.meta.json" ∨ key = "a") haccepted (by
    rintro key key' (rfl | rfl) (rfl | rfl) hne
    · exact absurd rfl hne
    · decide
    · decide
    · exact absurd rfl hne)
  have hseparate :=
    separate_of_isKeyValueMap hmap "a.meta.json" "a" (Or.inl rfl) (Or.inr rfl) (by decide)
      _ _ resolveSafe_sidecar resolveSafe_a
  exact hseparate.2 rfl

end LocalStorage
end Files
end NestBase
