import NestBase.Lib.OrderedMap
import NestBase.Lib.Text
import NestBase.Lib.Unicode

/-!
# The S3 storage adapter beside the reference one

`InMemoryStorageAdapter` is the reference implementation of the storage
contract.  `S3StorageAdapter` answers the same calls through `AwsS3Operations`
and a bucket, a strongly consistent map of keys to objects.

Two answers of the service are not those of a map: DeleteObject succeeds for
every key, and one ListObjectsV2 call names at most 1000 keys.  A history is
answered alike exactly when it stays clear of both (`sameAnswers_iff`).
-/

namespace NestBase
namespace Files
namespace S3Storage

open Lib
open Lib.Unicode

/-! ## Calls -/

structure StoredObject where
  body : Bytes
  mimeType : String
deriving DecidableEq

structure StorageObjectMetadata where
  key : String
  sizeBytes : Nat
  mimeType : String
deriving DecidableEq

inductive Call where
  | put (key : String) (body : Bytes) (mimeType : String)
  | get (key : String)
  | delete (key : String)
  | exists_ (key : String)
  | list (start : String)
deriving DecidableEq

/-- The key of a call; `list` has none. -/
def Call.key? : Call → Option String
  | .put key _ _ => some key
  | .get key => some key
  | .delete key => some key
  | .exists_ key => some key
  | .list _ => none

/-- What the SDK throws. -/
structure S3Error where
  name : Option String
  code : Option String
  httpStatusCode : Option Nat
deriving DecidableEq

inductive StorageError where
  | error (message : String)
  /-- A `StorageObjectNotFoundError`. -/
  | objectNotFound (key : String)
  | s3 (error : S3Error)
deriving DecidableEq

inductive Answer where
  | metadata (value : StorageObjectMetadata)
  | body (bytes : Bytes)
  | flag (value : Bool)
  | keys (value : List String)
  | failed (error : StorageError)
deriving DecidableEq

abbrev Objects := Record String StoredObject

/-- The keys with a common beginning. -/
def matching (start : String) (objects : Objects) : List String :=
  objects.keys.filter fun key => Text.startsWith key start

/-! ## The reference adapter -/

namespace InMemoryStorageAdapter

def put (key : String) (body : Bytes) (mimeType : String) (objects : Objects) :
    Answer × Objects :=
  if key = "" then (.failed (.error "storage: key is required"), objects)
  else
    (.metadata { key := key, sizeBytes := body.length, mimeType := mimeType },
      objects.set key { body := body, mimeType := mimeType })

def get (key : String) (objects : Objects) : Answer :=
  match objects.get key with
  | none => .failed (.objectNotFound key)
  | some entry => .body entry.body

def handle (objects : Objects) : Call → Answer × Objects
  | .put key body mimeType => put key body mimeType objects
  | .get key => (get key objects, objects)
  | .delete key => (.flag (objects.get key).isSome, objects.remove key)
  | .exists_ key => (.flag (objects.get key).isSome, objects)
  | .list start => (.keys (sortTexts (matching start objects)), objects)

end InMemoryStorageAdapter

/-! ## The service -/

/-- Which of the matching keys one ListObjectsV2 call names. -/
structure Listing where
  page : List String → List String
  subperm : ∀ keys, (page keys).Subperm keys
  bounded : ∀ keys, (page keys).length ≤ 1000
  complete : ∀ keys, keys.length ≤ 1000 → (page keys).Perm keys

structure GetObjectOutput where
  /-- The stream, as it is collected. -/
  body : Option Bytes
  contentType : Option String

structure ListObjectsV2Output where
  contents : Option (List (Option String))

/-- The SDK does not send a request for the empty key. -/
def emptyKey : S3Error where
  name := some "Error"
  code := none
  httpStatusCode := none

def noSuchKey : S3Error where
  name := some "NoSuchKey"
  code := some "NoSuchKey"
  httpStatusCode := some 404

def headNotFound : S3Error where
  name := some "NotFound"
  code := none
  httpStatusCode := some 404

namespace Service

def putObject (key : String) (object : StoredObject) (bucket : Objects) :
    Except S3Error Unit × Objects :=
  if key = "" then (.error emptyKey, bucket) else (.ok (), bucket.set key object)

def getObject (key : String) (bucket : Objects) : Except S3Error GetObjectOutput :=
  if key = "" then .error emptyKey
  else
    match bucket.get key with
    | none => .error noSuchKey
    | some object => .ok { body := some object.body, contentType := some object.mimeType }

def deleteObject (key : String) (bucket : Objects) : Except S3Error Unit × Objects :=
  if key = "" then (.error emptyKey, bucket) else (.ok (), bucket.remove key)

def headObject (key : String) (bucket : Objects) : Except S3Error Unit :=
  if key = "" then .error emptyKey
  else if (bucket.get key).isSome then .ok () else .error headNotFound

/-- The first page; without a key its contents are absent. -/
def listObjectsV2 (listing : Listing) (start : String) (bucket : Objects) : ListObjectsV2Output :=
  let keys := listing.page (matching start bucket)
  { contents := if keys = [] then none else some (keys.map some) }

end Service

/-! ## The adapter over the service -/

def isS3NotFound (error : S3Error) : Bool :=
  error.name == some "NoSuchKey" || error.name == some "NotFound" ||
    error.code == some "NoSuchKey" || error.httpStatusCode == some 404

structure S3GetResult where
  body : Bytes
  mimeType : String

namespace AwsS3Operations

def putObject (key : String) (body : Bytes) (mimeType : String) (bucket : Objects) :
    Except S3Error Unit × Objects :=
  Service.putObject key { body := body, mimeType := mimeType } bucket

def getObject (key : String) (bucket : Objects) : Except S3Error (Option S3GetResult) :=
  match Service.getObject key bucket with
  | .ok response =>
      match response.body with
      | none => .ok none
      | some body =>
          .ok
            (some
              { body := body, mimeType := response.contentType.getD "application/octet-stream" })
  | .error error => if isS3NotFound error then .ok none else .error error

def deleteObject (key : String) (bucket : Objects) : Except S3Error Bool × Objects :=
  match Service.deleteObject key bucket with
  | (.ok (), bucket') => (.ok true, bucket')
  | (.error error, bucket') =>
      if isS3NotFound error then (.ok false, bucket') else (.error error, bucket')

def headObject (key : String) (bucket : Objects) : Except S3Error Bool :=
  match Service.headObject key bucket with
  | .ok () => .ok true
  | .error error => if isS3NotFound error then .ok false else .error error

def listObjects (listing : Listing) (start : String) (bucket : Objects) : List String :=
  match (Service.listObjectsV2 listing start bucket).contents with
  | none => []
  | some contents => sortTexts (contents.filterMap id)

end AwsS3Operations

namespace S3StorageAdapter

def put (key : String) (body : Bytes) (mimeType : String) (bucket : Objects) : Answer × Objects :=
  if key = "" then (.failed (.error "storage: key is required"), bucket)
  else
    match AwsS3Operations.putObject key body mimeType bucket with
    | (.ok (), bucket') =>
        (.metadata { key := key, sizeBytes := body.length, mimeType := mimeType }, bucket')
    | (.error error, bucket') => (.failed (.s3 error), bucket')

def get (key : String) (bucket : Objects) : Answer :=
  match AwsS3Operations.getObject key bucket with
  | .ok none => .failed (.objectNotFound key)
  | .ok (some result) => .body result.body
  | .error error => .failed (.s3 error)

def delete (key : String) (bucket : Objects) : Answer × Objects :=
  match AwsS3Operations.deleteObject key bucket with
  | (.ok deleted, bucket') => (.flag deleted, bucket')
  | (.error error, bucket') => (.failed (.s3 error), bucket')

def exists_ (key : String) (bucket : Objects) : Answer :=
  match AwsS3Operations.headObject key bucket with
  | .ok found => .flag found
  | .error error => .failed (.s3 error)

def handle (listing : Listing) (bucket : Objects) : Call → Answer × Objects
  | .put key body mimeType => put key body mimeType bucket
  | .get key => (get key bucket, bucket)
  | .delete key => delete key bucket
  | .exists_ key => (exists_ key bucket, bucket)
  | .list start => (.keys (AwsS3Operations.listObjects listing start bucket), bucket)

end S3StorageAdapter

/-! ## Adapters that answer alike -/

/-- The answers to a history of calls. -/
def answers (handle : Objects → Call → Answer × Objects) (objects : Objects) :
    List Call → List Answer
  | [] => []
  | call :: rest => (handle objects call).1 :: answers handle (handle objects call).2 rest

/-- Both adapters, empty at first, answer the history alike. -/
def SameAnswers (listing : Listing) (calls : List Call) : Prop :=
  answers (S3StorageAdapter.handle listing) Record.empty calls =
    answers InMemoryStorageAdapter.handle Record.empty calls

/-- A key that is deleted is stored, and a listing fits one page. -/
def Within (objects : Objects) : Call → Prop
  | .delete key => (objects.get key).isSome
  | .list start => (matching start objects).length ≤ 1000
  | _ => True

/-- Every call of the history is within, at its turn. -/
def AllWithin (objects : Objects) : List Call → Prop
  | [] => True
  | call :: rest =>
      Within objects call ∧ AllWithin (InMemoryStorageAdapter.handle objects call).2 rest

/-! ## One call -/

section Calls

variable {listing : Listing} {objects : Objects}

/-- What the adapter lists is the sorted page. -/
theorem listObjects_eq (start : String) :
    AwsS3Operations.listObjects listing start objects =
      sortTexts (listing.page (matching start objects)) := by
  unfold AwsS3Operations.listObjects Service.listObjectsV2
  dsimp only
  by_cases hempty : listing.page (matching start objects) = []
  · rw [if_pos hempty, hempty]
    exact List.mergeSort_nil.symm
  · rw [if_neg hempty]
    dsimp only
    rw [List.filterMap_map]
    congr 1
    exact List.filterMap_some

/-- A listing is the one of the reference adapter exactly when it fits one page. -/
theorem listObjects_eq_iff (start : String) :
    AwsS3Operations.listObjects listing start objects = sortTexts (matching start objects) ↔
      (matching start objects).length ≤ 1000 := by
  rw [listObjects_eq]
  constructor
  · intro hsame
    have hlength := congrArg List.length hsame
    rw [(sortTexts_perm _).length_eq, (sortTexts_perm _).length_eq] at hlength
    exact hlength ▸ listing.bounded _
  · exact fun hfits => sortTexts_eq_of_perm (listing.complete _ hfits)

theorem delete_eq {key : String} (hkey : key ≠ "") :
    S3StorageAdapter.delete key objects = (.flag true, objects.remove key) := by
  unfold S3StorageAdapter.delete AwsS3Operations.deleteObject Service.deleteObject
  rw [if_neg hkey]

theorem get_eq {key : String} (hkey : key ≠ "") :
    S3StorageAdapter.get key objects = InMemoryStorageAdapter.get key objects := by
  unfold S3StorageAdapter.get AwsS3Operations.getObject Service.getObject
    InMemoryStorageAdapter.get
  rw [if_neg hkey]
  cases objects.get key <;> rfl

theorem exists_eq {key : String} (hkey : key ≠ "") :
    S3StorageAdapter.exists_ key objects = .flag (objects.get key).isSome := by
  unfold S3StorageAdapter.exists_ AwsS3Operations.headObject Service.headObject
  rw [if_neg hkey]
  cases objects.get key <;> rfl

theorem put_eq (key : String) (body : Bytes) (mimeType : String) :
    S3StorageAdapter.put key body mimeType objects =
      InMemoryStorageAdapter.put key body mimeType objects := by
  unfold S3StorageAdapter.put InMemoryStorageAdapter.put
  by_cases hkey : key = ""
  · rw [if_pos hkey, if_pos hkey]
  · rw [if_neg hkey, if_neg hkey]
    unfold AwsS3Operations.putObject Service.putObject
    rw [if_neg hkey]

/-- Both adapters keep the same objects. -/
theorem handle_objects {call : Call} (hkey : call.key? ≠ some "") :
    (S3StorageAdapter.handle listing objects call).2 =
      (InMemoryStorageAdapter.handle objects call).2 := by
  cases call with
  | put key body mimeType =>
      exact congrArg Prod.snd (put_eq key body mimeType)
  | delete key =>
      have hdelete : S3StorageAdapter.delete key objects = (.flag true, objects.remove key) :=
        delete_eq fun h => hkey (congrArg some h)
      change (S3StorageAdapter.delete key objects).2 = _
      rw [hdelete]
      rfl
  | get key => rfl
  | exists_ key => rfl
  | list start => rfl

/-- The answers are the same exactly for the calls within. -/
theorem handle_answer_iff {call : Call} (hkey : call.key? ≠ some "") :
    (S3StorageAdapter.handle listing objects call).1 =
        (InMemoryStorageAdapter.handle objects call).1 ↔
      Within objects call := by
  cases call with
  | put key body mimeType =>
      exact iff_of_true (congrArg Prod.fst (put_eq key body mimeType)) trivial
  | get key => exact iff_of_true (get_eq fun h => hkey (congrArg some h)) trivial
  | delete key =>
      have hdelete : S3StorageAdapter.delete key objects = (.flag true, objects.remove key) :=
        delete_eq fun h => hkey (congrArg some h)
      simp only [S3StorageAdapter.handle, InMemoryStorageAdapter.handle, hdelete, Within,
        Answer.flag.injEq]
      exact eq_comm
  | exists_ key => exact iff_of_true (exists_eq fun h => hkey (congrArg some h)) trivial
  | list start =>
      simp only [S3StorageAdapter.handle, InMemoryStorageAdapter.handle, Answer.keys.injEq]
      exact listObjects_eq_iff start

/-! ## Histories -/

theorem answers_eq_iff
    {calls : List Call}
    (hkeys : ∀ call ∈ calls, call.key? ≠ some "")
    (objects : Objects) :
    answers (S3StorageAdapter.handle listing) objects calls =
        answers InMemoryStorageAdapter.handle objects calls ↔
      AllWithin objects calls := by
  induction calls generalizing objects with
  | nil => exact iff_of_true rfl trivial
  | cons call rest ih =>
      have hkey := hkeys call List.mem_cons_self
      rw [answers, answers, AllWithin, List.cons.injEq, handle_answer_iff hkey,
        handle_objects hkey, ih fun other hother => hkeys other (List.mem_cons_of_mem _ hother)]

/--
The S3 adapter answers a history with non-empty keys like the reference adapter
exactly when every key that is deleted is stored and every listing is of at
most 1000 keys.
-/
theorem sameAnswers_iff {calls : List Call} (hkeys : ∀ call ∈ calls, call.key? ≠ some "") :
    SameAnswers listing calls ↔ AllWithin Record.empty calls :=
  answers_eq_iff hkeys Record.empty

end Calls

/-! ## A deleted key -/

section Deleted

/-- The pages of a service that names the first thousand keys. -/
def firstThousand : Listing where
  page keys := keys.take 1000
  subperm keys := (List.take_sublist 1000 keys).subperm
  bounded keys := List.length_take_le 1000 keys
  complete keys hlength := by rw [List.take_of_length_le hlength]

/-- An object is put, listed, read and deleted. -/
theorem sameAnswers_note :
    SameAnswers firstThousand
      [.put "note" [104, 105] "text/plain", .list "", .get "note", .delete "note", .get "note"] := by
  refine (sameAnswers_iff (by decide)).mpr ?_
  refine ⟨trivial, ?_, trivial, ?_, trivial, trivial⟩
  · change List.length _ ≤ 1000
    decide
  · change Option.isSome _ = true
    decide

/-- After keys that are new, a listing of them all fits only up to a thousand. -/
theorem length_le_of_allWithin_puts
    {start : String} {keys : List String} {objects : Objects}
    (hnonempty : "" ∉ keys)
    (hnew : (objects.keys ++ keys).Nodup)
    (hstart : ∀ key ∈ keys, Text.startsWith key start = true)
    (hwithin : AllWithin objects ((keys.map fun key => .put key [] "image/webp") ++ [.list start])) :
    (matching start objects).length + keys.length ≤ 1000 := by
  induction keys generalizing objects with
  | nil => exact hwithin.1
  | cons key rest ih =>
      obtain ⟨hkey, hrest⟩ := not_or.mp (List.mem_cons.not.mp hnonempty)
      have hfresh : key ∉ objects.keys := fun hmem =>
        List.disjoint_of_nodup_append hnew hmem List.mem_cons_self
      have hput :
          (InMemoryStorageAdapter.put key [] "image/webp" objects).2 =
            objects.set key { body := [], mimeType := "image/webp" } := by
        unfold InMemoryStorageAdapter.put
        rw [if_neg (Ne.symm hkey)]
      have hkeys :
          (objects.set key { body := [], mimeType := "image/webp" }).keys = objects.keys ++ [key] := by
        rw [Record.keys_set, if_neg hfresh]
      have hafter := hwithin.2
      change AllWithin (InMemoryStorageAdapter.put key [] "image/webp" objects).2 _ at hafter
      rw [hput] at hafter
      have hbound :=
        ih hrest (by rwa [hkeys, List.append_assoc, List.singleton_append])
          (fun other hother => hstart other (List.mem_cons_of_mem _ hother)) hafter
      have hone : ([key].filter fun other => Text.startsWith other start) = [key] := by
        rw [List.filter_singleton, hstart key List.mem_cons_self]
        rfl
      rw [matching, hkeys, List.filter_append, List.length_append, hone, List.length_singleton]
        at hbound
      rw [List.length_cons, matching]
      omega

/-- A thousand and one keys with a common beginning. -/
def manyKeys : List String :=
  (List.range 1001).map fun n => "assets/" ++ toString n

theorem manyKeys_nodup : manyKeys.Nodup := by
  refine List.nodup_range.map fun n n' hsame => ?_
  have htexts := congrArg String.toList hsame
  rw [String.toList_append, String.toList_append] at htexts
  exact Text.toString_inj (List.append_cancel_left htexts)

theorem startsWith_of_mem_manyKeys {key : String} (h : key ∈ manyKeys) :
    Text.startsWith key "assets/" = true := by
  obtain ⟨n, -, rfl⟩ := List.mem_map.mp h
  exact Text.startsWith_append "assets/" _

def manyPuts : List Call :=
  manyKeys.map fun key => .put key [] "image/webp"

/-- Deleting a key that is not stored, and listing more keys than one page holds. -/
theorem not_sameAnswers_s3 :
    ¬ SameAnswers firstThousand [.delete "note"] ∧
    ¬ SameAnswers firstThousand (manyPuts ++ [.list "assets/"]) := by
  have hnonempty : "" ∉ manyKeys := fun hmem =>
    absurd (startsWith_of_mem_manyKeys hmem) (by decide)
  constructor
  · rw [SameAnswers, answers_eq_iff (by decide)]
    rintro ⟨hstored, -⟩
    change (Record.empty.get "note").isSome = true at hstored
    exact absurd hstored (by decide)
  · have hkeys : ∀ call ∈ manyPuts ++ [.list "assets/"], call.key? ≠ some "" := by
      intro call hcall
      rcases List.mem_append.mp hcall with hput | hlist
      · obtain ⟨key, hkey, rfl⟩ := List.mem_map.mp hput
        rintro ⟨rfl⟩
        exact hnonempty hkey
      · rw [List.mem_singleton.mp hlist]
        decide
    rw [SameAnswers, answers_eq_iff hkeys, manyPuts]
    have hnew : ((Record.empty : Objects).keys ++ manyKeys).Nodup := by
      change ([] ++ manyKeys).Nodup
      rw [List.nil_append]
      exact manyKeys_nodup
    refine mt (length_le_of_allWithin_puts hnonempty hnew fun _ => startsWith_of_mem_manyKeys) ?_
    rw [manyKeys, List.length_map, List.length_range]
    omega

end Deleted

end S3Storage
end Files
end NestBase
