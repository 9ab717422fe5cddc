import NestBase.Core.LocalStorage
import NestBase.Core.StorageKeys

/-!
# Uploads stay in their directory

The storage path of an upload has three segments: the tenant, the folder or
`_root`, and the file id in front of the sanitised name.  Ids have no dots and the
sanitised name has no slash, so the local adapter neither rejects the path nor
changes it, and the file lies directly in the directory of its folder.  Ids have
one length, so the paths of different files are different.
-/

namespace NestBase
namespace Files

open Lib
open Lib.PosixPath

section UploadPaths

variable {unicode : UnicodeClasses}

/-- The folder of an upload, as a segment. -/
def folderSegment (folderId : Option Uuid) : Segment :=
  ((folderId.map Uuid.value).getD ROOT_SEGMENT).toList

/-- The last segment of a storage path. -/
def fileSegment (fileId : Uuid) (cleanFilename : String) : Segment :=
  fileId.value.toList ++ '-' :: cleanFilename.toList

theorem plain_rootSegment : Plain ROOT_SEGMENT.toList where
  noSlash := by decide
  nonempty := by decide
  notCurrent := by decide
  notParent := by decide

theorem plain_folderSegment (folderId : Option Uuid) : Plain (folderSegment folderId) := by
  cases folderId with
  | none => exact plain_rootSegment
  | some folderId => exact plain_uuid folderId

theorem dot_not_mem_uuid (id : Uuid) : '.' ∉ id.value.toList := by
  intro hmem
  exact uuid_ne_of_mem id hmem (by decide) (by decide) rfl

theorem dot_not_mem_folderSegment (folderId : Option Uuid) : '.' ∉ folderSegment folderId := by
  cases folderId with
  | none =>
      change '.' ∉ ROOT_SEGMENT.toList
      decide
  | some folderId => exact dot_not_mem_uuid folderId

/-- The storage path of an upload with a name that can be sanitised. -/
theorem resolveStoragePath_of_sanitised
    {tenantId fileId : Uuid} {folderId : Option Uuid} {filename cleanFilename : String}
    (hclean : sanitiseFilename unicode filename = .ok cleanFilename) :
    ∃ key,
      resolveStoragePath unicode tenantId.value (folderId.map Uuid.value) fileId.value filename =
          .ok key ∧
        key.toList = tenantId.value.toList ++ '/' :: (folderSegment folderId ++
          '/' :: fileSegment fileId cleanFilename) := by
  have hempty : ∀ id : Uuid, id.value ≠ "" := by
    intro id hid
    exact (plain_uuid id).nonempty (by rw [hid]; rfl)
  have hfilename : filename ≠ "" := by
    rintro rfl
    cases hclean
  refine ⟨tenantId.value ++ "/" ++ (folderId.map Uuid.value).getD ROOT_SEGMENT ++ "/" ++
    fileId.value ++ "-" ++ cleanFilename, ?_, ?_⟩
  · rw [resolveStoragePath, if_neg (hempty tenantId), if_neg (hempty fileId), if_neg hfilename]
    simp only [hclean]
  · simp [String.toList_append, folderSegment, fileSegment]

theorem sanitised_of_resolveStoragePath
    {tenantId fileId filename key : String} {folderId : Option String}
    (hkey : resolveStoragePath unicode tenantId folderId fileId filename = .ok key) :
    ∃ cleanFilename, sanitiseFilename unicode filename = .ok cleanFilename := by
  cases hclean : sanitiseFilename unicode filename with
  | ok cleanFilename => exact ⟨cleanFilename, rfl⟩
  | error message =>
      simp only [resolveStoragePath, hclean] at hkey
      split at hkey
      · cases hkey
      · split at hkey
        · cases hkey
        · split at hkey <;> cases hkey

/-- The segments of any storage path. -/
theorem text_of_resolveStoragePath
    {tenantId fileId : Uuid} {folderId : Option Uuid} {filename key : String}
    (hkey : resolveStoragePath unicode tenantId.value (folderId.map Uuid.value) fileId.value
      filename = .ok key) :
    ∃ cleanFilename,
      key.toList = tenantId.value.toList ++ '/' :: (folderSegment folderId ++
        '/' :: fileSegment fileId cleanFilename) := by
  obtain ⟨cleanFilename, hclean⟩ := sanitised_of_resolveStoragePath hkey
  obtain ⟨key', hkey', htext⟩ :=
    @resolveStoragePath_of_sanitised unicode tenantId fileId folderId _ _ hclean
  obtain rfl := Except.ok.inj (hkey'.symm.trans hkey)
  exact ⟨cleanFilename, htext⟩

/-! ## Three segments under the adapter -/

section Segments

variable {tenant folder file : Segment}

/-- Only the last segment may have dots, so no `..` stands before a slash. -/
theorem no_parent_before_slash
    (htenant : '.' ∉ tenant)
    (hfolder : '.' ∉ folder)
    (hfile : '/' ∉ file)
    {front back : List Char} :
    tenant ++ '/' :: (folder ++ '/' :: file) ≠ front ++ '.' :: '.' :: '/' :: back := by
  intro h
  have hdirectory : '.' ∉ tenant ++ '/' :: (folder ++ ['/']) := by
    simp [htenant, hfolder]
  have hsplit : tenant ++ '/' :: (folder ++ '/' :: file) =
      (tenant ++ '/' :: (folder ++ ['/'])) ++ file := by
    simp
  rw [hsplit] at h
  rcases List.append_eq_append_iff.mp h with ⟨inner, -, hrest⟩ | ⟨inner, hfront, hrest⟩
  · exact hfile (by rw [hrest]; simp)
  · cases inner with
    | nil =>
        rw [List.nil_append] at hrest
        exact hfile (by rw [← hrest]; simp)
    | cons c inner =>
        rw [List.cons_append] at hrest
        obtain ⟨rfl, -⟩ := List.cons.inj hrest
        exact hdirectory (by rw [hfront]; simp)

theorem segments_three (htenant : Plain tenant) (hfolder : Plain folder) (hfile : Plain file) :
    segments (tenant ++ '/' :: (folder ++ '/' :: file)) = [tenant, folder, file] := by
  rw [segments, isAbsolute_plain_append htenant, walk_append_slash, walk_plain false htenant,
    walk_append_slash, walk_plain false hfolder, walk_plain false hfile]
  rfl

theorem normalize_three (htenant : Plain tenant) (hfolder : Plain folder) (hfile : Plain file) :
    normalize (tenant ++ '/' :: (folder ++ '/' :: file)) =
      tenant ++ '/' :: (folder ++ '/' :: file) := by
  have hlast : (tenant ++ '/' :: (folder ++ '/' :: file)).getLast? ≠ some '/' := by
    intro h
    have hsplit : tenant ++ '/' :: (folder ++ '/' :: file) =
        (tenant ++ '/' :: (folder ++ ['/'])) ++ file := by
      simp
    rw [hsplit, List.getLast?_append_of_ne_nil _ hfile.nonempty] at h
    exact hfile.noSlash (List.mem_of_getLast? h)
  unfold PosixPath.normalize
  rw [isAbsolute_plain_append htenant, segments_three htenant hfolder hfile, if_neg hlast]
  simp

/-- The adapter keeps the three segments as they are. -/
theorem resolveSafe_three
    (htenant : Plain tenant)
    (hfolder : Plain folder)
    (hfile : Plain file)
    (hdots : '.' ∉ tenant)
    (hdots' : '.' ∉ folder)
    {key : String}
    (hkey : key.toList = tenant ++ '/' :: (folder ++ '/' :: file))
    (root : LocalStorage.Path) :
    LocalStorage.resolveSafe root key = .ok (root ++ [tenant, folder, file]) := by
  have hempty : key ≠ "" := by
    rintro rfl
    simp at hkey
  obtain ⟨first, rest, hfirst⟩ := List.exists_cons_of_ne_nil htenant.nonempty
  have hdot : first ≠ '.' := by
    rintro rfl
    exact hdots (by rw [hfirst]; exact List.mem_cons_self)
  have hslash : first ≠ '/' := by
    rintro rfl
    exact htenant.noSlash (by rw [hfirst]; exact List.mem_cons_self)
  have hnormal : String.ofList (normalize key.toList) = key := by
    rw [hkey, normalize_three htenant hfolder hfile, ← hkey, String.ofList_toList]
  have hleaves : Text.startsWith key ".." = false := by
    rw [Text.startsWith, hkey, hfirst]
    simp [List.isPrefixOf, Ne.symm hdot]
  have habsolute : Text.startsWith key "/" = false := by
    rw [Text.startsWith, hkey, hfirst]
    simp [List.isPrefixOf, Ne.symm hslash]
  have hinside : Text.includes key "../" = false := by
    rw [Text.includes, List.any_eq_false]
    intro rest hrest hprefix
    obtain ⟨front, hfront⟩ := (List.mem_tails _ _).mp hrest
    obtain ⟨back, rfl⟩ := List.isPrefixOf_iff_prefix.mp hprefix
    rw [hkey] at hfront
    exact no_parent_before_slash hdots hdots' hfile.noSlash hfront.symm
  have hbelow : Files.resolveSafe key = .ok [tenant, folder, file] := by
    rw [Files.resolveSafe, if_neg hempty]
    simp only [hnormal, hleaves, hinside, habsolute, Bool.or_false, Bool.false_eq_true, if_false]
    rw [hkey, segments_three htenant hfolder hfile]
  have hrel : String.ofList (['/'].intercalate [tenant, folder, file]) = key := by
    rw [← String.ofList_toList (s := key), hkey]
    simp
  rw [LocalStorage.resolveSafe, hbelow]
  simp only [hrel, hleaves, Bool.false_eq_true, if_false]

end Segments

/-! ## Uploads -/

theorem plain_sanitised
    (fileId : Uuid)
    {filename cleanFilename : String}
    (hclean : sanitiseFilename unicode filename = .ok cleanFilename) :
    Plain (fileSegment fileId cleanFilename) :=
  plain_fileSegment fileId (slash_not_mem_sanitiseFilename hclean)

/-- All ids have one length. -/
theorem length_uuid (id : Uuid) : id.value.toList.length = 36 := by
  have hvalid := id.valid
  simp only [isUuid, Bool.and_eq_true, decide_eq_true_eq, List.map_eq_cons_iff,
    List.map_eq_nil_iff] at hvalid
  have hgroups := @List.intercalate_splitOn Char id.value.toList _ _ '-'
  obtain ⟨⟨a, _, hsplit, ha, b, _, rfl, hb, c, _, rfl, hc, d, _, rfl, hd, e, _, rfl, he, rfl⟩, -⟩ :=
    hvalid
  rw [hsplit] at hgroups
  rw [← hgroups]
  simp
  omega

/-- Equal storage paths have equal file ids. -/
theorem fileId_eq_of_path_eq
    {tenantId tenantId' fileId fileId' : Uuid} {folderId folderId' : Option Uuid}
    {name name' : String}
    (h : tenantId.value.toList ++ '/' :: (folderSegment folderId ++ '/' :: fileSegment fileId name) =
      tenantId'.value.toList ++ '/' :: (folderSegment folderId' ++
        '/' :: fileSegment fileId' name')) :
    fileId.value = fileId'.value := by
  obtain ⟨-, hbelow⟩ :=
    Text.append_cons_inj (plain_uuid tenantId).noSlash (plain_uuid tenantId').noSlash h
  obtain ⟨-, hfile⟩ := Text.append_cons_inj (plain_folderSegment folderId).noSlash
    (plain_folderSegment folderId').noSlash hbelow
  have hlength : fileId.value.toList.length = fileId'.value.toList.length := by
    rw [length_uuid, length_uuid]
  exact String.toList_injective (List.append_inj_left hfile hlength)

/-- An upload is stored directly in the directory of its folder, and under a key
that no other file id has. -/
theorem upload_stays
    (tenantId fileId : Uuid)
    (folderId : Option Uuid)
    {filename cleanFilename : String}
    (hclean : sanitiseFilename unicode filename = .ok cleanFilename) :
    ∃ key,
      resolveStoragePath unicode tenantId.value (folderId.map Uuid.value) fileId.value filename =
          .ok key ∧
        (∀ root : LocalStorage.Path, ∃ file, Plain file ∧
          LocalStorage.resolveSafe root key =
            .ok (root ++ [tenantId.value.toList, folderSegment folderId, file])) ∧
        ∀ (tenantId' fileId' : Uuid) (folderId' : Option Uuid) (filename' key' : String),
          resolveStoragePath unicode tenantId'.value (folderId'.map Uuid.value) fileId'.value
              filename' = .ok key' →
            fileId'.value ≠ fileId.value → key' ≠ key := by
  obtain ⟨key, hkey, htext⟩ :=
    @resolveStoragePath_of_sanitised unicode tenantId fileId folderId _ _ hclean
  refine ⟨key, hkey, ?_, ?_⟩
  · intro root
    refine ⟨fileSegment fileId cleanFilename, plain_sanitised fileId hclean, ?_⟩
    exact resolveSafe_three (plain_uuid tenantId) (plain_folderSegment folderId)
      (plain_sanitised fileId hclean) (dot_not_mem_uuid tenantId)
      (dot_not_mem_folderSegment folderId) htext root
  · intro tenantId' fileId' folderId' filename' key' hkey' hne hsame
    obtain ⟨cleanFilename', htext'⟩ := text_of_resolveStoragePath hkey'
    rw [hsame, htext] at htext'
    exact hne (fileId_eq_of_path_eq htext').symm

end UploadPaths

/-- A path out of the tenant's directory, and into another folder. -/
def climbingName : String := "../../etc/pass wd"

theorem sanitised_climbingName :
    sanitiseFilename asciiClasses climbingName = .ok "etc-pass-wd" := by
  rfl

def exampleTenant : Uuid where
  value := "6f1c2c0e-8a53-4b0b-9f6e-0a1b2c3d4e5f"
  valid := by rfl

theorem upload_stays_climbingName :
    ∃ key,
      resolveStoragePath asciiClasses exampleTenant.value ((none : Option Uuid).map Uuid.value)
          exampleTenant.value climbingName = .ok key ∧
        (∀ root : LocalStorage.Path, ∃ file, PosixPath.Plain file ∧
          LocalStorage.resolveSafe root key =
            .ok (root ++ [exampleTenant.value.toList, folderSegment none, file])) ∧
        ∀ (tenantId' fileId' : Uuid) (folderId' : Option Uuid) (filename' key' : String),
          resolveStoragePath asciiClasses tenantId'.value (folderId'.map Uuid.value) fileId'.value
              filename' = .ok key' →
            fileId'.value ≠ exampleTenant.value → key' ≠ key :=
  upload_stays exampleTenant exampleTenant none sanitised_climbingName

end Files
end NestBase
