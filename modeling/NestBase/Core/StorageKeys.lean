import NestBase.Core.FileStorage

/-!
# Where storage keys lead

The layout of `resolveStoragePath` puts the objects of a tenant below
`<tenantId>/` and, in quarantine, below `_quarantine/<tenantId>/`.  A key
belongs to a tenant when its normal form lies there; no key belongs to two
tenants.

File names cannot lead out, because `sanitiseFilename` leaves no slash.  The
folder is taken from the request as it is, so the key stays with the tenant
only if the folder, followed from inside `<tenantId>/`, does not lead out.
-/

namespace NestBase
namespace Files

open Lib
open Lib.PosixPath

section StorageKeys

variable {unicode : UnicodeClasses}

/-! ## Ids as segments -/

/-- Every element of a list is the separator or lies in one of the parts. -/
theorem mem_splitOn_or {α : Type} [DecidableEq α] {sep a : α} {l : List α} (hmem : a ∈ l) :
    a = sep ∨ ∃ part ∈ l.splitOn sep, a ∈ part := by
  induction l with
  | nil =>
      cases hmem
  | cons x rest ih =>
      rw [List.splitOn_cons_eq_if_modifyHead]
      obtain ⟨first, others, hparts⟩ :=
        List.exists_cons_of_ne_nil (List.splitOn_ne_nil sep rest)
      by_cases hx : x = sep
      · rw [if_pos (beq_iff_eq.mpr hx)]
        rcases List.mem_cons.mp hmem with rfl | hrest
        · exact Or.inl hx
        · rcases ih hrest with heq | ⟨part, hpart, hin⟩
          · exact Or.inl heq
          · exact Or.inr ⟨part, List.mem_cons_of_mem _ hpart, hin⟩
      · rw [if_neg (by simpa using hx), hparts, List.modifyHead_cons]
        rcases List.mem_cons.mp hmem with rfl | hrest
        · exact Or.inr ⟨_, List.mem_cons_self, List.mem_cons_self⟩
        · rcases ih hrest with heq | ⟨part, hpart, hin⟩
          · exact Or.inl heq
          · rw [hparts] at hpart
            rcases List.mem_cons.mp hpart with rfl | hpart
            · exact Or.inr ⟨_, List.mem_cons_self, List.mem_cons_of_mem _ hin⟩
            · exact Or.inr ⟨part, List.mem_cons_of_mem _ hpart, hin⟩

/-- A UUID has hexadecimal digits and dashes only. -/
theorem isHexDigit_of_mem_uuid (id : Uuid) {c : Char} (hmem : c ∈ id.value.toList) :
    c = '-' ∨ isHexDigit c = true := by
  have hvalid := id.valid
  simp only [isUuid, Bool.and_eq_true, decide_eq_true_eq, List.all_eq_true] at hvalid
  rcases @mem_splitOn_or Char _ '-' c _ hmem with hdash | ⟨part, hpart, hin⟩
  · exact Or.inl hdash
  · exact Or.inr (hvalid.2 part hpart c hin)

theorem uuid_ne_of_mem
    (id : Uuid)
    {other : List Char} {c : Char}
    (hmem : c ∈ other)
    (hdash : c ≠ '-')
    (hdigit : isHexDigit c = false) :
    id.value.toList ≠ other := by
  intro heq
  rw [← heq] at hmem
  rcases isHexDigit_of_mem_uuid id hmem with hc | hc
  · exact hdash hc
  · rw [hdigit] at hc
    cases hc

theorem plain_uuid (id : Uuid) : Plain id.value.toList where
  noSlash := by
    intro hslash
    exact uuid_ne_of_mem id hslash (by decide) (by decide) rfl
  nonempty := by
    intro hempty
    have hvalid := id.valid
    rw [isUuid, hempty] at hvalid
    cases hvalid
  notCurrent := uuid_ne_of_mem id (List.mem_singleton_self '.') (by decide) (by decide)
  notParent := uuid_ne_of_mem id List.mem_cons_self (by decide) (by decide)

def quarantineSegment : Segment := "_quarantine".toList

theorem plain_quarantineSegment : Plain quarantineSegment where
  noSlash := by decide
  nonempty := by decide
  notCurrent := by decide
  notParent := by decide

theorem uuid_ne_quarantine (id : Uuid) : id.value.toList ≠ quarantineSegment :=
  uuid_ne_of_mem id List.mem_cons_self (by decide) (by decide)

/-! ## Keys of a tenant -/

/-- Something below `<tenant>/` or below `_quarantine/<tenant>/`. -/
def TenantPath (tenant : Segment) (path : List Segment) : Prop :=
  ∃ rest,
    rest ≠ [] ∧ (path = tenant :: rest ∨ path = quarantineSegment :: tenant :: rest)

/-- The key is relative and its normal form lies with the tenant. -/
def BelowTenant (tenantId key : String) : Prop :=
  isAbsolute key.toList = false ∧ TenantPath tenantId.toList (segments key.toList)

/-- The slot lies with the tenant. -/
def Slot.BelowTenant (tenantId : String) : Slot → Prop
  | .key text => Files.BelowTenant tenantId text
  | .path inside => TenantPath tenantId.toList inside

/-- No path lies with two tenants. -/
theorem tenantPath_unique
    {first second : Uuid} {path : List Segment}
    (hfirst : TenantPath first.value.toList path)
    (hsecond : TenantPath second.value.toList path) :
    first.value = second.value := by
  have hplainFirst := uuid_ne_quarantine first
  have hplainSecond := uuid_ne_quarantine second
  obtain ⟨rest, -, hfirst⟩ := hfirst
  obtain ⟨rest', -, hsecond⟩ := hsecond
  apply String.toList_injective
  rcases hfirst with rfl | rfl
  · rcases hsecond with hsecond | hsecond
    · injection hsecond
    · injection hsecond with hhead _
      exact absurd hhead hplainFirst
  · rcases hsecond with hsecond | hsecond
    · injection hsecond with hhead _
      exact absurd hhead.symm hplainSecond
    · injection hsecond with _ htail
      injection htail

theorem slot_belowTenant_unique
    {first second : Uuid} {slot : Slot}
    (hfirst : slot.BelowTenant first.value)
    (hsecond : slot.BelowTenant second.value) :
    first.value = second.value := by
  cases slot with
  | key key =>
      exact tenantPath_unique hfirst.2 hsecond.2
  | path path =>
      exact tenantPath_unique hfirst hsecond

/-- An adapter takes a key of a tenant to a slot of the tenant. -/
theorem slotOf_belowTenant
    {driver : Driver} {tenantId key : String} {slot : Slot}
    (hbelow : BelowTenant tenantId key)
    (hslot : slotOf driver key = .ok slot) :
    slot.BelowTenant tenantId := by
  have hopaque : (Except.ok (Slot.key key) : Except StorageError Slot) = .ok slot →
      slot.BelowTenant tenantId := by
    intro heq
    cases heq
    exact hbelow
  cases driver with
  | localFs =>
      simp only [slotOf, resolveSafe] at hslot
      split at hslot
      · cases hslot
      · split at hslot
        · cases hslot
        · cases hslot
          exact hbelow.2
  | memory => exact hopaque hslot
  | s3 => exact hopaque hslot
  | rustfs => exact hopaque hslot
  | postgres => exact hopaque hslot

/-! ## The storage path -/

theorem slash_not_mem_sanitiseFilename
    {input name : String}
    (hname : sanitiseFilename unicode input = .ok name) :
    '/' ∉ name.toList := by
  have hslash : keeps unicode '/' = false := by
    have hletter : unicode.letterOrNumber '/' = false := unicode.ascii '/' (by decide)
    simp [keeps, hletter]
  simp only [sanitiseFilename] at hname
  split at hname
  · cases hname
  · split at hname
    · cases hname
    · cases hname
      rw [String.toList_ofList]
      intro hmem
      obtain ⟨c, -, hc⟩ := List.mem_map.mp hmem
      split at hc
      · next hkeeps =>
        rw [hc, hslash] at hkeeps
        cases hkeeps
      · cases hc

/-- The last segment of a storage path. -/
theorem plain_fileSegment (fileId : Uuid) {name : List Char} (hname : '/' ∉ name) :
    Plain (fileId.value.toList ++ '-' :: name) where
  noSlash := by
    intro hmem
    rcases List.mem_append.mp hmem with hid | hrest
    · exact (plain_uuid fileId).noSlash hid
    · rcases List.mem_cons.mp hrest with hdash | hrest
      · cases hdash
      · exact hname hrest
  nonempty := by
    simp
  notCurrent := by
    intro heq
    have hdash : '-' ∈ (['.'] : List Char) := heq ▸ by simp
    cases List.mem_singleton.mp hdash
  notParent := by
    intro heq
    have hdash : '-' ∈ parent := heq ▸ by simp
    revert hdash
    decide

/-- A successful storage path, segment by segment. -/
theorem resolveStoragePath_eq_ok
    {tenantId key filename : String} {folderId : Option String} {fileId : Uuid}
    (hkey : resolveStoragePath unicode tenantId folderId fileId.value filename = .ok key) :
    ∃ name,
      Plain name ∧
        key.toList =
          tenantId.toList ++ '/' :: ((folderId.getD ROOT_SEGMENT).toList ++ '/' :: name) := by
  simp only [resolveStoragePath] at hkey
  split at hkey
  · cases hkey
  · split at hkey
    · cases hkey
    · split at hkey
      · cases hkey
      · split at hkey
        · cases hkey
        · next clean hclean =>
          cases hkey
          refine
            ⟨fileId.value.toList ++ '-' :: clean.toList,
              plain_fileSegment fileId (slash_not_mem_sanitiseFilename hclean), ?_⟩
          simp [String.toList_append]

/-- The folder, followed from inside the directory of the tenant, does not lead out of it. -/
def FolderStays (tenantId : String) : Option String → Prop
  | none => True
  | some folderId =>
      (segments (tenantId.toList ++ '/' :: folderId.toList)).head? = some tenantId.toList

theorem folderStays_getD
    {tenant : Uuid} {folderId : Option String}
    (hstays : FolderStays tenant.value folderId) :
    (segments (tenant.value.toList ++ '/' :: (folderId.getD ROOT_SEGMENT).toList)).head? =
      some tenant.value.toList := by
  cases folderId with
  | some folderId =>
      exact hstays
  | none =>
      have hroot : Plain ROOT_SEGMENT.toList :=
        { noSlash := by decide
          nonempty := by decide
          notCurrent := by decide
          notParent := by decide }
      have hplain := plain_uuid tenant
      rw [Option.getD_none, segments, isAbsolute_plain_append hplain, walk_append_slash,
        walk_plain false hplain, walk_plain false hroot]
      rfl

/-- A storage path with a folder that stays lies below the tenant, in quarantine too. -/
theorem belowTenant_of_resolveStoragePath
    {tenant fileId : Uuid} {key filename : String} {folderId : Option String}
    (hkey : resolveStoragePath unicode tenant.value folderId fileId.value filename = .ok key)
    (hstays : FolderStays tenant.value folderId) :
    BelowTenant tenant.value key ∧ BelowTenant tenant.value ("_quarantine/" ++ key) := by
  have hplain := plain_uuid tenant
  obtain ⟨name, hname, htext⟩ := resolveStoragePath_eq_ok hkey
  obtain ⟨inner, hwalk, hparent⟩ := walk_below hplain (folderStays_getD hstays)
  have hrest : inner.reverse ++ [name] ≠ [] := by
    simp
  refine ⟨⟨?_, inner.reverse ++ [name], hrest, Or.inl ?_⟩,
    ⟨?_, inner.reverse ++ [name], hrest, Or.inr ?_⟩⟩
  · rw [htext]
    exact isAbsolute_plain_append hplain _
  · rw [segments, htext, isAbsolute_plain_append hplain, walk_append_slash,
      walk_plain false hplain, walk_append_slash, hwalk, walk_plain false hname]
    simp
  · rw [String.toList_append]
    exact isAbsolute_plain_append plain_quarantineSegment ('/' :: key.toList)
  · -- Below `_quarantine/` the folder goes the same way as before.
    have hquarantine :
        ("_quarantine/" ++ key).toList = quarantineSegment ++ '/' :: key.toList := by
      rw [String.toList_append]
      rfl
    have hbelow :
        walk false (tenant.value.toList :: [quarantineSegment])
            (folderId.getD ROOT_SEGMENT).toList =
          inner ++ [tenant.value.toList] ++ [quarantineSegment] := by
      rw [← hwalk] at hparent ⊢
      exact foldl_enter_append hparent
    rw [segments, hquarantine, isAbsolute_plain_append plain_quarantineSegment,
      walk_append_slash, walk_plain false plain_quarantineSegment, htext, walk_append_slash,
      walk_plain false hplain, walk_append_slash, hbelow, walk_plain false hname]
    simp

end StorageKeys

end Files
end NestBase
