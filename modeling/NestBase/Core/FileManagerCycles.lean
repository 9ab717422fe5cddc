import NestBase.Core.FileManagerForest

/-!
# Which folders are placed at the root

A folder whose parent is in the list is placed at the root when it was promoted: when
no chain from the root reaches it and its id is the least among its ancestors.  Of every
cycle this is exactly one folder.  A folder that hangs off a cycle is promoted as well
when its id comes before all its ancestors; `detachesLittle_iff` says so.
-/

namespace NestBase
namespace Files
namespace FileManager

open Lib
open Lib.ParentForest

section Cycles

variable {input : List FolderTreeInput}

/-- Folders with a parent in the list are at the root only when they lie on a cycle, and one
folder of each cycle is. -/
structure DetachesLittle (input : List FolderTreeInput) (forest : List FolderTreeNode) : Prop where
  onlyCycles : ∀ n ∈ forest, ∀ q, n.folder.parentId = some q → q ∈ ids input →
    OnCycle (parentOf input) n.id
  oneOfEach : ∀ i, OnCycle (parentOf input) i →
    ∃! r, (∃ n ∈ forest, n.id = r) ∧
      Ascends (parentOf input) i r ∧ Ascends (parentOf input) r i

/-- Every folder that hangs off a cycle has an ancestor whose id comes before its own. -/
def TailsFollow (input : List FolderTreeInput) : Prop :=
  ∀ i, ¬OnCycle (parentOf input) i →
    (∃ c, Ascends (parentOf input) i c ∧ OnCycle (parentOf input) c) →
      ∃ a, Ascends (parentOf input) i a ∧ Unicode.codeUnits a < Unicode.codeUnits i

theorem knownParent_of_mem {folder : FolderTreeInput} {q : String}
    (hparent : folder.parentId = some q) (hq : q ∈ ids input) (hdistinct : (ids input).Nodup) :
    knownParent input folder = some q := by
  obtain ⟨other, hother, rfl⟩ := List.mem_map.mp hq
  rw [knownParent, Option.filter_eq_some_iff, byId_of_mem hdistinct hother]
  exact ⟨hparent, rfl⟩

/-- A folder with an ancestor has a parent in the list. -/
theorem exists_parent_of_ascends {i a : String} (h : Ascends (parentOf input) i a) :
    ∃ folder ∈ input, folder.id = i ∧ ∃ q, parentOf input i = some q := by
  have hsome : ∃ q, parentOf input i = some q := by
    cases h using Relation.TransGen.head_induction_on with
    | single hstep => exact ⟨_, hstep⟩
    | head hstep => exact ⟨_, hstep⟩
  obtain ⟨q, hq⟩ := hsome
  obtain ⟨folder, hfolder, -⟩ := Option.bind_eq_some_iff.mp hq
  obtain ⟨hmem, hid⟩ := mem_of_byId hfolder
  exact ⟨folder, hmem, hid, q, hq⟩

/-- A folder with a parent in the list is at the root exactly when it was promoted. -/
theorem mem_roots_iff_promoted {orphans : List String} {forest : List FolderTreeNode}
    (h : Walked input (cut (parentOf input) (promoted (parentOf input) orphans)) [] 0 [] forest)
    {i q : String} (hi : i ∈ ids input) (hq : parentOf input i = some q) :
    (∃ n ∈ forest, n.id = i) ↔ i ∈ promoted (parentOf input) orphans := by
  rw [mem_roots_iff h, cut]
  by_cases hmem : i ∈ promoted (parentOf input) orphans
  · simp [hmem, hi]
  · simp [hmem, hq]

theorem onlyCycles_iff (hdistinct : (ids input).Nodup) {orphans : List String}
    (hloose : LooseIds input orphans) {forest : List FolderTreeNode}
    (h : Walked input (cut (parentOf input) (promoted (parentOf input) orphans)) [] 0 [] forest) :
    (∀ n ∈ forest, ∀ q, n.folder.parentId = some q → q ∈ ids input →
      OnCycle (parentOf input) n.id) ↔ TailsFollow input := by
  constructor
  · intro honly i hcycle hinto
    obtain ⟨c, hic, hc⟩ := hinto
    obtain ⟨folder, hfolder, rfl, q, hq⟩ := exists_parent_of_ascends hic
    by_contra hnone
    push Not at hnone
    have hunattached : ¬Attached (parentOf input) folder.id := fun hatt =>
      not_onCycle_of_attached ((attached_iff_of_ascends hic).mp hatt) hc
    have hi : folder.id ∈ ids input := List.mem_map_of_mem hfolder
    have hpromoted : folder.id ∈ promoted (parentOf input) orphans :=
      hloose.mem_promoted_iff.mpr ⟨(hloose.mem_iff _).mpr ⟨hi, hunattached⟩, hnone⟩
    obtain ⟨n, hn, hid⟩ := (mem_roots_iff_promoted h hi hq).mpr hpromoted
    have hsame : n.folder = folder :=
      List.inj_on_of_nodup_map hdistinct (mem_input_of_position h (.root hn)) hfolder hid
    rw [parentOf_of_mem hdistinct hfolder, ← hsame] at hq
    obtain ⟨hparent, hqids⟩ := knownParent_eq_some hq
    rw [← hid] at hcycle
    exact hcycle (honly n hn q hparent hqids)
  · intro hfollow n hn q hparent hq
    have hmem := mem_input_of_position h (.root hn)
    have hsome : parentOf input n.id = some q := by
      rw [FolderTreeNode.id, parentOf_of_mem hdistinct hmem,
        knownParent_of_mem hparent hq hdistinct]
    have hpromoted : n.id ∈ promoted (parentOf input) orphans :=
      (mem_roots_iff_promoted h (List.mem_map_of_mem hmem) hsome).mp ⟨n, hn, rfl⟩
    obtain ⟨horphan, hleast⟩ := hloose.mem_promoted_iff.mp hpromoted
    by_contra hcycle
    have hinto := (attached_or_cycle hloose.finite hloose.closed n.id).resolve_left
      ((hloose.mem_iff _).mp horphan).2
    obtain ⟨a, ha, hlt⟩ := hfollow n.id hcycle hinto
    exact absurd hlt (not_lt.mpr (hleast a ha))

/-- One folder of each cycle is placed at the root, whatever the order of the ids. -/
theorem oneOfEach_of_walked {orphans : List String} (hloose : LooseIds input orphans)
    {forest : List FolderTreeNode}
    (h : Walked input (cut (parentOf input) (promoted (parentOf input) orphans)) [] 0 [] forest)
    {i : String} (hcycle : OnCycle (parentOf input) i) :
    ∃! r, (∃ n ∈ forest, n.id = r) ∧
      Ascends (parentOf input) i r ∧ Ascends (parentOf input) r i := by
  have hroot : ∀ r, Ascends (parentOf input) r i →
      ((∃ n ∈ forest, n.id = r) ↔ r ∈ promoted (parentOf input) orphans) := by
    intro r hr
    obtain ⟨folder, hfolder, rfl, q, hq⟩ := exists_parent_of_ascends hr
    exact mem_roots_iff_promoted h (List.mem_map_of_mem hfolder) hq
  obtain ⟨r, ⟨hr, hir, hri⟩, hunique⟩ :=
    hloose.existsUnique_promoted (fun _ _ => Unicode.codeUnits_injective) hcycle
  refine ⟨r, ⟨(hroot r hri).mpr hr, hir, hri⟩, ?_⟩
  rintro r' ⟨hr', hir', hri'⟩
  exact hunique r' ⟨(hroot r' hri').mp hr', hir', hri'⟩

theorem detachesLittle_of_walked (hdistinct : (ids input).Nodup) {orphans : List String}
    (hloose : LooseIds input orphans) {forest : List FolderTreeNode}
    (h : Walked input (cut (parentOf input) (promoted (parentOf input) orphans)) [] 0 [] forest) :
    DetachesLittle input forest ↔ TailsFollow input := by
  rw [← onlyCycles_iff hdistinct hloose h]
  exact ⟨fun hlittle => hlittle.onlyCycles,
    fun honly => ⟨honly, fun _ hcycle => oneOfEach_of_walked hloose h hcycle⟩⟩

theorem not_tailsFollow_tailInput : ¬TailsFollow tailInput := by
  have ha : parentOf tailInput "a" = some "b" := by decide
  have hb : parentOf tailInput "b" = some "c" := by decide
  have hc : parentOf tailInput "c" = some "b" := by decide
  have habove : ∀ {i x}, Ascends (parentOf tailInput) i x →
      i = "a" ∨ i = "b" ∨ i = "c" → x = "b" ∨ x = "c" := by
    intro i x h
    induction h with
    | single hstep =>
        rintro (rfl | rfl | rfl) <;> simp_all
    | tail hrest hstep ih =>
        intro hi
        rcases ih hi with rfl | rfl <;> simp_all
  intro h
  obtain ⟨x, hx, hlt⟩ := h "a"
    (fun hcycle => by simpa using habove hcycle (.inl rfl))
    ⟨"b", .single ha, .tail (.single hb) hc⟩
  rcases habove hx (.inl rfl) with rfl | rfl
  · exact absurd hlt (by decide)
  · exact absurd hlt (by decide)

/-- The folder that hangs off the cycle is placed at the root beside one of the cycle. -/
theorem not_detachesLittle_tailInput :
    ∃ forest, buildFolderTree compareNames 4 tailInput = some forest ∧
      ¬DetachesLittle tailInput forest := by
  have hdistinct : (ids tailInput).Nodup := by decide
  obtain ⟨orphans, forest, hloose, hbuild, hwalked⟩ :=
    buildFolderTree_spec compareNames hdistinct (by decide : tailInput.length < 4)
  exact ⟨forest, hbuild, fun hlittle => not_tailsFollow_tailInput
    ((detachesLittle_of_walked hdistinct hloose hwalked).mp hlittle)⟩

/-- As little as possible is detached exactly when every folder that hangs off a cycle has an
ancestor whose id comes before its own. -/
theorem detachesLittle_iff (compare : String → String → Ordering)
    (input : List FolderTreeInput) (hdistinct : (ids input).Nodup)
    (fuel : Nat) (hfuel : input.length < fuel) :
    ∃ forest, buildFolderTree compare fuel input = some forest ∧
      (DetachesLittle input forest ↔ TailsFollow input) := by
  obtain ⟨orphans, forest, hloose, hbuild, hwalked⟩ :=
    buildFolderTree_spec compare hdistinct hfuel
  exact ⟨forest, hbuild, detachesLittle_of_walked hdistinct hloose hwalked⟩

theorem detachesLittle_tailInput :
    ∃ forest, buildFolderTree compareNames 4 tailInput = some forest ∧
      (DetachesLittle tailInput forest ↔ TailsFollow tailInput) :=
  detachesLittle_iff compareNames tailInput (by decide) 4 (by decide)

end Cycles

end FileManager
end Files
end NestBase
