import NestBase.Core.FileManagerForest

/-!
# The breadcrumb

`buildFolderBreadcrumb` climbs from the active folder along the parent ids and turns
the trail around.  When no folder lies on a cycle, nothing is promoted in the tree, and
the trail of a node is its path (`breadcrumb_eq_path`).
-/

namespace NestBase
namespace Files
namespace FileManager

open Lib
open Lib.ParentForest

structure BreadcrumbSegment where
  id : Option String
  name : String
deriving DecidableEq

structure BuildBreadcrumbOptions where
  activeId : Option String
  folders : List FolderTreeInput

def rootSegment : BreadcrumbSegment where
  id := none
  name := "Root"

/-- The loop; the trail is built from the active folder up. -/
def climb (folders : List FolderTreeInput) :
    Nat → Option FolderTreeInput → List String → List BreadcrumbSegment →
      Option (List BreadcrumbSegment)
  | 0, _, _, _ => none
  | _ + 1, none, _, tail => some tail
  | fuel + 1, some cursor, visited, tail =>
      if cursor.id ∈ visited then some tail
      else
        let tail := tail ++ [{ id := some cursor.id, name := cursor.name }]
        match cursor.parentId with
        | none => some tail
        | some parentId =>
            climb folders fuel (byId folders parentId) (visited ++ [cursor.id]) tail

def buildFolderBreadcrumb (fuel : Nat) (opts : BuildBreadcrumbOptions) :
    Option (List BreadcrumbSegment) :=
  match opts.activeId with
  | none => some [rootSegment]
  | some activeId =>
      match byId opts.folders activeId with
      | none => some [rootSegment]
      | some active =>
          (climb opts.folders fuel (some active) [] []).map fun tail => rootSegment :: tail.reverse

/-- A segment of a path in the breadcrumb. -/
def FolderTreePathSegment.crumb (segment : FolderTreePathSegment) : BreadcrumbSegment where
  id := some segment.id
  name := segment.name

section Breadcrumb

variable {input : List FolderTreeInput} {forest : List FolderTreeNode}

/-- The trail from a node, above a list of folders that it does not meet. -/
theorem climb_of_position (hdistinct : (ids input).Nodup)
    (h : Walked input (parentOf input) [] 0 [] forest)
    (fuel : Nat) (visited : List String)
    {above : List FolderTreeNode} {n : FolderTreeNode}
    (hn : Position forest above n)
    (hfuel : above.length + 1 < fuel)
    (hvisited : ∀ i ∈ visited, i ∉ (above ++ [n]).map FolderTreeNode.id)
    (tail : List BreadcrumbSegment) :
    climb input fuel (some n.folder) visited tail =
      some (tail ++ ((above ++ [n]).map fun m => m.segment.crumb).reverse) := by
  induction above using List.reverseRecOn generalizing n fuel visited tail with
  | nil =>
      obtain ⟨fuel, rfl⟩ : ∃ more, fuel = more + 2 := ⟨fuel - 2, by simp at hfuel; omega⟩
      have hnew : n.folder.id ∉ visited := fun hmem => hvisited _ hmem (by simp [FolderTreeNode.id])
      obtain ⟨-, -, hpath⟩ := h.position [] n hn
      have hroot : knownParent input n.folder = none := by
        rw [← parentOf_of_mem hdistinct (mem_input_of_position h hn)]
        exact parent_of_stands .root hpath
      rw [climb, if_neg hnew]
      cases hparent : n.folder.parentId with
      | none => rfl
      | some q =>
          -- the parent is unknown, and the loop ends at the next turn
          have hunknown : byId input q = none := by
            rw [knownParent, hparent] at hroot
            simpa using hroot
          dsimp only
          rw [hunknown]
          rfl
  | append_singleton above p ih =>
      obtain ⟨fuel, rfl⟩ : ∃ more, fuel = more + 1 := ⟨fuel - 1, by omega⟩
      have hnew : n.folder.id ∉ visited := fun hmem => hvisited _ hmem (by simp [FolderTreeNode.id])
      have hp := (position_concat.mp hn).1
      obtain ⟨-, -, hpath⟩ := h.position _ n hn
      have hparent : n.folder.parentId = some p.id := by
        have hknown := parent_of_position h hn
        rw [FolderTreeNode.id, parentOf_of_mem hdistinct (mem_input_of_position h hn)] at hknown
        exact (knownParent_eq_some hknown).1
      rw [climb, if_neg hnew, hparent]
      dsimp only
      rw [FolderTreeNode.id, byId_of_mem hdistinct (mem_input_of_position h hp),
        ih fuel (visited ++ [n.folder.id]) hp]
      · simp [FolderTreeNode.segment, FolderTreePathSegment.crumb]
      · rw [List.length_append, List.length_singleton] at hfuel
        omega
      · intro i hi
        rcases List.mem_append.mp hi with hi | hi
        · intro hmem
          refine hvisited i hi ?_
          rw [List.map_append]
          exact List.mem_append_left _ hmem
        · rw [List.mem_singleton.mp hi]
          exact not_mem_rootPath hpath

/-- A chain and its folder are different folders of the list. -/
theorem length_lt_of_position (h : Walked input (parentOf input) [] 0 [] forest)
    {above : List FolderTreeNode} {n : FolderTreeNode} (hn : Position forest above n) :
    above.length < input.length := by
  obtain ⟨-, -, hpath⟩ := h.position above n hn
  rw [List.nil_append] at hpath
  have hnodup : (above.map FolderTreeNode.id ++ [n.id]).Nodup := by
    rw [← List.concat_eq_append]
    exact (nodup_rootPath hpath).concat (not_mem_rootPath hpath)
  have hsubset : above.map FolderTreeNode.id ++ [n.id] ⊆ ids input := by
    intro i hi
    rcases List.mem_append.mp hi with hi | hi
    · obtain ⟨j, hj⟩ := exists_child_of_mem hpath hi
      exact mem_ids_of_parentOf hj
    · rw [List.mem_singleton.mp hi]
      exact List.mem_map_of_mem (mem_input_of_position h hn)
  have hlength := (List.subperm_of_subset hnodup hsubset).length_le
  simp only [List.length_append, List.length_map, List.length_singleton, ids] at hlength
  omega

/-- Without cycles nothing is promoted. -/
theorem promoted_of_acyclic (hacyclic : ∀ i, ¬OnCycle (parentOf input) i)
    {orphans : List String} (hloose : LooseIds input orphans) :
    promoted (parentOf input) orphans = [] := by
  rw [List.eq_nil_iff_forall_not_mem]
  intro i hi
  have horphan := (hloose.mem_promoted_iff.mp hi).1
  rcases attached_or_cycle hloose.finite hloose.closed i with hattached | ⟨c, -, hcycle⟩
  · exact ((hloose.mem_iff i).mp horphan).2 hattached
  · exact hacyclic c hcycle

/-- The breadcrumb of a node of the tree is the root segment and the path of the node. -/
theorem breadcrumb_eq_path (compare : String → String → Ordering)
    (input : List FolderTreeInput) (hdistinct : (ids input).Nodup)
    (hacyclic : ∀ i, ¬OnCycle (parentOf input) i)
    (fuel : Nat) (hfuel : input.length < fuel) :
    ∃ forest, buildFolderTree compare fuel input = some forest ∧
      ∀ n ∈ flattenAll forest,
        buildFolderBreadcrumb fuel { activeId := some n.id, folders := input } =
          some (rootSegment :: n.path.map FolderTreePathSegment.crumb) := by
  obtain ⟨orphans, forest, hloose, hbuild, hwalked⟩ :=
    buildFolderTree_spec compare hdistinct hfuel
  rw [promoted_of_acyclic hacyclic hloose, cut_nil] at hwalked
  refine ⟨forest, hbuild, fun n hn => ?_⟩
  obtain ⟨above, habove⟩ := mem_flattenAll_iff_position.mp hn
  obtain ⟨-, hpath, -⟩ := hwalked.position above n habove
  have hlength := length_lt_of_position hwalked habove
  have hclimb :=
    climb_of_position hdistinct hwalked fuel [] habove (by omega) (by simp) []
  rw [buildFolderBreadcrumb]
  dsimp only
  rw [FolderTreeNode.id, byId_of_mem hdistinct (mem_input_of_position hwalked habove)]
  dsimp only
  rw [hclimb, hpath]
  simp [Function.comp_def]

/-- A folder in another one, and one whose parent is missing. -/
def orphanInput : List FolderTreeInput :=
  [{ id := "a", tenantId := "t", parentId := none, name := "Customers" },
    { id := "b", tenantId := "t", parentId := some "a", name := "Acme" },
    { id := "c", tenantId := "t", parentId := some "gone", name := "Lost" }]

theorem acyclic_orphanInput (i : String) : ¬OnCycle (parentOf orphanInput) i := by
  refine not_onCycle_of_attached ?_
  have ha : parentOf orphanInput "a" = none := by decide
  have hb : parentOf orphanInput "b" = some "a" := by decide
  have hc : parentOf orphanInput "c" = none := by decide
  cases hparent : parentOf orphanInput i with
  | none => exact attached_of_root hparent
  | some q =>
      obtain ⟨folder, hfolder, -⟩ := Option.bind_eq_some_iff.mp hparent
      obtain ⟨hmem, rfl⟩ := mem_of_byId hfolder
      simp only [orphanInput, List.mem_cons, List.not_mem_nil, or_false] at hmem
      rcases hmem with rfl | rfl | rfl
      · exact attached_of_root ha
      · exact (attached_iff_of_parent hb).mpr (attached_of_root ha)
      · exact attached_of_root hc

theorem breadcrumb_orphanInput :
    ∃ forest, buildFolderTree compareNames 4 orphanInput = some forest ∧
      ∀ n ∈ flattenAll forest,
        buildFolderBreadcrumb 4 { activeId := some n.id, folders := orphanInput } =
          some (rootSegment :: n.path.map FolderTreePathSegment.crumb) :=
  breadcrumb_eq_path compareNames orphanInput (by decide) acyclic_orphanInput 4 (by decide)

end Breadcrumb

end FileManager
end Files
end NestBase
