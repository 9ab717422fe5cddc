import NestBase.Lib.ParentForest
import NestBase.Lib.StableSort
import NestBase.Lib.Unicode

/-!
# The folder tree

`buildFolderTree` turns a list of folders into a forest.  Three passes share an
index of the children: the first marks what can be reached from the root, the second
moves one folder after another to the root until everything can be reached, and the
third walks down and builds the nodes.

Here are the passes and what the first two leave behind: an index of the folders by
a parent function that has been cut at the promoted folders, so that every chain of
parents ends (`promoteAll_spec`).
-/

namespace NestBase
namespace Files
namespace FileManager

open Lib
open Lib.ParentForest

structure FolderTreeInput where
  id : String
  tenantId : String
  parentId : Option String
  name : String
deriving DecidableEq

structure FolderTreePathSegment where
  id : String
  name : String
deriving DecidableEq

inductive FolderTreeNode where
  | node (id tenantId : String) (parentId : Option String) (name : String) (depth : Nat)
      (path : List FolderTreePathSegment) (children : List FolderTreeNode)

namespace FolderTreeNode

/-- The folder a node was made of. -/
def folder : FolderTreeNode → FolderTreeInput
  | node id tenantId parentId name _ _ _ =>
      { id := id, tenantId := tenantId, parentId := parentId, name := name }

def id (n : FolderTreeNode) : String :=
  n.folder.id

def depth : FolderTreeNode → Nat
  | node _ _ _ _ depth _ _ => depth

def path : FolderTreeNode → List FolderTreePathSegment
  | node _ _ _ _ _ path _ => path

def children : FolderTreeNode → List FolderTreeNode
  | node _ _ _ _ _ _ children => children

end FolderTreeNode

/-! ## The index of children -/

/-- `byId.get(id)`; a later folder with the id takes the place of an earlier one. -/
def byId (input : List FolderTreeInput) (id : String) : Option FolderTreeInput :=
  input.reverse.find? fun folder => folder.id = id

/-- The parent of a folder when there is a folder with this id. -/
def knownParent (input : List FolderTreeInput) (folder : FolderTreeInput) : Option String :=
  folder.parentId.filter fun parentId => (byId input parentId).isSome

/-- `childrenByParent`; the children of `none` are the roots. -/
abbrev Index : Type := Option String → List FolderTreeInput

/-- `set(parent, [...list, folder])` -/
def Index.push (index : Index) (parent : Option String) (folder : FolderTreeInput) : Index :=
  Function.update index parent (index parent ++ [folder])

def childrenByParent (input : List FolderTreeInput) : Index :=
  input.foldl (fun index folder => index.push (knownParent input folder) folder) fun _ => []

/-! ## Marking -/

/-- The sets that marking adds to. -/
structure Marks where
  visited : List String
  reachable : List String

def Marks.add (marks : Marks) (id : String) : Marks where
  visited := marks.visited.insert id
  reachable := marks.reachable.insert id

def collectReachable (index : Index) : Nat → Option String → Marks → Option Marks
  | 0, _, _ => none
  | fuel + 1, parentId, marks =>
      (index parentId).foldlM
        (fun marks folder =>
          if folder.id ∈ marks.visited then some marks
          else collectReachable index fuel (some folder.id) (marks.add folder.id))
        marks

/-! ## Promotion -/

structure Promotion where
  index : Index
  reachable : List String

/-- The folder leaves the list of its parent and becomes the last root. -/
def detach (input : List FolderTreeInput) (index : Index) (folder : FolderTreeInput) : Index :=
  let oldParent := knownParent input folder
  let index := Function.update index oldParent
    ((index oldParent).filter fun other => decide (other.id ≠ folder.id))
  Index.push index none folder

def promote (input : List FolderTreeInput) (fuel : Nat) (state : Promotion) (id : String) :
    Option Promotion :=
  if id ∈ state.reachable then some state
  else
    match byId input id with
    | none => some state
    | some folder =>
        let index := detach input state.index folder
        (collectReachable index fuel (some id)
            { visited := [id], reachable := state.reachable.insert id }).map fun marks =>
          { index := index, reachable := marks.reachable }

/-- The ids that have not been reached, sorted. -/
def orphanIds (input : List FolderTreeInput) (reachable : List String) : List String :=
  Unicode.sortTexts ((input.map FolderTreeInput.id).filter fun id => decide (id ∉ reachable))

def promoteAll (input : List FolderTreeInput) (fuel : Nat) : Option Promotion :=
  let index := childrenByParent input
  (collectReachable index fuel none { visited := [], reachable := [] }).bind fun marks =>
    let state : Promotion := { index := index, reachable := marks.reachable }
    if marks.reachable.length < input.length then
      (orphanIds input marks.reachable).foldlM (promote input fuel) state
    else some state

/-! ## The walk -/

section Walk

variable (compare : String → String → Ordering)

def walk (index : Index) : Nat → Option String → Nat → List String →
    List FolderTreePathSegment → Option (List FolderTreeNode)
  | 0, _, _, _, _ => none
  | fuel + 1, parentId, depth, visited, parentPath =>
      let sorted := StableSort.sortBy compare FolderTreeInput.name (index parentId)
      (sorted.filter fun folder => decide (folder.id ∉ visited)).mapM fun folder =>
        let path := parentPath ++ [{ id := folder.id, name := folder.name }]
        (walk index fuel (some folder.id) (depth + 1) (visited ++ [folder.id]) path).map
          fun children =>
            .node folder.id folder.tenantId folder.parentId folder.name depth path children

/-- The forest; none when the fuel does not suffice for the recursions. -/
def buildFolderTree (fuel : Nat) (input : List FolderTreeInput) : Option (List FolderTreeNode) :=
  (promoteAll input fuel).bind fun state => walk compare state.index fuel none 0 [] []

end Walk

/-! ## Folders and their parents -/

section Parents

variable {input : List FolderTreeInput}

def ids (input : List FolderTreeInput) : List String :=
  input.map FolderTreeInput.id

/-- The parent of the folder with an id, when it is a folder of the list. -/
def parentOf (input : List FolderTreeInput) (id : String) : Option String :=
  (byId input id).bind (knownParent input)

theorem byId_of_mem (hdistinct : (ids input).Nodup) {folder : FolderTreeInput}
    (hfolder : folder ∈ input) : byId input folder.id = some folder := by
  unfold byId
  cases hfind : input.reverse.find? fun other => decide (other.id = folder.id) with
  | none =>
      have hnone := List.find?_eq_none.mp hfind folder (List.mem_reverse.mpr hfolder)
      exact absurd (decide_eq_true rfl) hnone
  | some other =>
      have hmem := List.mem_reverse.mp (List.mem_of_find?_eq_some hfind)
      have hid : other.id = folder.id := by simpa using List.find?_some hfind
      rw [List.inj_on_of_nodup_map hdistinct hmem hfolder hid]

theorem mem_of_byId {id : String} {folder : FolderTreeInput} (h : byId input id = some folder) :
    folder ∈ input ∧ folder.id = id := by
  unfold byId at h
  exact ⟨List.mem_reverse.mp (List.mem_of_find?_eq_some h), by simpa using List.find?_some h⟩

theorem mem_ids_of_isSome {id : String} (h : (byId input id).isSome = true) : id ∈ ids input := by
  obtain ⟨folder, hfolder⟩ := Option.isSome_iff_exists.mp h
  obtain ⟨hmem, rfl⟩ := mem_of_byId hfolder
  exact List.mem_map_of_mem hmem

variable {q : String}

theorem knownParent_eq_some {folder : FolderTreeInput} (h : knownParent input folder = some q) :
    folder.parentId = some q ∧ q ∈ ids input := by
  rw [knownParent, Option.filter_eq_some_iff] at h
  exact ⟨h.1, mem_ids_of_isSome h.2⟩

theorem parentOf_of_mem (hdistinct : (ids input).Nodup) {folder : FolderTreeInput}
    (hfolder : folder ∈ input) : parentOf input folder.id = knownParent input folder := by
  rw [parentOf, byId_of_mem hdistinct hfolder, Option.bind_some]

theorem mem_ids_of_parentOf {i : String} (h : parentOf input i = some q) : q ∈ ids input := by
  obtain ⟨folder, -, hparent⟩ := Option.bind_eq_some_iff.mp h
  exact (knownParent_eq_some hparent).2

theorem mem_ids_of_cut {detached : List String} {i : String}
    (h : cut (parentOf input) detached i = some q) : q ∈ ids input := by
  unfold cut at h
  split at h
  · cases h
  · exact mem_ids_of_parentOf h

/-- The index has every folder once, under its parent. -/
structure Listing (input : List FolderTreeInput) (parent : String → Option String)
    (index : Index) : Prop where
  nodup : ∀ p, ((index p).map FolderTreeInput.id).Nodup
  mem_iff : ∀ p folder, folder ∈ index p ↔ folder ∈ input ∧ parent folder.id = p

theorem foldl_push (input folders : List FolderTreeInput) (index : Index) (p : Option String) :
    folders.foldl (fun index folder => index.push (knownParent input folder) folder) index p =
      index p ++ folders.filter fun folder => decide (knownParent input folder = p) := by
  induction folders generalizing index with
  | nil => simp
  | cons folder folders ih =>
      rw [List.foldl_cons, ih]
      by_cases hp : knownParent input folder = p
      · subst hp
        simp [Index.push]
      · simp [Index.push, hp, Function.update_of_ne (Ne.symm hp)]

theorem listing_childrenByParent (hdistinct : (ids input).Nodup) :
    Listing input (parentOf input) (childrenByParent input) where
  nodup p := by
    rw [childrenByParent, foldl_push, List.nil_append]
    exact hdistinct.sublist (List.filter_sublist.map _)
  mem_iff p folder := by
    rw [childrenByParent, foldl_push, List.nil_append, List.mem_filter, decide_eq_true_eq]
    constructor
    · rintro ⟨hmem, hparent⟩
      exact ⟨hmem, by rw [parentOf_of_mem hdistinct hmem, hparent]⟩
    · rintro ⟨hmem, hparent⟩
      exact ⟨hmem, by rw [← parentOf_of_mem hdistinct hmem, hparent]⟩

end Parents

/-! ## What marking adds -/

section Marking

variable {index : Index}

/-- Marking below some folders adds these folders and what is below them. -/
structure Adds (index : Index) (folders : List FolderTreeInput) (marks marks' : Marks) :
    Prop where
  nodup : marks'.visited.Nodup
  subset : ∀ i ∈ marks.visited, i ∈ marks'.visited
  reachable_iff : ∀ i,
    i ∈ marks'.reachable ↔ i ∈ marks.reachable ∨ i ∈ marks'.visited ∧ i ∉ marks.visited
  nodup_reachable : marks.reachable.Nodup → marks'.reachable.Nodup
  mem : ∀ folder ∈ folders, folder.id ∈ marks'.visited
  closed : ∀ i ∈ marks'.visited, i ∉ marks.visited →
    ∀ folder ∈ index (some i), folder.id ∈ marks'.visited
  sound : ∀ P : String → Prop, (∀ folder ∈ folders, P folder.id) →
    (∀ i, P i → ∀ folder ∈ index (some i), P folder.id) →
      ∀ i ∈ marks'.visited, i ∉ marks.visited → P i

theorem adds_nil {marks : Marks} (h : marks.visited.Nodup) : Adds index [] marks marks where
  nodup := h
  subset := fun _ hi => hi
  reachable_iff := by simp
  nodup_reachable := fun h => h
  mem := by simp
  closed := fun _ hi hnot => absurd hi hnot
  sound := fun _ _ _ _ hi hnot => absurd hi hnot

variable {folders : List FolderTreeInput}

theorem adds_visited {folder : FolderTreeInput}
    {marks marks' : Marks} (hvisited : folder.id ∈ marks.visited)
    (h : Adds index folders marks marks') :
    Adds index (folder :: folders) marks marks' where
  nodup := h.nodup
  subset := h.subset
  reachable_iff := h.reachable_iff
  nodup_reachable := h.nodup_reachable
  mem := List.forall_mem_cons.mpr ⟨h.subset _ hvisited, h.mem⟩
  closed := h.closed
  sound P hfolders := h.sound P (List.forall_mem_cons.mp hfolders).2

/-- A folder that has not been visited is marked, then what is below it, then the rest. -/
theorem adds_cons {folder : FolderTreeInput}
    {marks between marks' : Marks} (hnew : folder.id ∉ marks.visited)
    (hbelow : Adds index (index (some folder.id)) (marks.add folder.id) between)
    (hrest : Adds index folders between marks') :
    Adds index (folder :: folders) marks marks' := by
  have hself : folder.id ∈ between.visited := hbelow.subset _ (List.mem_insert_self)
  have hsub : ∀ i ∈ marks.visited, i ∈ between.visited :=
    fun i hi => hbelow.subset i (List.mem_insert_of_mem hi)
  have hvisited : ∀ i, i ∈ (marks.add folder.id).visited ↔ i = folder.id ∨ i ∈ marks.visited :=
    fun i => List.mem_insert_iff
  have hreachable : ∀ i,
      i ∈ (marks.add folder.id).reachable ↔ i = folder.id ∨ i ∈ marks.reachable :=
    fun i => List.mem_insert_iff
  refine
    { nodup := hrest.nodup
      subset := fun i hi => hrest.subset i (hsub i hi)
      reachable_iff := fun i => ?_
      nodup_reachable := fun h => hrest.nodup_reachable (hbelow.nodup_reachable (h.insert))
      mem := List.forall_mem_cons.mpr ⟨hrest.subset _ hself, hrest.mem⟩
      closed := fun i hi hnot g hg => ?_
      sound := fun P hfolders hstep i hi hnot => ?_ }
  · rw [hrest.reachable_iff, hbelow.reachable_iff, hreachable, hvisited]
    have hmono := hrest.subset i
    by_cases hi : i = folder.id
    · subst hi
      simp [hmono hself, hnew]
    · have hmono' := hsub i
      simp only [hi, false_or]
      tauto
  · by_cases hin : i ∈ between.visited
    · refine hrest.subset _ ?_
      by_cases hi : i = folder.id
      · subst hi
        exact hbelow.mem g hg
      · exact hbelow.closed i hin (by simp [hvisited, hi, hnot]) g hg
    · exact hrest.closed i hi hin g hg
  · obtain ⟨hfolder, hothers⟩ := List.forall_mem_cons.mp hfolders
    by_cases hin : i ∈ between.visited
    · by_cases hi' : i = folder.id
      · rwa [hi']
      · exact hbelow.sound P (hstep _ hfolder) hstep i hin (by simp [hvisited, hi', hnot])
    · exact hrest.sound P hothers hstep i hi hin

theorem length_le_of_adds {marks marks' : Marks}
    (hnodup : marks.visited.Nodup) (h : Adds index folders marks marks') :
    marks.visited.length ≤ marks'.visited.length :=
  (List.subperm_of_subset hnodup h.subset).length_le

/-- Marking ends when the fuel covers what has not been visited. -/
theorem collectReachable_spec
    {input : List FolderTreeInput}
    (hindex : ∀ p, ∀ folder ∈ index p, folder ∈ input)
    (fuel : Nat) (parentId : Option String) (marks : Marks)
    (hnodup : marks.visited.Nodup)
    (hsubset : ∀ i ∈ marks.visited, i ∈ ids input)
    (hfuel : input.length < fuel + marks.visited.length) :
    ∃ marks', collectReachable index fuel parentId marks = some marks' ∧
      Adds index (index parentId) marks marks' ∧ ∀ i ∈ marks'.visited, i ∈ ids input := by
  induction fuel generalizing parentId marks with
  | zero =>
      have hlength := (List.subperm_of_subset hnodup hsubset).length_le
      rw [ids, List.length_map] at hlength
      omega
  | succ fuel ih =>
      rw [collectReachable]
      have hfolders := hindex parentId
      generalize index parentId = folders at hfolders
      induction folders generalizing marks with
      | nil => exact ⟨marks, rfl, adds_nil hnodup, hsubset⟩
      | cons folder folders ihFolders =>
          obtain ⟨hfolder, hothers⟩ := List.forall_mem_cons.mp hfolders
          rw [List.foldlM_cons]
          by_cases hvisited : folder.id ∈ marks.visited
          · obtain ⟨marks', hrun, hadds, hsub⟩ := ihFolders marks hnodup hsubset hfuel hothers
            rw [if_pos hvisited]
            exact ⟨marks', hrun, adds_visited hvisited hadds, hsub⟩
          · have hadd : (marks.add folder.id).visited = folder.id :: marks.visited :=
              List.insert_of_not_mem hvisited
            have hnodup' : (marks.add folder.id).visited.Nodup := by
              rw [hadd]
              exact List.nodup_cons.mpr ⟨hvisited, hnodup⟩
            obtain ⟨between, hcollect, hbelow, hsub⟩ :=
              ih (some folder.id) (marks.add folder.id) hnodup'
                (by
                  rw [hadd]
                  exact List.forall_mem_cons.mpr ⟨List.mem_map_of_mem hfolder, hsubset⟩)
                (by rw [hadd, List.length_cons]; omega)
            have hlength := length_le_of_adds hnodup' hbelow
            rw [hadd, List.length_cons] at hlength
            obtain ⟨marks', hrun, hrest, hsub'⟩ :=
              ihFolders between hbelow.nodup hsub (by omega) hothers
            rw [if_neg hvisited, hcollect]
            exact ⟨marks', hrun, adds_cons hvisited hbelow hrest, hsub'⟩

/-- With the children of what has been reached, all that is attached has been reached. -/
theorem reachable_iff_attached
    {input : List FolderTreeInput} {parent : String → Option String} {reachable : List String}
    (hlisting : Listing input parent index)
    (hparent : ∀ i q, parent i = some q → q ∈ ids input)
    (hroots : ∀ folder ∈ index none, folder.id ∈ reachable)
    (hclosed : ∀ i ∈ reachable, ∀ folder ∈ index (some i), folder.id ∈ reachable)
    (hsound : ∀ i ∈ reachable, i ∈ ids input ∧ Attached parent i)
    (i : String) :
    i ∈ reachable ↔ i ∈ ids input ∧ Attached parent i := by
  refine ⟨hsound i, fun ⟨hmem, hattached⟩ => ?_⟩
  revert hmem
  refine attached_induction (P := fun i => i ∈ ids input → i ∈ reachable) ?_ ?_ hattached
  · intro i hnone hmem
    obtain ⟨folder, hfolder, rfl⟩ := List.mem_map.mp hmem
    exact hroots folder ((hlisting.mem_iff none folder).mpr ⟨hfolder, hnone⟩)
  · intro i q hsome hq hmem
    obtain ⟨folder, hfolder, rfl⟩ := List.mem_map.mp hmem
    exact hclosed q (hq (hparent _ _ hsome)) folder
      ((hlisting.mem_iff (some q) folder).mpr ⟨hfolder, hsome⟩)

end Marking

/-! ## What promotion leaves behind -/

section Promoting

variable {input : List FolderTreeInput}

/-- The state after some folders have been cut off from their parents. -/
structure Promoted (input : List FolderTreeInput) (detached : List String) (state : Promotion) :
    Prop where
  listing : Listing input (cut (parentOf input) detached) state.index
  reachable_iff : ∀ i,
    i ∈ state.reachable ↔ i ∈ ids input ∧ Attached (cut (parentOf input) detached) i

theorem mem_of_listing {parent : String → Option String} {index : Index}
    (h : Listing input parent index) (p : Option String) :
    ∀ folder ∈ index p, folder ∈ input :=
  fun folder hfolder => ((h.mem_iff p folder).mp hfolder).1

/-- The first marking reaches what is attached. -/
theorem promoted_nil (hdistinct : (ids input).Nodup) {fuel : Nat} (hfuel : input.length < fuel) :
    ∃ marks,
      collectReachable (childrenByParent input) fuel none { visited := [], reachable := [] } =
          some marks ∧
        marks.reachable.Nodup ∧
          Promoted input [] { index := childrenByParent input, reachable := marks.reachable } := by
  have hlisting := listing_childrenByParent hdistinct
  obtain ⟨marks, hrun, hadds, hsubset⟩ :=
    collectReachable_spec (mem_of_listing hlisting) fuel none
      { visited := [], reachable := [] } List.nodup_nil (by simp) (by simpa using hfuel)
  have hreach : ∀ i, i ∈ marks.reachable ↔ i ∈ marks.visited := by
    intro i
    rw [hadds.reachable_iff]
    simp
  refine ⟨marks, hrun, hadds.nodup_reachable List.nodup_nil, ?_, ?_⟩
  · rw [cut_nil]
    exact hlisting
  · rw [cut_nil]
    refine reachable_iff_attached hlisting (fun _ _ => mem_ids_of_parentOf) ?_ ?_ ?_
    · exact fun folder hfolder => (hreach _).mpr (hadds.mem folder hfolder)
    · intro i hi folder hfolder
      exact (hreach _).mpr (hadds.closed i ((hreach i).mp hi) (by simp) folder hfolder)
    · intro i hi
      refine ⟨hsubset i ((hreach i).mp hi), ?_⟩
      refine hadds.sound (Attached (parentOf input)) ?_ ?_ i ((hreach i).mp hi) (by simp)
      · intro folder hfolder
        exact attached_of_root ((hlisting.mem_iff none folder).mp hfolder).2
      · intro j hj folder hfolder
        exact (attached_iff_of_parent ((hlisting.mem_iff (some j) folder).mp hfolder).2).mpr hj

/-- Detaching a folder cuts it off from its parent. -/
theorem listing_detach (hdistinct : (ids input).Nodup) {detached : List String} {index : Index}
    (hlisting : Listing input (cut (parentOf input) detached) index)
    {folder : FolderTreeInput} (hfolder : folder ∈ input)
    (hnot : folder.id ∉ detached) {q : String} (hparent : parentOf input folder.id = some q) :
    Listing input (cut (parentOf input) (detached ++ [folder.id])) (detach input index folder) := by
  have hknown : knownParent input folder = some q := by
    rw [← parentOf_of_mem hdistinct hfolder, hparent]
  have hcut : cut (parentOf input) detached folder.id = some q := by
    rw [cut, if_neg hnot, hparent]
  have hroots : detach input index folder none = index none ++ [folder] := by
    simp [detach, hknown, Index.push]
  have hold : detach input index folder (some q) =
      (index (some q)).filter fun other => decide (other.id ≠ folder.id) := by
    simp [detach, hknown, Index.push]
  have hothers : ∀ p, p ≠ none → p ≠ some q → detach input index folder p = index p := by
    intro p hp hpq
    simp [detach, hknown, Index.push, hp, hpq]
  have hparents : ∀ other : FolderTreeInput,
      cut (parentOf input) (detached ++ [folder.id]) other.id =
        if other.id = folder.id then none else cut (parentOf input) detached other.id := by
    intro other
    by_cases hid : other.id = folder.id
    · simp [cut, hid]
    · simp [cut, hid]
  have hself : ∀ other ∈ input, other.id = folder.id ↔ other = folder := by
    intro other hother
    exact ⟨List.inj_on_of_nodup_map hdistinct hother hfolder, fun h => by rw [h]⟩
  constructor
  · intro p
    by_cases hp : p = none
    · subst hp
      rw [hroots, List.map_append, List.map_singleton, ← List.concat_eq_append]
      refine (hlisting.nodup none).concat fun hmem => ?_
      obtain ⟨other, hother, hid⟩ := List.mem_map.mp hmem
      have hnone := ((hlisting.mem_iff none other).mp hother).2
      rw [hid, hcut] at hnone
      cases hnone
    · by_cases hpq : p = some q
      · subst hpq
        rw [hold]
        exact (hlisting.nodup (some q)).sublist (List.filter_sublist.map _)
      · rw [hothers p hp hpq]
        exact hlisting.nodup p
  · intro p other
    rw [hparents]
    by_cases hp : p = none
    · subst hp
      rw [hroots, List.mem_append, List.mem_singleton, hlisting.mem_iff]
      constructor
      · rintro (⟨hother, hnone⟩ | rfl)
        · exact ⟨hother, by rw [hnone, ite_self]⟩
        · exact ⟨hfolder, if_pos rfl⟩
      · rintro ⟨hother, hnone⟩
        by_cases hid : other.id = folder.id
        · exact .inr ((hself other hother).mp hid)
        · rw [if_neg hid] at hnone
          exact .inl ⟨hother, hnone⟩
    · have hmem : other ∈ detach input index folder p ↔
          other ∈ index p ∧ other.id ≠ folder.id := by
        by_cases hpq : p = some q
        · subst hpq
          rw [hold, List.mem_filter, decide_eq_true_eq]
        · rw [hothers p hp hpq]
          refine ⟨fun hother => ⟨hother, fun hid => hpq ?_⟩, And.left⟩
          rw [← ((hlisting.mem_iff p other).mp hother).2, hid, hcut]
      rw [hmem, hlisting.mem_iff]
      constructor
      · rintro ⟨⟨hother, hparent⟩, hid⟩
        exact ⟨hother, by rw [if_neg hid, hparent]⟩
      · rintro ⟨hother, hparent⟩
        split at hparent
        · exact absurd hparent.symm hp
        · next hid => exact ⟨⟨hother, hparent⟩, hid⟩

/-- A folder that has been reached stays where it is. -/
theorem promote_of_attached {fuel : Nat} {detached : List String} {state : Promotion}
    (h : Promoted input detached state) {id : String} (hid : id ∈ ids input)
    (hattached : Attached (cut (parentOf input) detached) id) :
    promote input fuel state id = some state :=
  if_pos ((h.reachable_iff id).mpr ⟨hid, hattached⟩)

/-- A folder that has not been reached is cut off, and what is below it is reached. -/
theorem promote_of_not_attached (hdistinct : (ids input).Nodup) {fuel : Nat}
    (hfuel : input.length < fuel) {detached : List String} {state : Promotion}
    (h : Promoted input detached state) {id : String} (hid : id ∈ ids input)
    (hloose : ¬Attached (cut (parentOf input) detached) id) :
    ∃ state', promote input fuel state id = some state' ∧
      Promoted input (detached ++ [id]) state' := by
  obtain ⟨folder, hfolder, rfl⟩ := List.mem_map.mp hid
  have hnot : folder.id ∉ detached := fun hmem => hloose (attached_cut_of_mem hmem)
  obtain ⟨q, hq⟩ : ∃ q, parentOf input folder.id = some q := by
    cases hparent : parentOf input folder.id with
    | none => exact absurd (attached_of_root (by rw [cut, if_neg hnot, hparent])) hloose
    | some q => exact ⟨q, rfl⟩
  have hlisting := listing_detach hdistinct h.listing hfolder hnot hq
  set index := detach input state.index folder with hindex
  obtain ⟨marks, hrun, hadds, hsubset⟩ :=
    collectReachable_spec (mem_of_listing hlisting) fuel (some folder.id)
      { visited := [folder.id], reachable := state.reachable.insert folder.id }
      (List.nodup_singleton _) (by simpa using hid) (by simp; omega)
  have hunreached : folder.id ∉ state.reachable :=
    fun hmem => hloose ((h.reachable_iff _).mp hmem).2
  refine ⟨{ index := index, reachable := marks.reachable }, ?_, hlisting, ?_⟩
  · rw [promote, if_neg hunreached, byId_of_mem hdistinct hfolder]
    dsimp only
    rw [← hindex, hrun]
    rfl
  · have hself : folder.id ∈ marks.visited := hadds.subset _ (List.mem_singleton_self _)
    have hreach : ∀ i,
        i ∈ marks.reachable ↔ i ∈ state.reachable ∨ i ∈ marks.visited := by
      intro i
      rw [hadds.reachable_iff, List.mem_insert_iff, List.mem_singleton]
      by_cases hi : i = folder.id
      · subst hi
        simp [hself]
      · simp [hi]
    -- the folders below a reached folder have been reached: before, or by this marking
    have hstep : ∀ i, Attached (cut (parentOf input) (detached ++ [folder.id])) i →
        ∀ other ∈ index (some i),
          Attached (cut (parentOf input) (detached ++ [folder.id])) other.id :=
      fun i hi other hother =>
        (attached_iff_of_parent ((hlisting.mem_iff (some i) other).mp hother).2).mpr hi
    refine reachable_iff_attached hlisting (fun _ _ => mem_ids_of_cut) ?_ ?_ ?_
    · intro other hother
      obtain ⟨hmem, hnone⟩ := (hlisting.mem_iff none other).mp hother
      rw [hreach]
      by_cases hother' : other.id = folder.id
      · exact .inr (by rwa [hother'])
      · refine .inl ((h.reachable_iff _).mpr ⟨List.mem_map_of_mem hmem, attached_of_root ?_⟩)
        simpa [cut, hother'] using hnone
    · intro i hi other hother
      obtain ⟨hmem, hsome⟩ := (hlisting.mem_iff (some i) other).mp hother
      rw [hreach] at hi ⊢
      rcases hi with hi | hi
      · refine .inl ((h.reachable_iff _).mpr ⟨List.mem_map_of_mem hmem, ?_⟩)
        refine (attached_iff_of_parent (q := i) ?_).mpr ((h.reachable_iff i).mp hi).2
        by_cases hdet : other.id ∈ detached ++ [folder.id]
        · rw [cut, if_pos hdet] at hsome
          cases hsome
        · rw [cut, if_neg hdet] at hsome
          rw [cut, if_neg fun hmem => hdet (List.mem_append_left _ hmem), hsome]
      · by_cases hi' : i = folder.id
        · subst hi'
          exact .inr (hadds.mem other hother)
        · exact .inr (hadds.closed i hi (by simpa using hi') other hother)
    · intro i hi
      rcases (hreach i).mp hi with hi | hi
      · obtain ⟨hmem, hattached⟩ := (h.reachable_iff i).mp hi
        exact ⟨hmem, attached_cut_append _ hattached⟩
      · refine ⟨hsubset i hi, ?_⟩
        have hfolderAttached : Attached (cut (parentOf input) (detached ++ [folder.id])) folder.id :=
          attached_cut_of_mem (List.mem_append_right _ (List.mem_singleton_self _))
        by_cases hi' : i = folder.id
        · rwa [hi']
        · exact hadds.sound _ (hstep _ hfolderAttached) hstep i hi (by simpa using hi')

/-- The folders that no chain from the root reaches, in the order of their ids. -/
abbrev LooseIds (input : List FolderTreeInput) (orphans : List String) : Prop :=
  Loose (parentOf input) Unicode.codeUnits {id | id ∈ ids input} orphans

theorem loose_orphanIds (hdistinct : (ids input).Nodup) {reachable : List String}
    (hreachable : ∀ i, i ∈ reachable ↔ i ∈ ids input ∧ Attached (parentOf input) i) :
    LooseIds input (orphanIds input reachable) where
  finite := List.finite_toSet (ids input)
  closed _ _ := mem_ids_of_parentOf
  sorted := Unicode.pairwise_lt_sortTexts (hdistinct.filter _)
  mem_iff i := by
    rw [orphanIds, (Unicode.sortTexts_perm _).mem_iff, List.mem_filter, decide_eq_true_eq,
      hreachable]
    change i ∈ ids input ∧ _ ↔ i ∈ ids input ∧ _
    tauto

theorem promote_run (hdistinct : (ids input).Nodup) {fuel : Nat} (hfuel : input.length < fuel)
    (before : List String) {orphans : List String} {state : Promotion}
    (h : Promoted input (promoted (parentOf input) before) state)
    (hids : ∀ i ∈ orphans, i ∈ ids input) :
    ∃ state', orphans.foldlM (promote input fuel) state = some state' ∧
      Promoted input (promoted (parentOf input) (before ++ orphans)) state' := by
  induction orphans generalizing before state with
  | nil => exact ⟨state, rfl, by rwa [List.append_nil]⟩
  | cons id orphans ih =>
      obtain ⟨hid, hrest⟩ := List.forall_mem_cons.mp hids
      have hnext : ∃ next, promote input fuel state id = some next ∧
          Promoted input (promoted (parentOf input) (before ++ [id])) next := by
        by_cases hattached : Attached (cut (parentOf input) (promoted (parentOf input) before)) id
        · rw [promoted_append_of_attached hattached]
          exact ⟨state, promote_of_attached h hid hattached, h⟩
        · rw [promoted_append_of_not_attached hattached]
          exact promote_of_not_attached hdistinct hfuel h hid hattached
      obtain ⟨next, hpromote, hnext⟩ := hnext
      obtain ⟨state', hrun, hstate'⟩ := ih _ hnext hrest
      refine ⟨state', ?_, by rwa [List.append_cons]⟩
      rw [List.foldlM_cons, hpromote]
      exact hrun

/-- The promotion ends, with the folders cut off that the scan of the loose folders cuts off. -/
theorem promoteAll_spec (hdistinct : (ids input).Nodup) {fuel : Nat} (hfuel : input.length < fuel) :
    ∃ orphans state, LooseIds input orphans ∧ promoteAll input fuel = some state ∧
      Promoted input (promoted (parentOf input) orphans) state := by
  obtain ⟨marks, hrun, hnodup, hfirst⟩ := promoted_nil hdistinct hfuel
  have hreachable : ∀ i,
      i ∈ marks.reachable ↔ i ∈ ids input ∧ Attached (parentOf input) i := by
    intro i
    rw [hfirst.reachable_iff, cut_nil]
  have hloose := loose_orphanIds hdistinct hreachable
  refine ⟨orphanIds input marks.reachable, ?_⟩
  unfold promoteAll
  simp only [hrun, Option.bind_some]
  split
  · have hids : ∀ i ∈ orphanIds input marks.reachable, i ∈ ids input :=
      fun i hi => ((hloose.mem_iff i).mp hi).1
    obtain ⟨state, hpromote, hstate⟩ := promote_run hdistinct hfuel [] hfirst hids
    exact ⟨state, hloose, hpromote, hstate⟩
  · next hall =>
      -- as many ids have been reached as there are
      have hsubset : marks.reachable ⊆ ids input := fun i hi => ((hreachable i).mp hi).1
      have hperm : marks.reachable.Perm (ids input) := by
        refine (List.subperm_of_subset hnodup hsubset).perm_of_length_le ?_
        rw [ids, List.length_map]
        omega
      have hnone : orphanIds input marks.reachable = [] := by
        rw [List.eq_nil_iff_forall_not_mem]
        intro i hi
        obtain ⟨hmem, hatt⟩ := (hloose.mem_iff i).mp hi
        exact hatt ((hreachable i).mp (hperm.mem_iff.mpr hmem)).2
      rw [hnone] at hloose ⊢
      exact ⟨_, hloose, rfl, hfirst⟩

end Promoting

end FileManager
end Files
end NestBase
