import NestBase.Core.FileManagerTree

/-!
# Folders in the forest

The walk over an index in which every chain of parents ends gives a forest of the
indexed folders: each of them once, below its ancestors in the order of its chain.
So `buildFolderTree` loses and duplicates nothing, and depth and path of a node say
where it stands (`buildFolderTree_isTreeOf`).

The folders at the root are those without a parent in the list and those that were
promoted (`mem_roots_iff`).
-/

namespace NestBase
namespace Files
namespace FileManager

open Lib
open Lib.ParentForest

/-! ## Nodes and positions -/

mutual

/-- A node and the nodes below it. -/
def FolderTreeNode.flatten : FolderTreeNode → List FolderTreeNode
  | .node id tenantId parentId name depth path children =>
      .node id tenantId parentId name depth path children :: flattenAll children

def flattenAll : List FolderTreeNode → List FolderTreeNode
  | [] => []
  | n :: rest => n.flatten ++ flattenAll rest

end

/-- A node stands below its ancestors, from the root down. -/
inductive Position (forest : List FolderTreeNode) : List FolderTreeNode → FolderTreeNode → Prop
  | root {n : FolderTreeNode} (h : n ∈ forest) : Position forest [] n
  | child {above : List FolderTreeNode} {p n : FolderTreeNode} (hp : Position forest above p)
      (h : n ∈ p.children) : Position forest (above ++ [p]) n

def FolderTreeNode.segment (n : FolderTreeNode) : FolderTreePathSegment where
  id := n.folder.id
  name := n.folder.name

section Positions

theorem flatten_eq (n : FolderTreeNode) : n.flatten = n :: flattenAll n.children := by
  cases n
  rw [FolderTreeNode.flatten, FolderTreeNode.children]

variable {n : FolderTreeNode}
variable {forest above : List FolderTreeNode}

theorem mem_flattenAll_iff :
    n ∈ flattenAll forest ↔ ∃ t ∈ forest, n = t ∨ n ∈ flattenAll t.children := by
  induction forest with
  | nil => simp [flattenAll]
  | cons t forest ih =>
      rw [flattenAll, List.mem_append, ih, flatten_eq, List.mem_cons]
      simp

theorem position_nil :
    Position forest [] n ↔ n ∈ forest := by
  refine ⟨fun h => ?_, .root⟩
  generalize hpath : ([] : List FolderTreeNode) = path at h
  cases h with
  | root hn => exact hn
  | child => simp at hpath

theorem position_concat {p : FolderTreeNode} :
    Position forest (above ++ [p]) n ↔ Position forest above p ∧ n ∈ p.children := by
  refine ⟨fun h => ?_, fun ⟨hp, hn⟩ => .child hp hn⟩
  generalize hpath : above ++ [p] = path at h
  cases h with
  | root hn => simp at hpath
  | child hp hn =>
      obtain ⟨rfl, hlast⟩ := List.append_inj' hpath rfl
      cases hlast
      exact ⟨hp, hn⟩

/-- A position below a root of the forest is one among the children of the root. -/
theorem position_cons {t : FolderTreeNode} :
    Position forest (t :: above) n ↔ t ∈ forest ∧ Position t.children above n := by
  induction above using List.reverseRecOn generalizing n with
  | nil => rw [← List.nil_append [t], position_concat, position_nil, position_nil]
  | append_singleton above p ih =>
      rw [← List.cons_append, position_concat, position_concat, ih, and_assoc]

theorem mem_flattenAll_of_position
    (h : Position forest above n) : n ∈ flattenAll forest := by
  induction above generalizing forest with
  | nil => exact mem_flattenAll_iff.mpr ⟨n, position_nil.mp h, .inl rfl⟩
  | cons t above ih =>
      obtain ⟨ht, hbelow⟩ := position_cons.mp h
      exact mem_flattenAll_iff.mpr ⟨t, ht, .inr (ih hbelow)⟩

mutual

theorem position_of_mem_children :
    ∀ (t : FolderTreeNode) {n : FolderTreeNode}, n ∈ flattenAll t.children →
      ∃ above, Position t.children above n
  | .node _ _ _ _ _ _ children, _, h => position_of_mem_flattenAll children h

theorem position_of_mem_flattenAll :
    ∀ (forest : List FolderTreeNode) {n : FolderTreeNode}, n ∈ flattenAll forest →
      ∃ above, Position forest above n
  | [], _, h => by simp [flattenAll] at h
  | t :: rest, n, h => by
      rw [flattenAll, List.mem_append, flatten_eq, List.mem_cons] at h
      rcases h with (rfl | h) | h
      · exact ⟨[], .root List.mem_cons_self⟩
      · obtain ⟨above, habove⟩ := position_of_mem_children t h
        exact ⟨t :: above, position_cons.mpr ⟨List.mem_cons_self, habove⟩⟩
      · obtain ⟨above, habove⟩ := position_of_mem_flattenAll rest h
        cases above with
        | nil =>
            exact ⟨[], .root (List.mem_cons_of_mem _ (position_nil.mp habove))⟩
        | cons p above =>
            obtain ⟨hp, hbelow⟩ := position_cons.mp habove
            exact ⟨p :: above, position_cons.mpr ⟨List.mem_cons_of_mem _ hp, hbelow⟩⟩

end

/-- The nodes of a forest are those that have a position. -/
theorem mem_flattenAll_iff_position :
    n ∈ flattenAll forest ↔ ∃ above, Position forest above n :=
  ⟨position_of_mem_flattenAll forest, fun ⟨_, h⟩ => mem_flattenAll_of_position h⟩

end Positions

/-! ## The walk -/

section Walking

variable {input : List FolderTreeInput}
variable {parent : String → Option String}

/-- The chain of a parent with the parent itself. -/
inductive Stands (parent : String → Option String) : List String → Option String → Prop
  | root : Stands parent [] none
  | below {above : List String} {q : String} (h : RootPath parent above q) :
      Stands parent (above ++ [q]) (some q)

variable {i : String}
variable {p : Option String}

theorem rootPath_of_stands {above : List String}
    (h : Stands parent above p) (hparent : parent i = p) : RootPath parent above i := by
  cases h with
  | root => exact .root hparent
  | below hq => exact .child hparent hq

theorem parent_of_stands {above : List String}
    (h : Stands parent above p) (hpath : RootPath parent above i) : parent i = p := by
  cases hpath with
  | root hnone =>
      generalize hnil : ([] : List String) = path at h
      cases h with
      | root => exact hnone
      | below => simp at hnil
  | child hsome hq =>
      generalize hlast : _ ++ [_] = path at h
      cases h with
      | root => simp at hlast
      | below h =>
          obtain ⟨-, heq⟩ := List.append_inj' hlast rfl
          cases heq
          exact hsome

/-- What the walk below some ancestors gives: the folders whose chain begins with them,
each once, at positions that their chains name. -/
structure Walked (input : List FolderTreeInput) (parent : String → Option String)
    (above : List String) (depth : Nat) (path : List FolderTreePathSegment)
    (nodes : List FolderTreeNode) : Prop where
  nodup : ((flattenAll nodes).map FolderTreeNode.id).Nodup
  mem_iff : ∀ folder,
    folder ∈ (flattenAll nodes).map FolderTreeNode.folder ↔
      folder ∈ input ∧ ∃ below, RootPath parent (above ++ below) folder.id
  position : ∀ ancestors n, Position nodes ancestors n →
    n.depth = depth + ancestors.length ∧
      n.path = path ++ (ancestors ++ [n]).map FolderTreeNode.segment ∧
        RootPath parent (above ++ ancestors.map FolderTreeNode.id) n.id

/-- The node of a folder, with what is below it. -/
structure NodeOf (input : List FolderTreeInput) (parent : String → Option String)
    (above : List String) (depth : Nat) (path : List FolderTreePathSegment)
    (folder : FolderTreeInput) (n : FolderTreeNode) : Prop where
  folder_eq : n.folder = folder
  depth_eq : n.depth = depth
  path_eq : n.path = path ++ [n.segment]
  children : Walked input parent (above ++ [n.id]) (depth + 1) (path ++ [n.segment]) n.children

theorem mapM_of_forall {α β : Type} {f : α → Option β} {Q : α → β → Prop} {l : List α}
    (h : ∀ a ∈ l, ∃ b, f a = some b ∧ Q a b) :
    ∃ bs, l.mapM f = some bs ∧ List.Forall₂ Q l bs := by
  induction l with
  | nil => exact ⟨[], rfl, .nil⟩
  | cons a l ih =>
      obtain ⟨⟨b, hb, hQ⟩, hrest⟩ := List.forall_mem_cons.mp h
      obtain ⟨bs, hbs, hall⟩ := ih hrest
      refine ⟨b :: bs, ?_, .cons hQ hall⟩
      rw [List.mapM_cons, hb, hbs]
      rfl

variable {above : List String} {depth : Nat} {path : List FolderTreePathSegment}

/-- A chain that begins at a folder: it ends there, or goes on below. -/
def Through (parent : String → Option String) (above : List String) (i x : String) : Prop :=
  x = i ∨ ∃ below, RootPath parent (above ++ i :: below) x

/-- Chains through two folders under one parent are different. -/
theorem eq_of_through {i' x : String}
    (hi : RootPath parent above i) (hi' : RootPath parent above i')
    (h : Through parent above i x) (h' : Through parent above i' x) :
    i = i' := by
  have hlonger : ∀ {j : String} {below : List String}, RootPath parent above x →
      ¬RootPath parent (above ++ j :: below) x := by
    intro j below hshort hlong
    have hlength := congrArg List.length (rootPath_unique hshort hlong)
    simp at hlength
  rcases h with rfl | ⟨below, hbelow⟩
  · rcases h' with rfl | ⟨below', hbelow'⟩
    · rfl
    · exact absurd hbelow' (hlonger hi)
  · rcases h' with rfl | ⟨below', hbelow'⟩
    · exact absurd hbelow (hlonger hi')
    · exact (List.cons.inj (List.append_cancel_left (rootPath_unique hbelow hbelow'))).1

variable {n : FolderTreeNode}

theorem id_of_nodeOf {folder : FolderTreeInput}
    (h : NodeOf input parent above depth path folder n) : n.id = folder.id := by
  rw [FolderTreeNode.id, h.folder_eq]

/-- The folders at and below a node. -/
theorem mem_flatten_nodeOf {folder : FolderTreeInput}
    (h : NodeOf input parent above depth path folder n) (other : FolderTreeInput) :
    other ∈ n.flatten.map FolderTreeNode.folder ↔
      other = folder ∨ other ∈ input ∧
        ∃ below, RootPath parent (above ++ folder.id :: below) other.id := by
  rw [flatten_eq, List.map_cons, List.mem_cons, h.folder_eq, h.children.mem_iff, id_of_nodeOf h]
  simp only [List.append_assoc, List.singleton_append]

variable {folders : List FolderTreeInput}
variable {nodes : List FolderTreeNode}

theorem mem_flattenAll_nodeOf
    (h : List.Forall₂ (NodeOf input parent above depth path) folders nodes)
    (other : FolderTreeInput) :
    other ∈ (flattenAll nodes).map FolderTreeNode.folder ↔
      ∃ folder ∈ folders, other = folder ∨ other ∈ input ∧
        ∃ below, RootPath parent (above ++ folder.id :: below) other.id := by
  induction h with
  | nil => simp [flattenAll]
  | cons hn hrest ih =>
      rw [flattenAll, List.map_append, List.mem_append, mem_flatten_nodeOf hn, ih]
      simp

theorem through_of_mem_flattenAll
    (h : List.Forall₂ (NodeOf input parent above depth path) folders nodes)
    {n : FolderTreeNode} (hn : n ∈ flattenAll nodes) :
    ∃ folder ∈ folders, Through parent above folder.id n.id := by
  obtain ⟨folder, hfolder, hbelow⟩ :=
    (mem_flattenAll_nodeOf h n.folder).mp (List.mem_map_of_mem hn)
  refine ⟨folder, hfolder, ?_⟩
  rcases hbelow with heq | ⟨-, hchain⟩
  · exact .inl (by rw [FolderTreeNode.id, heq])
  · exact .inr hchain

theorem nodup_flatten_nodeOf {folder : FolderTreeInput}
    (h : NodeOf input parent above depth path folder n) :
    (n.flatten.map FolderTreeNode.id).Nodup := by
  rw [flatten_eq, List.map_cons]
  refine List.nodup_cons.mpr ⟨fun hmem => ?_, h.children.nodup⟩
  obtain ⟨m, hm, hid⟩ := List.mem_map.mp hmem
  obtain ⟨-, below, hpath⟩ := (h.children.mem_iff m.folder).mp (List.mem_map_of_mem hm)
  change RootPath parent (above ++ [n.id] ++ below) m.id at hpath
  rw [hid] at hpath
  exact not_mem_rootPath hpath (by simp)

theorem nodup_flattenAll_nodeOf
    (hnodup : (folders.map FolderTreeInput.id).Nodup)
    (hpath : ∀ folder ∈ folders, RootPath parent above folder.id)
    (h : List.Forall₂ (NodeOf input parent above depth path) folders nodes) :
    ((flattenAll nodes).map FolderTreeNode.id).Nodup := by
  induction h with
  | nil => simp [flattenAll]
  | @cons folder n folders nodes hn hrest ih =>
      obtain ⟨hfolder, hothers⟩ := List.forall_mem_cons.mp hpath
      rw [List.map_cons, List.nodup_cons] at hnodup
      rw [flattenAll, List.map_append]
      refine List.nodup_append'.mpr ⟨nodup_flatten_nodeOf hn, ih hnodup.2 hothers, ?_⟩
      rintro x hx hx'
      obtain ⟨m, hm, rfl⟩ := List.mem_map.mp hx
      obtain ⟨m', hm', hid⟩ := List.mem_map.mp hx'
      obtain ⟨other, hother, hthrough'⟩ := through_of_mem_flattenAll hrest hm'
      obtain ⟨first, hfirst, hthrough⟩ :=
        through_of_mem_flattenAll (.cons hn .nil) (n := m) (by simpa [flattenAll] using hm)
      rw [List.mem_singleton.mp hfirst] at hthrough
      rw [hid] at hthrough'
      refine hnodup.1 ?_
      rw [eq_of_through hfolder (hothers other hother) hthrough hthrough']
      exact List.mem_map_of_mem hother

theorem nodeOf_of_mem
    (h : List.Forall₂ (NodeOf input parent above depth path) folders nodes)
    {n : FolderTreeNode} (hn : n ∈ nodes) :
    ∃ folder ∈ folders, NodeOf input parent above depth path folder n := by
  induction h with
  | nil => cases hn
  | cons hnode hrest ih =>
      rcases List.mem_cons.mp hn with rfl | hn
      · exact ⟨_, List.mem_cons_self, hnode⟩
      · obtain ⟨folder, hfolder, hnode'⟩ := ih hn
        exact ⟨folder, List.mem_cons_of_mem _ hfolder, hnode'⟩

/-- The nodes of the folders under a parent, with what is below them. -/
theorem walked_of_forall₂
    (hparent : ∀ i q, parent i = some q → q ∈ ids input)
    (hnodup : (folders.map FolderTreeInput.id).Nodup)
    (hmem : ∀ folder, folder ∈ folders ↔ folder ∈ input ∧ RootPath parent above folder.id)
    (h : List.Forall₂ (NodeOf input parent above depth path) folders nodes) :
    Walked input parent above depth path nodes := by
  refine
    { nodup := nodup_flattenAll_nodeOf hnodup (fun folder hfolder => ((hmem folder).mp hfolder).2) h
      mem_iff := fun other => ?_
      position := fun ancestors n hposition => ?_ }
  · rw [mem_flattenAll_nodeOf h]
    constructor
    · rintro ⟨folder, hfolder, rfl | ⟨hother, below, hbelow⟩⟩
      · obtain ⟨hin, hpath⟩ := (hmem other).mp hfolder
        exact ⟨hin, [], by rwa [List.append_nil]⟩
      · exact ⟨hother, folder.id :: below, hbelow⟩
    · rintro ⟨hother, below, hbelow⟩
      cases below with
      | nil =>
          rw [List.append_nil] at hbelow
          exact ⟨other, (hmem other).mpr ⟨hother, hbelow⟩, .inl rfl⟩
      | cons i below =>
          obtain ⟨j, hj⟩ := exists_child_of_mem hbelow (i := i) (by simp)
          obtain ⟨folder, hfolder, rfl⟩ := List.mem_map.mp (hparent j i hj)
          exact ⟨folder, (hmem folder).mpr ⟨hfolder, rootPath_of_append hbelow⟩,
            .inr ⟨hother, below, hbelow⟩⟩
  · cases ancestors with
    | nil =>
        obtain ⟨folder, hfolder, hnode⟩ := nodeOf_of_mem h (position_nil.mp hposition)
        refine ⟨by simp [hnode.depth_eq], by simp [hnode.path_eq], ?_⟩
        rw [id_of_nodeOf hnode, List.map_nil, List.append_nil]
        exact ((hmem folder).mp hfolder).2
    | cons t ancestors =>
        obtain ⟨ht, hbelow⟩ := position_cons.mp hposition
        obtain ⟨folder, hfolder, hnode⟩ := nodeOf_of_mem h ht
        obtain ⟨hdepth, hpath, hchain⟩ := hnode.children.position ancestors n hbelow
        refine ⟨?_, ?_, ?_⟩
        · rw [hdepth, List.length_cons]
          omega
        · simp [hpath]
        · simpa using hchain

theorem nodup_of_stands (h : Stands parent above p) : above.Nodup := by
  cases h with
  | root => exact List.nodup_nil
  | below hq =>
      rw [← List.concat_eq_append]
      exact (nodup_rootPath hq).concat (not_mem_rootPath hq)

/-- The walk ends, since no chain has more folders than there are. -/
theorem walk_spec {index : Index} (compare : String → String → Ordering)
    (hparent : ∀ i q, parent i = some q → q ∈ ids input)
    (hlisting : Listing input parent index)
    (fuel : Nat) (p : Option String) (above : List String)
    (hstands : Stands parent above p)
    (habove : ∀ i ∈ above, i ∈ ids input)
    (hfuel : input.length < fuel + above.length)
    (depth : Nat) (path : List FolderTreePathSegment) :
    ∃ nodes, walk compare index fuel p depth above path = some nodes ∧
      Walked input parent above depth path nodes := by
  induction fuel generalizing p above depth path with
  | zero =>
      have hlength := (List.subperm_of_subset (nodup_of_stands hstands) habove).length_le
      rw [ids, List.length_map] at hlength
      omega
  | succ fuel ih =>
      rw [walk]
      have hperm := StableSort.sortBy_perm compare FolderTreeInput.name (index p)
      generalize StableSort.sortBy compare FolderTreeInput.name (index p) = sorted at hperm
      set folders := sorted.filter fun folder => decide (folder.id ∉ above)
      have hnodup : (folders.map FolderTreeInput.id).Nodup :=
        ((hperm.map _).nodup_iff.mpr (hlisting.nodup p)).sublist (List.filter_sublist.map _)
      have hmem : ∀ folder,
          folder ∈ folders ↔ folder ∈ input ∧ RootPath parent above folder.id := by
        intro folder
        rw [List.mem_filter, hperm.mem_iff, hlisting.mem_iff, decide_eq_true_eq]
        constructor
        · rintro ⟨⟨hin, hp⟩, -⟩
          exact ⟨hin, rootPath_of_stands hstands hp⟩
        · rintro ⟨hin, hpath⟩
          exact ⟨⟨hin, parent_of_stands hstands hpath⟩, not_mem_rootPath hpath⟩
      have hnodes : ∀ folder ∈ folders, ∃ n,
          ((walk compare index fuel (some folder.id) (depth + 1) (above ++ [folder.id])
              (path ++ [{ id := folder.id, name := folder.name }])).map fun children =>
            FolderTreeNode.node folder.id folder.tenantId folder.parentId folder.name depth
              (path ++ [{ id := folder.id, name := folder.name }]) children) = some n ∧
            NodeOf input parent above depth path folder n := by
        intro folder hfolder
        obtain ⟨hin, hpath⟩ := (hmem folder).mp hfolder
        have hids : ∀ i ∈ above ++ [folder.id], i ∈ ids input := by
          intro i hi
          rcases List.mem_append.mp hi with hi | hi
          · exact habove i hi
          · rw [List.mem_singleton.mp hi]
            exact List.mem_map_of_mem hin
        obtain ⟨children, hwalk, hwalked⟩ :=
          ih (some folder.id) (above ++ [folder.id]) (.below hpath) hids
            (by rw [List.length_append, List.length_singleton]; omega) (depth + 1)
            (path ++ [{ id := folder.id, name := folder.name }])
        refine ⟨.node folder.id folder.tenantId folder.parentId folder.name depth
          (path ++ [{ id := folder.id, name := folder.name }]) children, by rw [hwalk]; rfl, ?_⟩
        exact ⟨rfl, rfl, rfl, hwalked⟩
      obtain ⟨nodes, hmap, hall⟩ := mapM_of_forall hnodes
      exact ⟨nodes, hmap, walked_of_forall₂ hparent hnodup hmem hall⟩

end Walking

/-! ## Nothing is lost and nothing duplicated -/

section Tree

variable {input : List FolderTreeInput}

/-- The nodes are the folders, each once; every node below another stands under the folder
that its parent id names; depth and path are those of the position. -/
structure IsTreeOf (input : List FolderTreeInput) (forest : List FolderTreeNode) : Prop where
  exactlyOnce : ((flattenAll forest).map FolderTreeNode.folder).Perm input
  under : ∀ above p n, Position forest (above ++ [p]) n → n.folder.parentId = some p.id
  position : ∀ above n, Position forest above n →
    n.depth = above.length ∧ n.path = (above ++ [n]).map FolderTreeNode.segment

/-- The forest and the folders that were promoted for it. -/
theorem buildFolderTree_spec (compare : String → String → Ordering)
    (hdistinct : (ids input).Nodup) {fuel : Nat} (hfuel : input.length < fuel) :
    ∃ orphans forest, LooseIds input orphans ∧ buildFolderTree compare fuel input = some forest ∧
      Walked input (cut (parentOf input) (promoted (parentOf input) orphans)) [] 0 [] forest := by
  obtain ⟨orphans, state, hloose, hpromote, hstate⟩ := promoteAll_spec hdistinct hfuel
  obtain ⟨forest, hwalk, hwalked⟩ :=
    walk_spec compare (fun _ _ => mem_ids_of_cut) hstate.listing fuel none [] .root (by simp)
      (by simpa using hfuel) 0 []
  refine ⟨orphans, forest, hloose, ?_, hwalked⟩
  rw [buildFolderTree, hpromote]
  exact hwalk

variable {forest : List FolderTreeNode}

theorem mem_input_of_position {parent : String → Option String}
    (h : Walked input parent [] 0 [] forest) {above : List FolderTreeNode} {n : FolderTreeNode}
    (hn : Position forest above n) : n.folder ∈ input :=
  ((h.mem_iff n.folder).mp (List.mem_map_of_mem (mem_flattenAll_of_position hn))).1

/-- A node stands under its parent in the walked index. -/
theorem parent_of_position {parent : String → Option String}
    (h : Walked input parent [] 0 [] forest) {above : List FolderTreeNode}
    {p n : FolderTreeNode} (hn : Position forest (above ++ [p]) n) :
    parent n.id = some p.id := by
  obtain ⟨-, -, hpath⟩ := h.position _ _ hn
  rw [List.nil_append, List.map_append, List.map_singleton] at hpath
  obtain ⟨-, -, hp⟩ := h.position _ _ (position_concat.mp hn).1
  exact parent_of_stands (.below hp) hpath

theorem isTreeOf_of_walked (hdistinct : (ids input).Nodup) {detached : List String}
    (hattached : ∀ i ∈ ids input, Attached (cut (parentOf input) detached) i)
    (h : Walked input (cut (parentOf input) detached) [] 0 [] forest) :
    IsTreeOf input forest where
  exactlyOnce := by
    have hids : ((flattenAll forest).map FolderTreeNode.folder).map FolderTreeInput.id =
        (flattenAll forest).map FolderTreeNode.id := List.map_map
    have hnodup : ((flattenAll forest).map FolderTreeNode.folder).Nodup :=
      List.Nodup.of_map FolderTreeInput.id (by rw [hids]; exact h.nodup)
    rw [List.perm_ext_iff_of_nodup hnodup (List.Nodup.of_map FolderTreeInput.id hdistinct)]
    intro folder
    rw [h.mem_iff]
    refine ⟨And.left, fun hfolder => ⟨hfolder, ?_⟩⟩
    exact hattached folder.id (List.mem_map_of_mem hfolder)
  under above p n hn := by
    have hmem := mem_input_of_position h hn
    have hparent := parent_of_position h hn
    have hknown : parentOf input n.folder.id = some p.id := by
      unfold cut at hparent
      split at hparent
      · cases hparent
      · exact hparent
    rw [parentOf_of_mem hdistinct hmem] at hknown
    exact (knownParent_eq_some hknown).1
  position above n hn := by
    obtain ⟨hdepth, hpath, -⟩ := h.position above n hn
    exact ⟨by rw [hdepth, Nat.zero_add], hpath⟩

/-- The folder tree ends for every list of folders with different ids, and nothing is lost or
duplicated in it. -/
theorem buildFolderTree_isTreeOf (compare : String → String → Ordering)
    (input : List FolderTreeInput) (hdistinct : (ids input).Nodup)
    (fuel : Nat) (hfuel : input.length < fuel) :
    ∃ forest, buildFolderTree compare fuel input = some forest ∧ IsTreeOf input forest := by
  obtain ⟨orphans, forest, hloose, hbuild, hwalked⟩ :=
    buildFolderTree_spec compare hdistinct hfuel
  exact ⟨forest, hbuild, isTreeOf_of_walked hdistinct (fun _ hi => hloose.attached hi) hwalked⟩

/-- Two folders on a cycle and one that hangs off it, which comes first. -/
def tailInput : List FolderTreeInput :=
  [{ id := "a", tenantId := "t", parentId := some "b", name := "A" },
    { id := "b", tenantId := "t", parentId := some "c", name := "B" },
    { id := "c", tenantId := "t", parentId := some "b", name := "C" }]

/-- The names are letters, which compare by their code units. -/
def compareNames (a b : String) : Ordering :=
  compare (Unicode.codeUnits a) (Unicode.codeUnits b)

theorem tailInput_isTreeOf :
    ∃ forest, buildFolderTree compareNames 4 tailInput = some forest ∧
      IsTreeOf tailInput forest :=
  buildFolderTree_isTreeOf compareNames tailInput (by decide) 4 (by decide)

/-- The roots are the folders without a parent, once the promoted ones have been cut off. -/
theorem mem_roots_iff {detached : List String}
    (h : Walked input (cut (parentOf input) detached) [] 0 [] forest) (i : String) :
    (∃ n ∈ forest, n.id = i) ↔ i ∈ ids input ∧ cut (parentOf input) detached i = none := by
  constructor
  · rintro ⟨n, hn, rfl⟩
    have hposition : Position forest [] n := .root hn
    obtain ⟨-, -, hpath⟩ := h.position [] n hposition
    exact ⟨List.mem_map_of_mem (mem_input_of_position h hposition),
      parent_of_stands .root hpath⟩
  · rintro ⟨hi, hnone⟩
    obtain ⟨folder, hfolder, rfl⟩ := List.mem_map.mp hi
    obtain ⟨n, hn, rfl⟩ :=
      List.mem_map.mp ((h.mem_iff folder).mpr ⟨hfolder, [], .root hnone⟩)
    obtain ⟨above, habove⟩ := mem_flattenAll_iff_position.mp hn
    obtain ⟨-, -, hpath⟩ := h.position above n habove
    have hempty : above.map FolderTreeNode.id = [] := rootPath_unique hpath (.root hnone)
    rw [List.map_eq_nil_iff.mp hempty] at habove
    exact ⟨n, position_nil.mp habove, rfl⟩

end Tree

end FileManager
end Files
end NestBase
