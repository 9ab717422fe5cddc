import Mathlib.Data.Finset.Max
import Mathlib.Logic.Relation
import Mathlib.Order.WellFoundedSet
import Mathlib.Tactic

/-!
# Forests of parent pointers

A partial function gives some elements a parent.  An element is attached when its
chain of parents ends; `RootPath` is this chain, from the root down, and it is
unique.  An element that is not attached runs into a cycle (`attached_or_cycle`).

`promoted` goes through a list of elements and cuts an element off its parent
unless the cuts before have attached it already.  In the order of a key this cuts
exactly the elements whose key is least among their ancestors (`mem_promoted_iff`),
so one of every cycle (`existsUnique_promoted`), and others when a chain into a cycle
begins below all its keys.
-/

namespace NestBase
namespace Lib
namespace ParentForest

universe u v

section Chains

variable {ι : Type u}

/-- The chain of parents of an element, from the root down. -/
inductive RootPath (parent : ι → Option ι) : List ι → ι → Prop
  | root {i : ι} (h : parent i = none) : RootPath parent [] i
  | child {path : List ι} {i q : ι} (h : parent i = some q) (hq : RootPath parent path q) :
      RootPath parent (path ++ [q]) i

def Attached (parent : ι → Option ι) (i : ι) : Prop :=
  ∃ path, RootPath parent path i

/-- The second element is a proper ancestor of the first. -/
def Ascends (parent : ι → Option ι) : ι → ι → Prop :=
  Relation.TransGen fun i q => parent i = some q

def OnCycle (parent : ι → Option ι) (i : ι) : Prop :=
  Ascends parent i i

variable {parent : ι → Option ι}
variable {i a : ι}

theorem rootPath_unique {path path' : List ι}
    (h : RootPath parent path i) (h' : RootPath parent path' i) :
    path = path' := by
  induction h generalizing path' with
  | root hnone =>
      cases h' with
      | root => rfl
      | child hsome => rw [hnone] at hsome; cases hsome
  | child hsome hq ih =>
      cases h' with
      | root hnone => rw [hsome] at hnone; cases hnone
      | child hsome' hq' =>
          rw [hsome] at hsome'
          cases hsome'
          rw [ih hq']

/-- The chain of an ancestor is the part of the chain in front of it. -/
theorem rootPath_of_append {above below : List ι} {x : ι}
    (h : RootPath parent (above ++ i :: below) x) :
    RootPath parent above i := by
  induction below using List.reverseRecOn generalizing x with
  | nil =>
      generalize hpath : above ++ [i] = path at h
      cases h with
      | root => simp at hpath
      | child hsome hq =>
          obtain ⟨rfl, hlast⟩ := List.append_inj' hpath rfl
          cases hlast
          exact hq
  | append_singleton below last ih =>
      generalize hpath : above ++ i :: (below ++ [last]) = path at h
      cases h with
      | root => simp at hpath
      | child hsome hq =>
          rw [← List.cons_append, ← List.append_assoc] at hpath
          obtain ⟨rfl, -⟩ := List.append_inj' hpath rfl
          exact ih hq

theorem not_mem_rootPath {path : List ι} (h : RootPath parent path i) : i ∉ path := by
  intro hmem
  obtain ⟨above, below, rfl⟩ := List.append_of_mem hmem
  have hlength := congrArg List.length (rootPath_unique h (rootPath_of_append h))
  simp only [List.length_append, List.length_cons] at hlength
  omega

theorem nodup_rootPath {path : List ι} (h : RootPath parent path i) : path.Nodup := by
  induction h with
  | root => exact List.nodup_nil
  | child hsome hq ih =>
      rw [← List.concat_eq_append]
      exact ih.concat (not_mem_rootPath hq)

/-- What is on a chain is a parent. -/
theorem exists_child_of_mem {path : List ι} {x : ι} (h : RootPath parent path x)
    (hi : i ∈ path) : ∃ j, parent j = some i := by
  induction h with
  | root => cases hi
  | child hsome hq ih =>
      rcases List.mem_append.mp hi with hi | hi
      · exact ih hi
      · rw [List.mem_singleton.mp hi]
        exact ⟨_, hsome⟩

theorem attached_of_root (h : parent i = none) : Attached parent i :=
  ⟨[], .root h⟩

theorem attached_iff_of_parent {q : ι} (h : parent i = some q) :
    Attached parent i ↔ Attached parent q := by
  constructor
  · rintro ⟨path, hpath⟩
    cases hpath with
    | root hnone => rw [h] at hnone; cases hnone
    | child hsome hq =>
        rw [h] at hsome
        cases hsome
        exact ⟨_, hq⟩
  · rintro ⟨path, hpath⟩
    exact ⟨path ++ [q], .child h hpath⟩

theorem attached_iff_of_ascends (h : Ascends parent i a) :
    Attached parent i ↔ Attached parent a := by
  induction h with
  | single hstep => exact attached_iff_of_parent hstep
  | tail hrest hstep ih => exact ih.trans (attached_iff_of_parent hstep)

/-- Attached elements satisfy what roots satisfy and children inherit. -/
theorem attached_induction {P : ι → Prop}
    (hroot : ∀ i, parent i = none → P i)
    (hchild : ∀ i q, parent i = some q → P q → P i)
    {i : ι} (h : Attached parent i) :
    P i := by
  obtain ⟨path, hpath⟩ := h
  induction hpath with
  | root hnone => exact hroot _ hnone
  | child hsome hq ih => exact hchild _ _ hsome ih

theorem mem_of_ascends {path : List ι} (hpath : RootPath parent path i) (h : Ascends parent i a) :
    a ∈ path := by
  have hstep : ∀ {path : List ι} {i q : ι}, RootPath parent path i → parent i = some q →
      ∃ above, path = above ++ [q] ∧ RootPath parent above q := by
    intro path i q hpath hsome
    cases hpath with
    | root hnone => rw [hsome] at hnone; cases hnone
    | child hsome' hq =>
        rw [hsome] at hsome'
        cases hsome'
        exact ⟨_, rfl, hq⟩
  induction h using Relation.TransGen.head_induction_on generalizing path with
  | single hsome =>
      obtain ⟨above, rfl, -⟩ := hstep hpath hsome
      simp
  | head hsome hrest ih =>
      obtain ⟨above, rfl, habove⟩ := hstep hpath hsome
      exact List.mem_append_left _ (ih habove)

theorem not_onCycle_of_attached (h : Attached parent i) : ¬OnCycle parent i := by
  obtain ⟨path, hpath⟩ := h
  exact fun hcycle => not_mem_rootPath hpath (mem_of_ascends hpath hcycle)

/-- Behind the parent of an element come its other ancestors. -/
theorem eq_or_ascends {q : ι} (hsome : parent i = some q) (h : Ascends parent i a) :
    a = q ∨ Ascends parent q a := by
  cases h using Relation.TransGen.head_induction_on with
  | single hstep =>
      rw [hsome] at hstep
      cases hstep
      exact .inl rfl
  | head hstep hrest =>
      rw [hsome] at hstep
      cases hstep
      exact .inr hrest

/-- An ancestor of an element of a cycle has the element among its own ancestors. -/
theorem ascends_symm_of_onCycle (hcycle : OnCycle parent i) (h : Ascends parent i a) :
    Ascends parent a i := by
  induction h with
  | single hstep =>
      rcases eq_or_ascends hstep hcycle with rfl | hrest
      · exact hcycle
      · exact hrest
  | tail hrest hstep ih =>
      rcases eq_or_ascends hstep ih with rfl | hrest
      · exact hcycle
      · exact hrest

end Chains

/-! ## Finitely many elements -/

section Finite

variable {ι : Type u}
variable {parent : ι → Option ι}
variable {elements : Set ι}

theorem mem_of_ascends_elements (hclosed : ∀ i q, parent i = some q → q ∈ elements)
    {i a : ι} (h : Ascends parent i a) : a ∈ elements := by
  cases h with
  | single hstep => exact hclosed _ _ hstep
  | tail hrest hstep => exact hclosed _ _ hstep

/-- The ancestors of an element that is on no cycle come before it. -/
def Before (parent : ι → Option ι) (a i : ι) : Prop :=
  Ascends parent i a ∧ ¬OnCycle parent i

theorem before_strict : IsStrictOrder ι (Before parent) where
  irrefl := fun _ h => h.2 h.1
  trans := fun _ _ _ hab hbc => ⟨hbc.1.trans hab.1, hbc.2⟩

/-- An element that is not attached runs into a cycle. -/
theorem attached_or_cycle
    (hfinite : elements.Finite)
    (hclosed : ∀ i q, parent i = some q → q ∈ elements)
    (i : ι) :
    Attached parent i ∨ ∃ c, Ascends parent i c ∧ OnCycle parent c := by
  by_contra hnone
  push Not at hnone
  obtain ⟨hattached, habove⟩ := hnone
  have hparent : ∀ m, ¬Attached parent m → ∃ q, parent m = some q := by
    intro m hm
    cases hq : parent m with
    | none => exact absurd (attached_of_root hq) hm
    | some q => exact ⟨q, rfl⟩
  have hwf : Set.WellFoundedOn {a | Ascends parent i a} (Before parent) := by
    have := @before_strict ι parent
    exact (hfinite.subset fun a ha => mem_of_ascends_elements hclosed ha).wellFoundedOn
  obtain ⟨q, hq⟩ := hparent i hattached
  -- an ancestor before which there is none has a parent, which comes before it
  obtain ⟨⟨m, hm⟩, -, hmin⟩ := hwf.has_min Set.univ ⟨⟨q, .single hq⟩, trivial⟩
  obtain ⟨r, hr⟩ := hparent m (mt (attached_iff_of_ascends hm).mpr hattached)
  exact hmin ⟨r, hm.tail hr⟩ trivial ⟨.single hr, habove m hm⟩

/-- The ancestor with the least key. -/
theorem exists_least_ancestor {κ : Type v} [LinearOrder κ] (key : ι → κ)
    (hfinite : elements.Finite)
    (hclosed : ∀ i q, parent i = some q → q ∈ elements)
    {i a : ι} (h : Ascends parent i a) :
    ∃ m, Ascends parent i m ∧ ∀ b, Ascends parent i b → key m ≤ key b :=
  Set.exists_min_image {b | Ascends parent i b} key
    (hfinite.subset fun _ hb => mem_of_ascends_elements hclosed hb) ⟨a, h⟩

end Finite

/-! ## Cutting elements off -/

section Cut

variable {ι : Type u} [DecidableEq ι]
variable {parent : ι → Option ι}

/-- The parents when some elements have been cut off. -/
def cut (parent : ι → Option ι) (detached : List ι) (i : ι) : Option ι :=
  if i ∈ detached then none else parent i

theorem cut_nil (parent : ι → Option ι) : cut parent [] = parent := by
  funext i
  simp [cut]

variable {detached elements : List ι}
variable {i : ι}

theorem attached_cut_of_mem (h : i ∈ detached) :
    Attached (cut parent detached) i :=
  attached_of_root (if_pos h)

/-- What is attached after the cuts was attached, or has been cut off, or has an ancestor
that was. -/
theorem attached_cut_iff :
    Attached (cut parent detached) i ↔
      Attached parent i ∨ i ∈ detached ∨ ∃ a ∈ detached, Ascends parent i a := by
  constructor
  · intro h
    refine attached_induction
      (P := fun i => Attached parent i ∨ i ∈ detached ∨ ∃ a ∈ detached, Ascends parent i a)
      ?_ ?_ h
    · intro i hnone
      unfold cut at hnone
      split at hnone
      · next hmem => exact .inr (.inl hmem)
      · exact .inl (attached_of_root hnone)
    · intro i q hsome hq
      unfold cut at hsome
      split at hsome
      · cases hsome
      · rcases hq with hq | hq | ⟨a, ha, hascends⟩
        · exact .inl ((attached_iff_of_parent hsome).mpr hq)
        · exact .inr (.inr ⟨q, hq, .single hsome⟩)
        · exact .inr (.inr ⟨a, ha, .head hsome hascends⟩)
  · have hstep : ∀ {i q : ι}, parent i = some q → Attached (cut parent detached) q →
        Attached (cut parent detached) i := by
      intro i q hsome hq
      by_cases hmem : i ∈ detached
      · exact attached_cut_of_mem hmem
      · refine (attached_iff_of_parent (q := q) ?_).mpr hq
        rw [cut, if_neg hmem, hsome]
    rintro (h | h | ⟨a, ha, hascends⟩)
    · refine attached_induction ?_ (fun i q hsome hq => hstep hsome hq) h
      intro i hnone
      refine attached_of_root ?_
      rw [cut, hnone]
      exact ite_self none
    · exact attached_cut_of_mem h
    · induction hascends using Relation.TransGen.head_induction_on with
      | single hsome => exact hstep hsome (attached_cut_of_mem ha)
      | head hsome hrest ih => exact hstep hsome ih

/-- More cuts attach more. -/
theorem attached_cut_append (more : List ι) (h : Attached (cut parent detached) i) :
    Attached (cut parent (detached ++ more)) i := by
  rw [attached_cut_iff] at h ⊢
  rcases h with hatt | hdet | ⟨a, ha, hascends⟩
  · exact .inl hatt
  · exact .inr (.inl (List.mem_append_left _ hdet))
  · exact .inr (.inr ⟨a, List.mem_append_left _ ha, hascends⟩)

/-- Go through the elements and cut off what is not attached by then. -/
noncomputable def promoted (parent : ι → Option ι) (elements : List ι) : List ι :=
  open Classical in
  elements.foldl
    (fun detached i => if Attached (cut parent detached) i then detached else detached ++ [i]) []

theorem promoted_append_of_attached (h : Attached (cut parent (promoted parent elements)) i) :
    promoted parent (elements ++ [i]) = promoted parent elements := by
  rw [promoted, List.foldl_append]
  exact if_pos h

theorem promoted_append_of_not_attached (h : ¬Attached (cut parent (promoted parent elements)) i) :
    promoted parent (elements ++ [i]) = promoted parent elements ++ [i] := by
  rw [promoted, List.foldl_append]
  exact if_neg h

/-- Everything in the list is attached in the end. -/
theorem attached_promoted (h : i ∈ elements) :
    Attached (cut parent (promoted parent elements)) i := by
  induction elements using List.reverseRecOn with
  | nil => cases h
  | append_singleton elements last ih =>
      by_cases hlast : Attached (cut parent (promoted parent elements)) last
      · rw [promoted_append_of_attached hlast]
        rcases List.mem_append.mp h with hmem | hmem
        · exact ih hmem
        · rwa [List.mem_singleton.mp hmem]
      · rw [promoted_append_of_not_attached hlast]
        rcases List.mem_append.mp h with hmem | hmem
        · exact attached_cut_append _ (ih hmem)
        · exact attached_cut_of_mem (List.mem_append_right _ hmem)

variable {κ : Type v} [LinearOrder κ] {key : ι → κ}
variable {all : Set ι}

/-- In the order of the keys, the elements that are cut off are those before all their
ancestors. -/
theorem mem_promoted_iff
    (hfinite : all.Finite)
    (hclosed : ∀ i q, parent i = some q → q ∈ all)
    (hsorted : elements.Pairwise fun i j => key i < key j)
    (hloose : ∀ i ∈ elements, ¬Attached parent i)
    (hbelow : ∀ i ∈ elements, ∀ a ∈ all, ¬Attached parent a → key a < key i → a ∈ elements) :
    i ∈ promoted parent elements ↔
      i ∈ elements ∧ ∀ a, Ascends parent i a → key i ≤ key a := by
  induction elements using List.reverseRecOn generalizing i with
  | nil => simp [promoted]
  | append_singleton elements last ih =>
      obtain ⟨hfront, -, hlast⟩ := List.pairwise_append.mp hsorted
      have hbefore : ∀ j ∈ elements, key j < key last :=
        fun j hj => hlast j hj last (List.mem_singleton_self last)
      have ih' : ∀ {j : ι}, j ∈ promoted parent elements ↔
          j ∈ elements ∧ ∀ a, Ascends parent j a → key j ≤ key a := by
        refine ih hfront (fun j hj => hloose j (List.mem_append_left _ hj)) ?_
        intro j hj a ha hatt hlt
        rcases List.mem_append.mp
          (hbelow j (List.mem_append_left _ hj) a ha hatt hlt) with hmem | hmem
        · exact hmem
        · rw [List.mem_singleton.mp hmem] at hlt
          exact absurd hlt (hbefore j hj).asymm
      have hlastLoose : ¬Attached parent last := hloose last (by simp)
      have hnot : last ∉ elements := fun hmem => lt_irrefl _ (hbefore last hmem)
      -- the last element is attached by a cut exactly when a lesser ancestor has been cut off
      have hattached : Attached (cut parent (promoted parent elements)) last ↔
          ¬∀ a, Ascends parent last a → key last ≤ key a := by
        rw [attached_cut_iff]
        push Not
        constructor
        · rintro (hatt | hdet | ⟨a, ha, hascends⟩)
          · exact absurd hatt hlastLoose
          · exact absurd (ih'.mp hdet).1 hnot
          · exact ⟨a, hascends, hbefore a (ih'.mp ha).1⟩
        · rintro ⟨a, hascends, hlt⟩
          obtain ⟨m, hm, hleast⟩ := exists_least_ancestor key hfinite hclosed hascends
          have hmkey : key m < key last := lt_of_le_of_lt (hleast a hascends) hlt
          have hmem : m ∈ elements := by
            have hin := hbelow last (by simp) m (mem_of_ascends_elements hclosed hm)
              (mt (attached_iff_of_ascends hm).mpr hlastLoose) hmkey
            rcases List.mem_append.mp hin with hin | hin
            · exact hin
            · rw [List.mem_singleton.mp hin] at hmkey
              exact absurd hmkey (lt_irrefl _)
          exact .inr (.inr ⟨m, ih'.mpr ⟨hmem, fun b hb => hleast b (hm.trans hb)⟩, hm⟩)
      by_cases hatt : Attached (cut parent (promoted parent elements)) last
      · rw [promoted_append_of_attached hatt, ih', List.mem_append, List.mem_singleton]
        constructor
        · rintro ⟨hmem, hmin⟩
          exact ⟨.inl hmem, hmin⟩
        · rintro ⟨hmem | rfl, hmin⟩
          · exact ⟨hmem, hmin⟩
          · exact absurd hmin (hattached.mp hatt)
      · rw [promoted_append_of_not_attached hatt, List.mem_append, List.mem_append,
          List.mem_singleton, ih']
        have hmin := not_not.mp (mt hattached.mpr hatt)
        constructor
        · rintro (⟨hmem, hmin'⟩ | rfl)
          · exact ⟨.inl hmem, hmin'⟩
          · exact ⟨.inr rfl, hmin⟩
        · rintro ⟨hmem | hmem, hmin'⟩
          · exact .inl ⟨hmem, hmin'⟩
          · exact .inr hmem

/-- The list has the elements that are not attached, in the order of their keys. -/
structure Loose (parent : ι → Option ι) (key : ι → κ) (all : Set ι) (elements : List ι) :
    Prop where
  finite : all.Finite
  closed : ∀ i q, parent i = some q → q ∈ all
  sorted : elements.Pairwise fun i j => key i < key j
  mem_iff : ∀ i, i ∈ elements ↔ i ∈ all ∧ ¬Attached parent i

namespace Loose

variable {elements : List ι}

theorem mem_promoted_iff (h : Loose parent key all elements) {i : ι} :
    i ∈ promoted parent elements ↔
      i ∈ elements ∧ ∀ a, Ascends parent i a → key i ≤ key a :=
  ParentForest.mem_promoted_iff h.finite h.closed h.sorted (fun i hi => ((h.mem_iff i).mp hi).2)
    fun _ _ a ha hatt _ => (h.mem_iff a).mpr ⟨ha, hatt⟩

theorem attached (h : Loose parent key all elements) {i : ι} (hi : i ∈ all) :
    Attached (cut parent (promoted parent elements)) i := by
  by_cases hatt : Attached parent i
  · exact attached_cut_iff.mpr (.inl hatt)
  · exact attached_promoted ((h.mem_iff i).mpr ⟨hi, hatt⟩)

/-- Exactly one element of every cycle is cut off. -/
theorem existsUnique_promoted (h : Loose parent key all elements)
    (hinjective : Function.Injective key)
    {i : ι} (hcycle : OnCycle parent i) :
    ∃! r, r ∈ promoted parent elements ∧ Ascends parent i r ∧ Ascends parent r i := by
  obtain ⟨m, hm, hleast⟩ := exists_least_ancestor key h.finite h.closed hcycle
  have hback := ascends_symm_of_onCycle hcycle hm
  refine ⟨m, ⟨h.mem_promoted_iff.mpr ⟨?_, fun a ha => hleast a (hm.trans ha)⟩, hm, hback⟩, ?_⟩
  · have hloose : ¬Attached parent m := fun hatt =>
      not_onCycle_of_attached hatt (hback.trans hm)
    exact (h.mem_iff m).mpr ⟨mem_of_ascends_elements h.closed hm, hloose⟩
  · rintro r ⟨hr, hir, hri⟩
    have hle := (h.mem_promoted_iff.mp hr).2 m (hri.trans hm)
    exact hinjective (le_antisymm hle (hleast r hir))

end Loose

end Cut

end ParentForest
end Lib
end NestBase
