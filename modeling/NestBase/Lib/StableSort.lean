import Mathlib.Data.List.Nodup
import Mathlib.Tactic

/-!
# Stable sorting by a comparison of keys

`sortBy cmp key` sorts a list by the keys of its elements and keeps elements in
their order whose keys compare equal.  The comparison is a total preorder: two
different keys may compare equal.

Sorting forgets the order of a list exactly when no two different elements tie.
Without ties every reordering sorts alike (`sortBy_eq_of_perm`); when the keys of
two elements tie, the reversed list sorts differently (`sortBy_reverse_ne`).
-/

namespace NestBase
namespace Lib
namespace StableSort

universe u v

section StableSort

variable {α : Type u}
variable {κ : Type v}

/-- The order of the sort: not greater. -/
def notAfter (cmp : κ → κ → Ordering) (key : α → κ) (a b : α) : Bool :=
  cmp (key a) (key b) != .gt

def sortBy (cmp : κ → κ → Ordering) (key : α → κ) (l : List α) : List α :=
  l.mergeSort (notAfter cmp key)

variable {cmp : κ → κ → Ordering}
variable {key : α → κ}
variable {b a : α}

theorem notAfter_iff :
    notAfter cmp key a b = true ↔ (cmp (key a) (key b)).isLE = true := by
  unfold notAfter
  cases cmp (key a) (key b) <;> decide

theorem sortBy_perm (cmp : κ → κ → Ordering) (key : α → κ) (l : List α) :
    (sortBy cmp key l).Perm l :=
  List.mergeSort_perm l (notAfter cmp key)

variable [Std.TransCmp cmp]

theorem notAfter_trans
    (a b c : α)
    (hab : notAfter cmp key a b = true)
    (hbc : notAfter cmp key b c = true) :
    notAfter cmp key a c = true := by
  rw [notAfter_iff] at *
  exact Std.TransCmp.isLE_trans hab hbc

theorem notAfter_total (a b : α) :
    (notAfter cmp key a b || notAfter cmp key b a) = true := by
  rw [Bool.or_eq_true]
  by_cases hab : notAfter cmp key a b = true
  · exact Or.inl hab
  · refine Or.inr ?_
    rw [notAfter_iff] at *
    have hswap : cmp (key b) (key a) = (cmp (key a) (key b)).swap := Std.OrientedCmp.eq_swap
    rw [hswap]
    cases hcmp : cmp (key a) (key b) with
    | lt => exact absurd (by rw [hcmp]; rfl) hab
    | eq => exact absurd (by rw [hcmp]; rfl) hab
    | gt => rfl

theorem pairwise_sortBy (cmp : κ → κ → Ordering) [Std.TransCmp cmp] (key : α → κ) (l : List α) :
    (sortBy cmp key l).Pairwise fun a b => notAfter cmp key a b = true :=
  List.pairwise_mergeSort notAfter_trans notAfter_total l

/-- What is not after each other ties. -/
theorem eq_of_notAfter (hab : notAfter cmp key a b = true) (hba : notAfter cmp key b a = true) :
    cmp (key a) (key b) = .eq := by
  rw [notAfter_iff] at *
  exact Std.OrientedCmp.isLE_antisymm hab hba

variable {l : List α}

/-- Without ties the order of the list is forgotten. -/
theorem sortBy_eq_of_perm
    {l' : List α}
    (hperm : l.Perm l')
    (hties : ∀ a ∈ l, ∀ b ∈ l, cmp (key a) (key b) = .eq → a = b) :
    sortBy cmp key l = sortBy cmp key l' := by
  have hsorted := pairwise_sortBy cmp key
  refine List.Perm.eq_of_pairwise ?_ (hsorted l) (hsorted l')
    (((sortBy_perm cmp key l).trans hperm).trans (sortBy_perm cmp key l').symm)
  intro a b ha hb hab hba
  have hmem : a ∈ l := (sortBy_perm cmp key l).mem_iff.mp ha
  have hmem' : b ∈ l := hperm.mem_iff.mpr ((sortBy_perm cmp key l').mem_iff.mp hb)
  exact hties a hmem b hmem' (eq_of_notAfter hab hba)

/-- Without ties a sorted list increases. -/
theorem pairwise_lt_sortBy
    (hnodup : l.Nodup)
    (hties : ∀ a ∈ l, ∀ b ∈ l, cmp (key a) (key b) = .eq → a = b) :
    (sortBy cmp key l).Pairwise fun a b => cmp (key a) (key b) = .lt := by
  have hperm := sortBy_perm cmp key l
  have hboth := (pairwise_sortBy cmp key l).and (hperm.nodup_iff.mpr hnodup)
  refine hboth.imp_of_mem fun {a b} ha hb hab => ?_
  cases hcmp : cmp (key a) (key b) with
  | lt => rfl
  | eq => exact absurd (hties a (hperm.mem_iff.mp ha) b (hperm.mem_iff.mp hb) hcmp) hab.2
  | gt =>
      have hle := notAfter_iff.mp hab.1
      rw [hcmp] at hle
      cases hle

/-- Without ties a part of a list is sorted as the whole list is. -/
theorem sortBy_filter (p : α → Bool) (hties : ∀ a ∈ l, ∀ b ∈ l, cmp (key a) (key b) = .eq → a = b) :
    sortBy cmp key (l.filter p) = (sortBy cmp key l).filter p := by
  have hsorted := pairwise_sortBy cmp key
  refine List.Perm.eq_of_pairwise ?_ (hsorted _) ((hsorted l).filter p)
    ((sortBy_perm cmp key (l.filter p)).trans ((sortBy_perm cmp key l).symm.filter p))
  intro a b ha hb hab hba
  have hmem : a ∈ l := (List.mem_filter.mp ((sortBy_perm cmp key _).mem_iff.mp ha)).1
  have hmem' : b ∈ l := (sortBy_perm cmp key l).mem_iff.mp (List.mem_filter.mp hb).1
  exact hties a hmem b hmem' (eq_of_notAfter hab hba)

/-- The elements of an increasing list that are greater than one of it stand behind it. -/
theorem filter_greater
    {front back : List α}
    (h : (front ++ a :: back).Pairwise fun a b => cmp (key a) (key b) = .lt) :
    (front ++ a :: back).filter (fun b => cmp (key a) (key b) == .lt) = back := by
  rw [List.pairwise_append, List.pairwise_cons] at h
  obtain ⟨-, ⟨hback, -⟩, hfront⟩ := h
  have hself : (cmp (key a) (key a) == .lt) = false := by
    have heq : cmp (key a) (key a) = .eq := Std.ReflCmp.compare_self
    rw [heq]
    rfl
  have hnone : front.filter (fun b => cmp (key a) (key b) == .lt) = [] := by
    rw [List.filter_eq_nil_iff]
    intro b hb
    have hlt := hfront b hb a List.mem_cons_self
    rw [Std.OrientedCmp.gt_of_lt hlt]
    decide
  have hall : back.filter (fun b => cmp (key a) (key b) == .lt) = back := by
    rw [List.filter_eq_self]
    intro b hb
    rw [hback b hb]
    rfl
  rw [List.filter_append, hnone, List.nil_append, List.filter_cons, hself]
  exact hall

/-- Elements that tie stay in their order. -/
theorem sublist_sortBy (hsub : [a, b].Sublist l) (htie : cmp (key a) (key b) = .eq) :
    [a, b].Sublist (sortBy cmp key l) := by
  refine List.sublist_mergeSort notAfter_trans notAfter_total ?_ hsub
  rw [List.pairwise_pair, notAfter_iff, htie]
  rfl

omit [Std.TransCmp cmp] in
theorem pair_sublist_or (ha : a ∈ l) (hb : b ∈ l) (hne : a ≠ b) :
    [a, b].Sublist l ∨ [b, a].Sublist l := by
  obtain ⟨front, back, rfl⟩ := List.append_of_mem ha
  rcases List.mem_append.mp hb with hfront | hback
  · exact Or.inr (List.Sublist.append (List.singleton_sublist.mpr hfront)
      (List.singleton_sublist.mpr List.mem_cons_self))
  · rcases List.mem_cons.mp hback with rfl | hrest
    · exact absurd rfl hne
    · exact Or.inl (((List.singleton_sublist.mpr hrest).cons_cons a).trans
        (List.sublist_append_right _ _))

omit [Std.TransCmp cmp] in
/-- Two different elements of a list stand in one order only. -/
theorem not_both_sublist
    {l : List κ} {a b : κ}
    (hdistinct : l.Nodup)
    (hne : a ≠ b)
    (hab : [a, b].Sublist l) :
    ¬ [b, a].Sublist l := by
  intro hba
  induction l with
  | nil => cases hab
  | cons x l ih =>
      rw [List.nodup_cons] at hdistinct
      by_cases hx : a = x
      · subst hx
        have hrest : [b, a].Sublist l := by
          rcases List.sublist_cons_iff.mp hba with hrest | ⟨r, hr, -⟩
          · exact hrest
          · exact absurd (List.cons.inj hr).1.symm hne
        exact hdistinct.1 (hrest.subset (by simp))
      · have hrest : [a, b].Sublist l := by
          rcases List.sublist_cons_iff.mp hab with hrest | ⟨r, hr, -⟩
          · exact hrest
          · exact absurd (List.cons.inj hr).1 hx
        rcases List.sublist_cons_iff.mp hba with hother | ⟨r, hr, -⟩
        · exact ih hdistinct.2 hrest hother
        · rw [← (List.cons.inj hr).1] at hdistinct
          exact hdistinct.1 (hrest.subset (by simp))

/-- A list with a tie sorts differently when it is reversed. -/
theorem sortBy_reverse_ne
    (hdistinct : (l.map key).Nodup)
    (ha : a ∈ l)
    (hb : b ∈ l)
    (hne : key a ≠ key b)
    (htie : cmp (key a) (key b) = .eq) :
    (sortBy cmp key l.reverse).map key ≠ (sortBy cmp key l).map key := by
  intro hsame
  have hswap : cmp (key b) (key a) = .eq := by
    have hflip : cmp (key b) (key a) = (cmp (key a) (key b)).swap := Std.OrientedCmp.eq_swap
    rw [hflip, htie]
    rfl
  have hnodup : ((sortBy cmp key l).map key).Nodup :=
    ((sortBy_perm cmp key l).map key).nodup_iff.mpr hdistinct
  rcases pair_sublist_or ha hb (fun h => hne (congrArg key h)) with hsub | hsub
  · have hforward := (sublist_sortBy hsub htie).map key
    have hbackward := (sublist_sortBy (List.reverse_sublist.mpr hsub) hswap).map key
    rw [hsame] at hbackward
    exact not_both_sublist hnodup hne hforward hbackward
  · have hforward := (sublist_sortBy hsub hswap).map key
    have hbackward := (sublist_sortBy (List.reverse_sublist.mpr hsub) htie).map key
    rw [hsame] at hbackward
    exact not_both_sublist hnodup hne hbackward hforward

end StableSort

end StableSort
end Lib
end NestBase
