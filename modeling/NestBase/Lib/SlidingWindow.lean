import Mathlib.Algebra.Order.Group.Basic
import Mathlib.Data.Rat.Defs
import Mathlib.Order.Bounds.Basic
import Mathlib.Tactic

/-!
# Sliding windows over a list of times

The window of length `w` that ends at `t` is the half-open interval
`(t - w, t]`.  `fresh w t` keeps the times that are later than `t - w`; on times
up to `t` these are the times in the window.

A counter that stores times and prunes them with `fresh` loses nothing: pruning
at an earlier end does not change what is fresh at a later one (`fresh_fresh`).
When the stored times are in order, the number of fresh ones stays as it is
until the first of them leaves the window (`fresh_length_lt_iff`).
-/

namespace NestBase
namespace Lib
namespace SlidingWindow

universe u

section SlidingWindow

variable {Time : Type u}
variable [AddCommGroup Time] [LinearOrder Time]

/-- The times later than the lower end of the window. -/
def fresh (w t : Time) (times : List Time) : List Time :=
  times.filter fun s => decide (t - w < s)

/-- The times in the window `(t - w, t]`. -/
def inWindow (w t : Time) (times : List Time) : List Time :=
  times.filter fun s => decide (t - w < s ∧ s ≤ t)

@[simp] theorem mem_fresh_iff {w t s : Time} {times : List Time} :
    s ∈ fresh w t times ↔ s ∈ times ∧ t - w < s := by
  simp [fresh]

theorem fresh_sublist (w t : Time) (times : List Time) : (fresh w t times).Sublist times :=
  List.filter_sublist

theorem fresh_append (w t : Time) (xs ys : List Time) :
    fresh w t (xs ++ ys) = fresh w t xs ++ fresh w t ys :=
  List.filter_append xs ys

/-- On times that are not ahead of its end the window has no other bound. -/
theorem inWindow_eq_fresh {w t : Time} {times : List Time} (hpast : ∀ s ∈ times, s ≤ t) :
    inWindow w t times = fresh w t times := by
  refine List.filter_congr ?_
  intro s hs
  simp [hpast s hs]

variable [IsOrderedAddMonoid Time]

/-- Pruning at an earlier end does not change what is fresh later. -/
theorem fresh_fresh {w t t' : Time} (hle : t ≤ t') (times : List Time) :
    fresh w t' (fresh w t times) = fresh w t' times := by
  unfold fresh
  rw [List.filter_filter]
  refine List.filter_congr ?_
  intro s _
  have hends : t - w ≤ t' - w := sub_le_sub_right hle w
  by_cases hs : t' - w < s
  · simp [hs, lt_of_le_of_lt hends hs]
  · simp [hs]

/--
As long as the first of the fresh times is in the window, so are all of them;
when it has left, at least one is gone.
-/
theorem fresh_length_lt_iff
    {w oldest : Time} {rest : List Time}
    (hsorted : (oldest :: rest).Pairwise (· ≤ ·))
    {limit : ℚ}
    (hfull : limit ≤ ((oldest :: rest).length : ℚ))
    (hleast : ((oldest :: rest).length : ℚ) < limit + 1)
    (t : Time) :
    ((fresh w t (oldest :: rest)).length : ℚ) < limit ↔ oldest + w ≤ t := by
  constructor
  · intro hlt
    by_contra hearly
    have hfirst : t - w < oldest := sub_lt_iff_lt_add.mpr (not_le.mp hearly)
    have hall : fresh w t (oldest :: rest) = oldest :: rest := by
      refine List.filter_eq_self.mpr ?_
      intro s hs
      have hle : oldest ≤ s := by
        rcases List.mem_cons.mp hs with rfl | hrest
        · exact le_rfl
        · exact (List.pairwise_cons.mp hsorted).1 s hrest
      simpa using lt_of_lt_of_le hfirst hle
    rw [hall] at hlt
    exact absurd hfull (not_le.mpr hlt)
  · intro hlate
    have hgone : ¬ t - w < oldest := not_lt.mpr (le_sub_iff_add_le.mpr hlate)
    have hdrop : fresh w t (oldest :: rest) = fresh w t rest := by
      simp [fresh, hgone]
    have hrest : (fresh w t rest).length ≤ rest.length := (fresh_sublist w t rest).length_le
    have hcount : ((fresh w t rest).length : ℚ) ≤ (rest.length : ℚ) := by exact_mod_cast hrest
    rw [hdrop]
    have hcons : ((oldest :: rest).length : ℚ) = (rest.length : ℚ) + 1 := by simp
    linarith

end SlidingWindow

end SlidingWindow
end Lib
end NestBase
