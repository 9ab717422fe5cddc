import NestBase.Lib.OrderedMap

/-!
# Maps ordered by recency

A map of the script runtime keeps its entries in the order of their insertion.
A cache that deletes an entry before it writes it again keeps them in the order
of their last use: `renew` is that pair of operations, and `ByRecency lastUse`
says that the entries stand in the order of the stamps `lastUse` gives their
keys.
-/

namespace NestBase
namespace Lib
namespace OrderedMap

universe u v

section Recency

variable {κ : Type u}
variable {α : Type v}
variable [DecidableEq κ]

/-- Write an entry and make it the newest. -/
def renew (key : κ) (value : α) (entries : List (κ × α)) : List (κ × α) :=
  delete key entries ++ [(key, value)]

theorem get_delete_self (key : κ) (entries : List (κ × α)) : get key (delete key entries) = none := by
  rw [get_eq_none_iff]
  intro hmem
  obtain ⟨entry, hentry, hkey⟩ := List.mem_map.mp hmem
  exact (mem_delete_iff.mp hentry).2 hkey

variable {key other : κ}
variable {entries : List (κ × α)}

theorem set_of_get_eq_none (hfree : get key entries = none) (value : α) :
    set key value entries = entries ++ [(key, value)] := by
  unfold set
  rw [if_neg]
  simpa using get_eq_none_iff.mp hfree

/-- Deleting and setting is renewing. -/
theorem set_delete (key : κ) (value : α) (entries : List (κ × α)) :
    set key value (delete key entries) = renew key value entries :=
  set_of_get_eq_none (get_delete_self key entries) value

theorem delete_eq_self (hfree : get key entries = none) :
    delete key entries = entries := by
  refine List.filter_eq_self.mpr ?_
  intro entry hentry
  have hne : entry.1 ≠ key := by
    rintro rfl
    exact get_eq_none_iff.mp hfree (List.mem_map_of_mem hentry)
  simpa using hne

theorem get_delete_of_ne (hne : key ≠ other) (entries : List (κ × α)) :
    get other (delete key entries) = get other entries := by
  induction entries with
  | nil => rfl
  | cons entry entries ih =>
      by_cases hkey : entry.1 = key
      · have hother : entry.1 ≠ other := fun h => hne (hkey.symm.trans h)
        have hdrop : delete key (entry :: entries) = delete key entries := by
          simp [delete, hkey]
        rw [hdrop, ih, get_cons, if_neg hother]
      · have hkeep : delete key (entry :: entries) = entry :: delete key entries := by
          simp [delete, hkey]
        rw [hkeep, get_cons, get_cons, ih]

/-- `renew` writes the value under its key and no other. -/
theorem get_renew (key other : κ) (value : α) (entries : List (κ × α)) :
    get other (renew key value entries) =
      if key = other then some value else get other entries := by
  rw [← set_delete, get_set]
  split
  · rfl
  · next hne => exact get_delete_of_ne hne entries

theorem keys_renew_nodup (hdistinct : (entries.map Prod.fst).Nodup) (key : κ) (value : α) :
    ((renew key value entries).map Prod.fst).Nodup := by
  rw [← set_delete]
  exact nodup_set (hdistinct.sublist (List.filter_sublist.map Prod.fst))

theorem mem_keys_renew {value : α} (hmem : other ∈ (renew key value entries).map Prod.fst) :
    other = key ∨ other ∈ entries.map Prod.fst := by
  rw [renew, List.map_append, List.mem_append] at hmem
  rcases hmem with hold | hnew
  · exact Or.inr ((List.filter_sublist.map Prod.fst).subset hold)
  · exact Or.inl (List.mem_singleton.mp hnew)

theorem mem_keys_renew_of_mem (hmem : other ∈ entries.map Prod.fst) (value : α) :
    other ∈ (renew key value entries).map Prod.fst := by
  by_cases hkey : other = key
  · simp [renew, hkey]
  · obtain ⟨entry, hentry, rfl⟩ := List.mem_map.mp hmem
    exact List.mem_map_of_mem (List.mem_append_left _ (mem_delete_iff.mpr ⟨hentry, hkey⟩))

/-- Renewing an entry that is there adds none. -/
theorem length_renew_of_mem (hmem : key ∈ entries.map Prod.fst) (value : α) :
    (renew key value entries).length ≤ entries.length := by
  obtain ⟨entry, hentry, hkey⟩ := List.mem_map.mp hmem
  have hshorter : (delete key entries).length < entries.length :=
    List.length_filter_lt_length_iff_exists.mpr ⟨entry, hentry, by simpa using hkey⟩
  rw [renew, List.length_append, List.length_singleton]
  omega

/-- Setting a key that is new, or that is the newest already, is renewing it. -/
theorem set_eq_renew
    (hdistinct : (entries.map Prod.fst).Nodup)
    (hplace : key ∉ entries.map Prod.fst ∨ (entries.map Prod.fst).getLast? = some key)
    (value : α) :
    set key value entries = renew key value entries := by
  rcases hplace with hfree | hlast
  · have hnone : get key entries = none := get_eq_none_iff.mpr hfree
    rw [renew, delete_eq_self hnone, set_of_get_eq_none hnone]
  · rw [List.getLast?_map, Option.map_eq_some_iff] at hlast
    obtain ⟨newest, hnewest, hkey⟩ := hlast
    obtain ⟨front, rfl⟩ := List.getLast?_eq_some_iff.mp hnewest
    rw [List.map_append, List.nodup_append] at hdistinct
    have hfree : ∀ entry ∈ front, entry.1 ≠ key := by
      intro entry hentry
      rw [← hkey]
      exact hdistinct.2.2 entry.1 (List.mem_map_of_mem hentry) _ (List.mem_singleton_self _)
    have hdelete : delete key (front ++ [newest]) = front := by
      unfold delete
      rw [List.filter_append, List.filter_eq_self.mpr (by simpa using hfree)]
      simp [hkey]
    have hmap : (front.map fun entry => if entry.1 = key then (key, value) else entry) = front := by
      refine (List.map_congr_left fun entry hentry => ?_).trans (List.map_id front)
      exact if_neg (hfree entry hentry)
    rw [renew, hdelete, set, if_pos (by simp [hkey]), List.map_append, hmap]
    simp [hkey]

/-! ## The order of last use -/

/-- The entries stand in the order of the stamps of their keys, the oldest first. -/
def ByRecency (lastUse : κ → Nat) (entries : List (κ × α)) : Prop :=
  entries.Pairwise fun older newer => lastUse older.1 < lastUse newer.1

omit [DecidableEq κ] in
theorem ByRecency.sublist
    {lastUse : κ → Nat} {rest : List (κ × α)}
    (hsorted : ByRecency lastUse entries)
    (hsub : rest.Sublist entries) :
    ByRecency lastUse rest :=
  List.Pairwise.sublist hsub hsorted

/-- A renewed entry that gets a stamp above all others is in its place. -/
theorem ByRecency.renew
    {lastUse : κ → Nat} {now : Nat}
    (hsorted : ByRecency lastUse entries)
    (hpast : ∀ entry ∈ entries, lastUse entry.1 < now)
    (value : α) :
    ByRecency (Function.update lastUse key now) (renew key value entries) := by
  have hold : ∀ entry ∈ delete key entries,
      Function.update lastUse key now entry.1 = lastUse entry.1 := by
    intro entry hentry
    exact Function.update_of_ne (mem_delete_iff.mp hentry).2 now lastUse
  refine List.pairwise_append.mpr ⟨?_, List.pairwise_singleton _ _, ?_⟩
  · refine List.Pairwise.imp_of_mem ?_ (hsorted.sublist List.filter_sublist)
    intro older newer holder hnewer hlt
    rw [hold older holder, hold newer hnewer]
    exact hlt
  · intro older holder newer hnewer
    have hnew : newer = (key, value) := List.mem_singleton.mp hnewer
    rw [hold older holder, hnew, Function.update_self]
    exact hpast older (mem_delete_iff.mp holder).1

end Recency

end OrderedMap
end Lib
end NestBase
