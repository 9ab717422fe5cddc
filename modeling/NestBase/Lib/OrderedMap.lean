import Mathlib.Data.List.Nodup
import Mathlib.Tactic

/-!
# Maps that keep their insertion order

A map of the script runtime as the list of its entries, oldest first.  `set`
keeps the place of a key that is present and appends a new one.

`Record` is such a list whose keys are pairwise different: the own fields of an
object, or a row of a database.  `Record.assign` writes every field of one
record into another, and `Record.get_assign` says what each field holds then.
-/

namespace NestBase
namespace Lib
namespace OrderedMap

universe u v

section OrderedMap

variable {κ : Type u}
variable {α : Type v}
variable [DecidableEq κ]

def get (key : κ) (entries : List (κ × α)) : Option α :=
  (entries.find? fun entry => entry.1 = key).map Prod.snd

def delete (key : κ) (entries : List (κ × α)) : List (κ × α) :=
  entries.filter fun entry => entry.1 ≠ key

def set (key : κ) (value : α) (entries : List (κ × α)) : List (κ × α) :=
  if entries.any fun entry => entry.1 = key then
    entries.map fun entry => if entry.1 = key then (key, value) else entry
  else entries ++ [(key, value)]

variable {entries : List (κ × α)}
variable {key : κ}
variable {value : α}

theorem mem_of_get (h : get key entries = some value) :
    (key, value) ∈ entries := by
  obtain ⟨⟨found, value'⟩, hfind, rfl⟩ := Option.map_eq_some_iff.mp h
  have hkey : found = key := by simpa using List.find?_some hfind
  subst hkey
  exact List.mem_of_find?_eq_some hfind

theorem mem_delete_iff {entry : κ × α} :
    entry ∈ delete key entries ↔ entry ∈ entries ∧ entry.1 ≠ key := by
  simp [delete]

/-- An entry of the map after `set` is the new one or an old one. -/
theorem mem_set {entry : κ × α} (h : entry ∈ set key value entries) :
    entry = (key, value) ∨ entry ∈ entries := by
  unfold set at h
  split at h
  · obtain ⟨old, hold, rfl⟩ := List.mem_map.mp h
    split
    · exact Or.inl rfl
    · exact Or.inr hold
  · rcases List.mem_append.mp h with hold | hnew
    · exact Or.inr hold
    · exact Or.inl (List.mem_singleton.mp hnew)

theorem mem_set_of_ne {entry : κ × α} (hmem : entry ∈ entries) (hne : entry.1 ≠ key) :
    entry ∈ set key value entries := by
  unfold set
  split
  · exact List.mem_map.mpr ⟨entry, hmem, if_neg hne⟩
  · exact List.mem_append_left _ hmem

theorem get_cons (key : κ) (entry : κ × α) (entries : List (κ × α)) :
    get key (entry :: entries) = if entry.1 = key then some entry.2 else get key entries := by
  unfold get
  rw [List.find?_cons]
  by_cases hkey : entry.1 = key <;> simp [hkey]

theorem get_eq_none_iff :
    get key entries = none ↔ key ∉ entries.map Prod.fst := by
  simp only [get, Option.map_eq_none_iff, List.find?_eq_none, decide_eq_true_eq, List.mem_map,
    not_exists, not_and]

theorem get_append (key : κ) (xs ys : List (κ × α)) :
    get key (xs ++ ys) = (get key xs).or (get key ys) := by
  unfold get
  rw [List.find?_append]
  cases xs.find? fun entry => entry.1 = key <;> rfl

/-- Replacing the value of a key keeps every entry under its key. -/
theorem get_replace (key other : κ) (value : α) (entries : List (κ × α)) :
    get other (entries.map fun entry => if entry.1 = key then (key, value) else entry) =
      (get other entries).map fun old => if key = other then value else old := by
  have hsame :
      ((fun entry : κ × α => decide (entry.1 = other)) ∘
          fun entry => if entry.1 = key then (key, value) else entry) =
        fun entry => decide (entry.1 = other) := by
    funext entry
    simp only [Function.comp_apply]
    split
    · next h => rw [h]
    · rfl
  unfold get
  rw [List.find?_map, hsame, Option.map_map, Option.map_map]
  cases hfind : entries.find? fun entry => decide (entry.1 = other) with
  | none => rfl
  | some found =>
      have hfound : found.1 = other := by simpa using List.find?_some hfind
      simp only [Option.map_some, Function.comp_apply, hfound, eq_comm (a := other)]
      split <;> rfl

/-- `set` writes the value under its key and no other. -/
theorem get_set (key other : κ) (value : α) (entries : List (κ × α)) :
    get other (set key value entries) = if key = other then some value else get other entries := by
  unfold set
  split
  · next hany =>
    rw [get_replace]
    by_cases hother : key = other
    · subst hother
      have hsome : get key entries ≠ none := by
        rw [Ne, get_eq_none_iff]
        simpa using hany
      obtain ⟨old, hold⟩ := Option.ne_none_iff_exists'.mp hsome
      simp [hold]
    · simp [hother]
  · next hnone =>
    have hfree : get key entries = none := by
      rw [get_eq_none_iff]
      simpa using hnone
    rw [get_append, get_cons]
    by_cases hother : key = other
    · subst hother
      simp [hfree]
    · simp [hother, get]

/-- `set` keeps the keys in their order and appends a new one. -/
theorem keys_set (key : κ) (value : α) (entries : List (κ × α)) :
    (set key value entries).map Prod.fst =
      if key ∈ entries.map Prod.fst then entries.map Prod.fst
      else entries.map Prod.fst ++ [key] := by
  have hany :
      (entries.any fun entry => decide (entry.1 = key)) = decide (key ∈ entries.map Prod.fst) := by
    rw [Bool.eq_iff_iff]
    simp only [List.any_eq_true, decide_eq_true_eq, List.mem_map]
  unfold set
  rw [hany]
  by_cases hmem : key ∈ entries.map Prod.fst
  · simp only [hmem, decide_true, if_true, List.map_map]
    refine List.map_congr_left ?_
    intro entry _
    simp only [Function.comp_apply]
    split
    · next h => exact h.symm
    · rfl
  · simp only [hmem, decide_false, Bool.false_eq_true, if_false, List.map_append,
      List.map_singleton]

theorem keys_set_of_get {old : α} (hold : get key entries = some old) (value : α) :
    (set key value entries).map Prod.fst = entries.map Prod.fst := by
  have hmem : key ∈ entries.map Prod.fst := by
    by_contra hfree
    rw [get_eq_none_iff.mpr hfree] at hold
    cases hold
  rw [keys_set, if_pos hmem]

/-- `set` adds at most the one key. -/
theorem nodup_set (hdistinct : (entries.map Prod.fst).Nodup) :
    ((set key value entries).map Prod.fst).Nodup := by
  rw [keys_set]
  split
  · exact hdistinct
  · next hfree =>
    exact List.Nodup.append hdistinct (List.nodup_singleton key) (by simpa using hfree)

theorem delete_of_not_mem (h : key ∉ entries.map Prod.fst) :
    delete key entries = entries := by
  refine List.filter_eq_self.mpr fun entry hmem => ?_
  have hne : entry.1 ≠ key := fun hkey => h (hkey ▸ List.mem_map_of_mem hmem)
  simpa using hne

theorem perm_of_get
    {old : α}
    (hdistinct : (entries.map Prod.fst).Nodup)
    (hold : get key entries = some old) :
    entries.Perm ((key, old) :: delete key entries) := by
  induction entries with
  | nil => cases hold
  | cons entry entries ih =>
      rw [List.map_cons, List.nodup_cons] at hdistinct
      rw [get_cons] at hold
      by_cases hkey : entry.1 = key
      · rw [if_pos hkey] at hold
        obtain rfl := Option.some.inj hold
        subst hkey
        have hdelete : delete entry.1 (entry :: entries) = entries := by
          rw [← delete_of_not_mem hdistinct.1]
          simp [delete]
        rw [hdelete]
      · rw [if_neg hkey] at hold
        have hdelete : delete key (entry :: entries) = entry :: delete key entries := by
          simp [delete, hkey]
        rw [hdelete]
        exact ((ih hdistinct.2 hold).cons entry).trans (List.Perm.swap _ _ _)

/-- Up to order `set` puts the value in the place of the old one. -/
theorem set_perm (hdistinct : (entries.map Prod.fst).Nodup) (value : α) :
    (set key value entries).Perm ((key, value) :: delete key entries) := by
  cases hold : get key entries with
  | none =>
      have hfree := get_eq_none_iff.mp hold
      have hany : (entries.any fun entry => decide (entry.1 = key)) = false := by
        rw [List.any_eq_false]
        intro entry hmem hkey
        exact hfree (of_decide_eq_true hkey ▸ List.mem_map_of_mem hmem)
      rw [set, hany, delete_of_not_mem hfree]
      exact List.perm_append_singleton _ _
  | some old =>
      have hmem := mem_of_get hold
      have hany : (entries.any fun entry => decide (entry.1 = key)) = true :=
        List.any_eq_true.mpr ⟨_, hmem, by simp⟩
      rw [set, hany, if_pos rfl]
      have hkeep : ∀ entry ∈ delete key entries,
          (if entry.1 = key then (key, value) else entry) = id entry := fun entry hentry =>
        if_neg (mem_delete_iff.mp hentry).2
      have hmap := (perm_of_get hdistinct hold).map fun entry =>
        if entry.1 = key then (key, value) else entry
      rwa [List.map_cons, if_pos rfl, List.map_congr_left hkeep, List.map_id] at hmap

/-- With different keys the value found under a key is the one of its entry. -/
theorem get_of_mem (hdistinct : (entries.map Prod.fst).Nodup) (hmem : (key, value) ∈ entries) :
    get key entries = some value := by
  induction entries with
  | nil => cases hmem
  | cons entry entries ih =>
      rw [List.map_cons, List.nodup_cons] at hdistinct
      rw [get_cons]
      rcases List.mem_cons.mp hmem with rfl | hrest
      · simp
      · have hne : entry.1 ≠ key := by
          intro h
          exact hdistinct.1 (h ▸ List.mem_map_of_mem hrest)
        rw [if_neg hne]
        exact ih hdistinct.2 hrest

end OrderedMap

end OrderedMap

/-! ## Records -/

/-- The fields of an object, oldest first. -/
structure Record (κ : Type u) (α : Type v) where
  entries : List (κ × α)
  distinct : (entries.map Prod.fst).Nodup
  deriving DecidableEq

namespace Record

section Record

variable {κ : Type u}
variable {α : Type v}

def empty : Record κ α where
  entries := []
  distinct := List.nodup_nil

/-- The field names, in the order of `Object.keys`. -/
def keys (record : Record κ α) : List κ :=
  record.entries.map Prod.fst

variable [DecidableEq κ]

def get (record : Record κ α) (key : κ) : Option α :=
  OrderedMap.get key record.entries

def set (record : Record κ α) (key : κ) (value : α) : Record κ α where
  entries := OrderedMap.set key value record.entries
  distinct := OrderedMap.nodup_set record.distinct

/-- Write every field of `data` into the record. -/
def assign (record data : Record κ α) : Record κ α :=
  data.entries.foldl (fun record entry => record.set entry.1 entry.2) record

@[simp] theorem get_empty (key : κ) : (empty : Record κ α).get key = none := rfl

theorem get_set (record : Record κ α) (key other : κ) (value : α) :
    (record.set key value).get other = if key = other then some value else record.get other :=
  OrderedMap.get_set key other value record.entries

variable {key : κ}

theorem get_eq_none_iff {record : Record κ α} :
    record.get key = none ↔ key ∉ record.keys :=
  OrderedMap.get_eq_none_iff

/-- A record is its field names in order and what each of them holds. -/
theorem ext_get
    {xs ys : Record κ α}
    (hkeys : xs.keys = ys.keys)
    (hget : ∀ key, xs.get key = ys.get key) :
    xs = ys := by
  obtain ⟨xs, hxs⟩ := xs
  obtain ⟨ys, hys⟩ := ys
  simp only [keys] at hkeys
  simp only [get] at hget
  congr 1
  refine List.ext_getElem (by simpa using congrArg List.length hkeys) ?_
  intro n hx hy
  have hkey : (xs.get ⟨n, hx⟩).1 = (ys.get ⟨n, hy⟩).1 := by
    have h := congrArg (fun names => names[n]?) hkeys
    simpa [hx, hy] using h
  have hleft := OrderedMap.get_of_mem hxs (List.get_mem xs ⟨n, hx⟩)
  have hright := OrderedMap.get_of_mem hys (List.get_mem ys ⟨n, hy⟩)
  rw [hget, hkey, hright] at hleft
  exact Prod.ext hkey (Option.some.inj hleft).symm

theorem keys_set_of_get
    {record : Record κ α} {old : α}
    (hold : record.get key = some old)
    (value : α) :
    (record.set key value).keys = record.keys :=
  OrderedMap.keys_set_of_get hold value

theorem keys_set (record : Record κ α) (key : κ) (value : α) :
    (record.set key value).keys =
      if key ∈ record.keys then record.keys else record.keys ++ [key] :=
  OrderedMap.keys_set key value record.entries

/-- A field of `data` overrides, every other field keeps its value. -/
theorem get_assign (record data : Record κ α) (key : κ) :
    (record.assign data).get key = (data.get key).or (record.get key) := by
  obtain ⟨entries, hdistinct⟩ := data
  unfold assign
  change _ = (OrderedMap.get key entries).or (record.get key)
  dsimp only
  induction entries generalizing record with
  | nil => rfl
  | cons entry entries ih =>
      rw [List.map_cons, List.nodup_cons] at hdistinct
      rw [List.foldl_cons, ih (record.set entry.1 entry.2) hdistinct.2, get_set,
        OrderedMap.get_cons]
      by_cases hkey : entry.1 = key
      · subst hkey
        have hfree : OrderedMap.get entry.1 entries = none :=
          OrderedMap.get_eq_none_iff.mpr hdistinct.1
        simp [hfree]
      · simp [hkey]

/-- The fields of `data` that the record lacks come last. -/
theorem keys_assign (record data : Record κ α) :
    (record.assign data).keys =
      record.keys ++ data.keys.filter fun key => decide (key ∉ record.keys) := by
  obtain ⟨entries, hdistinct⟩ := data
  unfold assign
  change _ = record.keys ++ (entries.map Prod.fst).filter _
  dsimp only
  induction entries generalizing record with
  | nil => simp
  | cons entry entries ih =>
      rw [List.map_cons, List.nodup_cons] at hdistinct
      rw [List.foldl_cons, ih (record.set entry.1 entry.2) hdistinct.2, keys_set, List.map_cons,
        List.filter_cons]
      by_cases hmem : entry.1 ∈ record.keys
      · simp [hmem]
      · have hrest :
            ((entries.map Prod.fst).filter fun key => decide (key ∉ record.keys ++ [entry.1])) =
              (entries.map Prod.fst).filter fun key => decide (key ∉ record.keys) := by
          refine List.filter_congr ?_
          intro key hkey
          have hne : key ≠ entry.1 := fun h => hdistinct.1 (h ▸ hkey)
          simp [hne]
        simp only [hmem, if_false, not_false_eq_true, decide_true, if_true, hrest,
          List.append_assoc, List.singleton_append]

/-- Change every value by itself. -/
def map (change : α → α) (record : Record κ α) : Record κ α where
  entries := record.entries.map fun entry => (entry.1, change entry.2)
  distinct := by
    rw [List.map_map]
    exact record.distinct

@[simp] theorem get_map (change : α → α) (record : Record κ α) (key : κ) :
    (record.map change).get key = (record.get key).map change := by
  simp only [get, map, OrderedMap.get, List.find?_map, Option.map_map]
  rfl

/-- The fields whose names pass a test. -/
def restrict (keep : κ → Bool) (record : Record κ α) : Record κ α where
  entries := record.entries.filter fun entry => keep entry.1
  distinct := record.distinct.sublist (List.filter_sublist.map Prod.fst)

omit [DecidableEq κ] in
theorem keys_restrict (keep : κ → Bool) (record : Record κ α) :
    (record.restrict keep).keys = record.keys.filter keep := by
  simp only [keys, restrict, List.filter_map]
  rfl

theorem get_restrict (keep : κ → Bool) (record : Record κ α) (key : κ) :
    (record.restrict keep).get key = if keep key then record.get key else none := by
  simp only [get, restrict, OrderedMap.get, List.find?_filter]
  by_cases hkeep : keep key = true
  · have hsame :
        (fun entry : κ × α => keep entry.1 && decide (entry.1 = key)) =
          fun entry => decide (entry.1 = key) := by
      funext entry
      by_cases h : entry.1 = key <;> simp [h, hkeep]
    simp [hsame, hkeep]
  · rw [if_neg hkeep, Option.map_eq_none_iff, List.find?_eq_none]
    intro entry _
    by_cases h : entry.1 = key <;> simp [h, hkeep]

theorem get_eq_some_iff_mem {record : Record κ α} {value : α} :
    record.get key = some value ↔ (key, value) ∈ record.entries :=
  ⟨OrderedMap.mem_of_get, OrderedMap.get_of_mem record.distinct⟩

/-- A field that is not kept is not missed. -/
theorem restrict_set_of_not_keep
    {keep : κ → Bool}
    (hkeep : keep key = false)
    (record : Record κ α) (value : α) :
    (record.set key value).restrict keep = record.restrict keep := by
  refine ext_get ?_ ?_
  · rw [keys_restrict, keys_restrict, keys_set]
    split
    · rfl
    · simp [hkeep]
  · intro other
    rw [get_restrict, get_restrict, get_set]
    split
    · next hother =>
      rw [if_neg]
      rintro rfl
      rw [hkeep] at hother
      cases hother
    · rfl

/-- Fields that are all kept can be written before or after the others are dropped. -/
theorem restrict_assign
    {keep : κ → Bool}
    (record data : Record κ α)
    (hkeep : ∀ key ∈ data.keys, keep key = true) :
    (record.assign data).restrict keep = (record.restrict keep).assign data := by
  refine ext_get ?_ ?_
  · rw [keys_restrict, keys_assign, keys_assign, keys_restrict, List.filter_append,
      List.filter_filter]
    congr 1
    refine List.filter_congr fun key hkey => ?_
    have hkept := hkeep key hkey
    simp [hkept, List.mem_filter]
  · intro key
    rw [get_restrict, get_assign, get_assign, get_restrict]
    split
    · rfl
    · next hnot =>
      have hfree : data.get key = none :=
        get_eq_none_iff.mpr fun hmem => hnot (hkeep key hmem)
      rw [hfree, Option.none_or]

@[simp] theorem empty_assign (data : Record κ α) : (empty : Record κ α).assign data = data := by
  refine ext_get ?_ ?_
  · rw [keys_assign]
    simp [empty, keys]
  · intro key
    rw [get_assign, get_empty, Option.or_none]

/-! ### Many writes -/

section Writes

variable {ι : Type*}

/-- Write every item under its key. -/
def writeAll (key : ι → κ) (value : ι → α) (items : List ι) (record : Record κ α) : Record κ α :=
  items.foldl (fun record item => record.set (key item) (value item)) record

def remove (key : κ) (record : Record κ α) : Record κ α :=
  record.restrict fun other => other ≠ key

def removeAll (keys : List κ) (record : Record κ α) : Record κ α :=
  keys.foldl (fun record key => record.remove key) record

theorem get_remove (record : Record κ α) (key other : κ) :
    (record.remove key).get other = if other = key then none else record.get other := by
  rw [remove, get_restrict]
  by_cases hother : other = key <;> simp [hother]

theorem get_removeAll (keys : List κ) (record : Record κ α) (key : κ) :
    (record.removeAll keys).get key = if key ∈ keys then none else record.get key := by
  unfold removeAll
  induction keys generalizing record with
  | nil => simp
  | cons first rest ih =>
      rw [List.foldl_cons, ih, get_remove]
      by_cases hfirst : key = first <;> simp [hfirst]

theorem get_writeAll_of_unnamed
    {key : ι → κ} {value : ι → α} {items : List ι} {k : κ}
    (hunnamed : ∀ item ∈ items, key item ≠ k)
    (record : Record κ α) :
    (record.writeAll key value items).get k = record.get k := by
  unfold writeAll
  induction items generalizing record with
  | nil => rfl
  | cons first rest ih =>
      rw [List.foldl_cons, ih fun item hitem => hunnamed item (List.mem_cons_of_mem _ hitem),
        get_set, if_neg (hunnamed first List.mem_cons_self)]

/-- A key some item is written under holds one of the items written there. -/
theorem get_writeAll_of_named
    {key : ι → κ} {value : ι → α} {items : List ι} {k : κ}
    (hnamed : ∃ item ∈ items, key item = k)
    (record : Record κ α) :
    ∃ item ∈ items, key item = k ∧ (record.writeAll key value items).get k = some (value item) := by
  induction items generalizing record with
  | nil =>
      obtain ⟨item, hitem, -⟩ := hnamed
      cases hitem
  | cons first rest ih =>
      by_cases hrest : ∃ item ∈ rest, key item = k
      · obtain ⟨item, hitem, hkey, hget⟩ := ih hrest (record.set (key first) (value first))
        exact ⟨item, List.mem_cons_of_mem _ hitem, hkey, hget⟩
      · push Not at hrest
        obtain ⟨item, hitem, hkey⟩ := hnamed
        rcases List.mem_cons.mp hitem with rfl | hlater
        · refine ⟨item, List.mem_cons_self, hkey, ?_⟩
          have hlast :
              ((record.set (key item) (value item)).writeAll key value rest).get k =
                (record.set (key item) (value item)).get k :=
            get_writeAll_of_unnamed hrest _
          rw [get_set, if_pos hkey] at hlast
          exact hlast
        · exact absurd hkey (hrest item hlater)

end Writes

end Record

end Record

end Lib
end NestBase
