import Mathlib.Data.List.Nodup
import Mathlib.Tactic

/-!
# Tables with a unique key

A table is the list of its rows.  Rows are addressed by a key; an insert of a
key that is already there fails, so every table built from the empty one by
`insertRow` and by key-preserving `updateMany`s has pairwise different keys
(`KeysNodup`).

`updateMany` is the conditional update of a database client: it changes every
row that matches a condition and reports how many matched.
-/

namespace NestBase
namespace Lib

universe u v

section Table

variable {ρ : Type u}
variable {κ : Type v} [DecidableEq κ]
variable (key : ρ → κ)

/-- The row with the given key. -/
def findRow (k : κ) (rows : List ρ) : Option ρ :=
  rows.find? fun row => decide (key row = k)

/-- All rows have different keys. -/
def KeysNodup (rows : List ρ) : Prop :=
  (rows.map key).Nodup

/-- Append a row unless its key is taken. -/
def insertRow (row : ρ) (rows : List ρ) : Option (List ρ) :=
  if (findRow key (key row) rows).isSome then none else some (rows ++ [row])

/-- Change every matching row. -/
def updateMany (matching : ρ → Bool) (change : ρ → ρ) (rows : List ρ) : List ρ :=
  rows.map fun row => if matching row then change row else row

/-- Number of rows an `updateMany` changes. -/
def updateCount (matching : ρ → Bool) (rows : List ρ) : Nat :=
  rows.countP matching

variable {key}
variable {k : κ}
variable {rows rows' : List ρ}
variable {row : ρ}

theorem key_of_findRow (h : findRow key k rows = some row) :
    key row = k := by
  simpa using List.find?_some h

theorem mem_of_findRow (h : findRow key k rows = some row) :
    row ∈ rows :=
  List.mem_of_find?_eq_some h

theorem findRow_eq_none_iff :
    findRow key k rows = none ↔ k ∉ rows.map key := by
  simp [findRow, List.find?_eq_none]

theorem findRow_eq_none_of_forall_ne (h : ∀ row ∈ rows, key row ≠ k) :
    findRow key k rows = none := by
  rw [findRow_eq_none_iff]
  intro hmem
  obtain ⟨row, hrow, heq⟩ := List.mem_map.mp hmem
  exact h row hrow heq

/-- With unique keys a row of the table is the one found under its key. -/
theorem findRow_of_mem (hnodup : KeysNodup key rows) (hmem : row ∈ rows) :
    findRow key (key row) rows = some row := by
  induction rows with
  | nil => simp at hmem
  | cons head rest ih =>
      simp only [KeysNodup, List.map_cons, List.nodup_cons] at hnodup
      rcases List.mem_cons.mp hmem with rfl | hrest
      · simp [findRow]
      · have hne : key head ≠ key row := by
          intro heq
          exact hnodup.1 (heq ▸ List.mem_map_of_mem hrest)
        have hfound := ih hnodup.2 hrest
        simpa [findRow, hne] using hfound

/-- An `updateMany` without a matching row changes nothing. -/
theorem updateMany_eq_self
    {matching : ρ → Bool} {change : ρ → ρ}
    (hnone : ∀ row ∈ rows, matching row = false) :
    updateMany matching change rows = rows := by
  unfold updateMany
  refine (List.map_congr_left ?_).trans (List.map_id rows)
  intro row hrow
  rw [hnone row hrow, if_neg Bool.false_ne_true]
  rfl

/-- A row after an `updateMany` was there before, changed or not. -/
theorem exists_of_mem_updateMany
    {matching : ρ → Bool} {change : ρ → ρ} {row' : ρ}
    (hmem : row' ∈ updateMany matching change rows) :
    ∃ row ∈ rows,
      (matching row = true ∧ row' = change row) ∨ (matching row = false ∧ row' = row) := by
  obtain ⟨row, hrow, heq⟩ := List.mem_map.mp hmem
  refine ⟨row, hrow, ?_⟩
  by_cases hmatch : matching row = true
  · rw [if_pos hmatch] at heq
    exact Or.inl ⟨hmatch, heq.symm⟩
  · rw [if_neg hmatch] at heq
    exact Or.inr ⟨by simpa using hmatch, heq.symm⟩

omit [DecidableEq κ] in
@[simp] theorem map_key_updateMany
    (matching : ρ → Bool) {change : ρ → ρ}
    (hkey : ∀ row, key (change row) = key row)
    (rows : List ρ) :
    (updateMany matching change rows).map key = rows.map key := by
  simp only [updateMany, List.map_map]
  refine List.map_congr_left ?_
  intro row _
  simp only [Function.comp_apply]
  split
  · exact hkey row
  · rfl

omit [DecidableEq κ] in
theorem KeysNodup.updateMany
    (hnodup : KeysNodup key rows)
    (matching : ρ → Bool) {change : ρ → ρ}
    (hkey : ∀ row, key (change row) = key row) :
    KeysNodup key (updateMany matching change rows) := by
  unfold KeysNodup
  rw [map_key_updateMany matching hkey]
  exact hnodup

/-- A key-preserving `updateMany` changes the row found under each key. -/
theorem findRow_updateMany
    (matching : ρ → Bool) {change : ρ → ρ}
    (hkey : ∀ row, key (change row) = key row)
    (k : κ) (rows : List ρ) :
    findRow key k (updateMany matching change rows) =
      (findRow key k rows).map fun row =>
        if matching row then change row else row := by
  induction rows with
  | nil => rfl
  | cons head rest ih =>
      have hhead :
          key (if matching head then change head else head) = key head := by
        split
        · exact hkey head
        · rfl
      simp only [findRow, updateMany, List.map_cons, List.find?_cons, hhead] at ih ⊢
      by_cases hk : key head = k
      · simp [hk]
      · simpa [hk] using ih

/-- With unique keys, a match by key and condition is a match of the found row. -/
theorem updateCount_pos_iff {condition : ρ → Bool} (hnodup : KeysNodup key rows) :
    0 < updateCount (fun row => decide (key row = k) && condition row) rows ↔
      ∃ row, findRow key k rows = some row ∧ condition row = true := by
  simp only [updateCount, List.countP_pos_iff, Bool.and_eq_true, decide_eq_true_eq]
  constructor
  · rintro ⟨row, hmem, rfl, hcond⟩
    exact ⟨row, findRow_of_mem hnodup hmem, hcond⟩
  · rintro ⟨row, hfound, hcond⟩
    exact ⟨row, mem_of_findRow hfound, key_of_findRow hfound, hcond⟩

theorem insertRow_eq_some_iff :
    insertRow key row rows = some rows' ↔
      findRow key (key row) rows = none ∧ rows' = rows ++ [row] := by
  unfold insertRow
  cases findRow key (key row) rows <;> simp [eq_comm]

theorem KeysNodup.insertRow
    (hnodup : KeysNodup key rows)
    (h : insertRow key row rows = some rows') :
    KeysNodup key rows' := by
  obtain ⟨hfree, rfl⟩ := insertRow_eq_some_iff.mp h
  rw [findRow_eq_none_iff] at hfree
  simp only [KeysNodup, List.map_append, List.map_cons, List.map_nil]
  exact List.Nodup.append hnodup (List.nodup_singleton _) (by simpa using hfree)

theorem findRow_insertRow (h : insertRow key row rows = some rows') (k : κ) :
    findRow key k rows' = if key row = k then some row else findRow key k rows := by
  obtain ⟨hfree, rfl⟩ := insertRow_eq_some_iff.mp h
  by_cases hk : key row = k
  · subst hk
    simp only [findRow] at hfree ⊢
    simp [List.find?_append, hfree]
  · simp only [findRow, List.find?_append]
    cases List.find? (fun row => decide (key row = k)) rows <;> simp [hk]

/-! ## The first matching row -/

/-- Change the first matching row; the changed row and the rows, or `none` when nothing matches. -/
def updateFirst (matching : ρ → Bool) (change : ρ → ρ) : List ρ → Option (ρ × List ρ)
  | [] => none
  | row :: rows =>
      if matching row then some (change row, change row :: rows)
      else (updateFirst matching change rows).map fun found => (found.1, row :: found.2)

omit [DecidableEq κ] in
/-- `updateFirst` on translated rows is the translation of `updateFirst`. -/
theorem updateFirst_map
    {ρ' : Type v} {translate : ρ → ρ'} {matching : ρ → Bool} {change : ρ → ρ}
    {matching' : ρ' → Bool} {change' : ρ' → ρ'}
    (hmatching : ∀ row ∈ rows, matching' (translate row) = matching row)
    (hchange :
      ∀ row ∈ rows, matching row = true → change' (translate row) = translate (change row)) :
    updateFirst matching' change' (rows.map translate) =
      (updateFirst matching change rows).map fun found =>
        (translate found.1, found.2.map translate) := by
  induction rows with
  | nil => rfl
  | cons row rows ih =>
      have hrest :=
        ih (fun other hother => hmatching other (List.mem_cons_of_mem _ hother))
          (fun other hother => hchange other (List.mem_cons_of_mem _ hother))
      rw [List.map_cons, updateFirst, updateFirst, hmatching row List.mem_cons_self]
      by_cases hmatch : matching row = true
      · simp only [hmatch, if_true, Option.map_some, List.map_cons,
          hchange row List.mem_cons_self hmatch]
      · simp only [hmatch, Bool.false_eq_true, if_false, hrest, Option.map_map]
        rfl

end Table

end Lib
end NestBase
