import NestBase.Lib.OrderedMap
import NestBase.Lib.Table

/-!
# Maps with tombstones

A map from keys to records in which a deleted record stays, with a flag.  A
deleted record is not found, listed, updated or deleted again.

A table of rows that carry such a flag is a map of this kind (`ofRows`), and
what the table does to its rows is what the map does to its records.
-/

namespace NestBase
namespace Lib

universe u v w

/-- The records with their flag of deletion. -/
abbrev Tombstones (κ : Type u) (ρ : Type v) : Type (max u v) := Record κ (ρ × Bool)

namespace Tombstones

section Tombstones

variable {κ : Type u} [DecidableEq κ]
variable {ρ : Type v}

def find (m : Tombstones κ ρ) (key : κ) : Option ρ :=
  match m.get key with
  | some (record, false) => some record
  | _ => none

omit [DecidableEq κ] in
/-- The records that are not deleted and pass a test, in the order of their insertion. -/
def list (keep : ρ → Bool) (m : Tombstones κ ρ) : List ρ :=
  (m.entries.filter fun entry => !entry.2.2 && keep entry.2.1).map fun entry => entry.2.1

def insert (key : κ) (record : ρ) (m : Tombstones κ ρ) : Tombstones κ ρ :=
  m.set key (record, false)

def update (key : κ) (change : ρ → ρ) (m : Tombstones κ ρ) : Option ρ × Tombstones κ ρ :=
  match m.find key with
  | none => (none, m)
  | some record => (some (change record), m.set key (change record, false))

def delete (key : κ) (m : Tombstones κ ρ) : Bool × Tombstones κ ρ :=
  match m.find key with
  | none => (false, m)
  | some record => (true, m.set key (record, true))

/-! ## Tables -/

variable {Row : Type w}
variable {key : Row → κ}
variable {record : Row → ρ}
variable {deleted : Row → Bool}

/-- The map a table is. -/
def ofRows
    (key : Row → κ) (record : Row → ρ) (deleted : Row → Bool)
    (rows : List Row) (hrows : KeysNodup key rows) : Tombstones κ ρ where
  entries := rows.map fun row => (key row, record row, deleted row)
  distinct := by
    rw [List.map_map]
    exact hrows

variable {rows : List Row}

theorem get_ofRows (hrows : KeysNodup key rows) (k : κ) :
    (ofRows key record deleted rows hrows).get k =
      (findRow key k rows).map fun row => (record row, deleted row) := by
  simp only [Record.get, OrderedMap.get, ofRows, findRow, List.find?_map, Option.map_map]
  rfl

theorem find_ofRows (hrows : KeysNodup key rows) (k : κ) :
    (ofRows key record deleted rows hrows).find k =
      (findRow key k rows).bind fun row => if deleted row then none else some (record row) := by
  unfold find
  rw [get_ofRows]
  cases findRow key k rows with
  | none => rfl
  | some row =>
      rw [Option.map_some, Option.bind_some]
      cases deleted row <;> rfl

omit [DecidableEq κ] in
theorem list_ofRows (hrows : KeysNodup key rows) (keep : ρ → Bool) :
    (ofRows key record deleted rows hrows).list keep =
      (rows.filter fun row => !deleted row && keep (record row)).map record := by
  simp only [list, ofRows, List.filter_map, List.map_map]
  rfl

omit [DecidableEq κ] in
theorem keys_ofRows (hrows : KeysNodup key rows) :
    (ofRows key record deleted rows hrows).keys = rows.map key := by
  simp only [Record.keys, ofRows, List.map_map]
  rfl

/-- A row under a free key is a record inserted. -/
theorem ofRows_insertRow
    {rows' : List Row} {row : Row}
    (hrows : KeysNodup key rows)
    (hrows' : KeysNodup key rows')
    (hinsert : insertRow key row rows = some rows')
    (hlive : deleted row = false) :
    ofRows key record deleted rows' hrows' =
      (ofRows key record deleted rows hrows).insert (key row) (record row) := by
  obtain ⟨hfree, happend⟩ := insertRow_eq_some_iff.mp hinsert
  refine Record.ext_get ?_ fun k => ?_
  · have hkey : key row ∉ (ofRows key record deleted rows hrows).keys := by
      rw [keys_ofRows]
      exact findRow_eq_none_iff.mp hfree
    rw [insert, Record.keys_set, if_neg hkey, keys_ofRows, keys_ofRows, happend, List.map_append]
    rfl
  · rw [insert, Record.get_set, get_ofRows, get_ofRows, findRow_insertRow hinsert]
    split
    · rw [Option.map_some, hlive]
    · rfl

/-- Changing the row of a key changes the record of the key. -/
theorem ofRows_updateMany
    {row : Row} {k : κ}
    (hrows : KeysNodup key rows)
    (hfound : findRow key k rows = some row)
    (matching : Row → Bool) {change : Row → Row}
    (hkey : ∀ row, key (change row) = key row)
    (hmatching : ∀ row ∈ rows, matching row = decide (key row = k)) :
    ofRows key record deleted (updateMany matching change rows)
        (hrows.updateMany matching hkey) =
      (ofRows key record deleted rows hrows).set k (record (change row), deleted (change row)) := by
  have hget :
      (ofRows key record deleted rows hrows).get k = some (record row, deleted row) := by
    rw [get_ofRows, hfound]
    rfl
  refine Record.ext_get ?_ fun other => ?_
  · rw [Record.keys_set_of_get hget, keys_ofRows, keys_ofRows, map_key_updateMany matching hkey]
  · rw [Record.get_set, get_ofRows, get_ofRows, findRow_updateMany matching hkey]
    by_cases hother : k = other
    · subst hother
      rw [if_pos rfl, hfound, Option.map_some, Option.map_some,
        hmatching row (mem_of_findRow hfound), key_of_findRow hfound, if_pos (decide_eq_true rfl)]
    · rw [if_neg hother]
      cases hrow : findRow key other rows with
      | none => rfl
      | some found =>
          have hno : ¬ matching found = true := by
            rw [hmatching found (mem_of_findRow hrow), key_of_findRow hrow, decide_eq_true_eq]
            exact fun hsame => hother hsame.symm
          rw [Option.map_some, if_neg hno]

end Tombstones

end Tombstones

end Lib
end NestBase
