import NestBase.Lib.OrderedMap

/-!
# Tables that stand for maps

A store keeps one row for each entry of an abstract map `π → Option δ`, under
a key computed from the entry's name.  `Represents` says that the rows are
exactly the entries.

`Represents.write` is the rule for a batch of writes and removals: the table
represents the changed map when every named entry is written or removed as the
map says, and no named entry shares its key with another one.
-/

namespace NestBase
namespace Lib
namespace KeyedTable

universe u v w x

variable {π : Type u}
variable {δ : Type v}
variable {κ : Type w} [DecidableEq κ]
variable {α : Type x}

/-- The rows of the table are the entries of the map. -/
structure Represents
    (key : π → κ)
    (isRow : α → π → δ → Prop)
    (table : Record κ α)
    (m : π → Option δ) : Prop where
  sound :
    ∀ k row, table.get k = some row → ∃ p data, k = key p ∧ isRow row p data ∧ m p = some data
  complete :
    ∀ p data, m p = some data → ∃ row, table.get (key p) = some row ∧ isRow row p data

variable {key : π → κ}
variable {isRow isRow' : α → π → δ → Prop}
variable {table : Record κ α}
variable {m m' : π → Option δ}

/-- No rows for the map without entries. -/
theorem represents_empty :
    Represents key isRow (Record.empty : Record κ α) (fun _ => none) where
  sound := by
    intro k row hrow
    rw [Record.get_empty] at hrow
    cases hrow
  complete := by
    intro p data hdata
    cases hdata

theorem Represents.imp
    (h : Represents key isRow table m)
    (himp : ∀ row p data, isRow row p data → isRow' row p data) :
    Represents key isRow' table m where
  sound := by
    intro k row hrow
    obtain ⟨p, data, hkey, hisRow, hdata⟩ := h.sound k row hrow
    exact ⟨p, data, hkey, himp row p data hisRow, hdata⟩
  complete := by
    intro p data hdata
    obtain ⟨row, hrow, hisRow⟩ := h.complete p data hdata
    exact ⟨row, hrow, himp row p data hisRow⟩

/-- Named entries do not share a key with each other or with an entry of the map. -/
def Apart (key : π → κ) (named : π → Prop) (m : π → Option δ) : Prop :=
  ∀ p q, named p → (named q ∨ m q ≠ none) → key p = key q → p = q

/-- A batch of writes and removals, as the changed map says. -/
structure Writes
    {ι : Type*}
    (key : π → κ)
    (isRow : α → π → δ → Prop)
    (named : π → Prop)
    (m' : π → Option δ)
    (itemKey : ι → κ)
    (itemRow : ι → α)
    (items : List ι)
    (removed : List κ) : Prop where
  sound :
    ∀ item ∈ items, ∃ p data, named p ∧ m' p = some data ∧ itemKey item = key p ∧
      isRow (itemRow item) p data
  soundRemoved : ∀ k ∈ removed, ∃ p, named p ∧ m' p = none ∧ k = key p
  written : ∀ p data, named p → m' p = some data → ∃ item ∈ items, itemKey item = key p
  gone : ∀ p, named p → m' p = none → key p ∈ removed

/-- The table after the batch represents the changed map. -/
theorem Represents.write
    {ι : Type*} {named : π → Prop} {itemKey : ι → κ} {itemRow : ι → α} {items : List ι}
    {removed : List κ}
    (h : Represents key isRow table m)
    (hwrites : Writes key isRow named m' itemKey itemRow items removed)
    (hrest : ∀ p, ¬ named p → m' p = m p)
    (hapart : Apart key named m) :
    Represents key isRow ((table.writeAll itemKey itemRow items).removeAll removed) m' := by
  constructor
  · intro k row hrow
    rw [Record.get_removeAll] at hrow
    split at hrow
    · cases hrow
    · next hkept =>
      by_cases hnamed : ∃ item ∈ items, itemKey item = k
      · obtain ⟨item, hitem, hkey, hget⟩ := Record.get_writeAll_of_named hnamed table
        rw [hget] at hrow
        cases hrow
        obtain ⟨p, data, -, hdata, hitemKey, hisRow⟩ := hwrites.sound item hitem
        exact ⟨p, data, hkey.symm.trans hitemKey, hisRow, hdata⟩
      · have hunnamed : ∀ item ∈ items, itemKey item ≠ k :=
          fun item hitem hkey => hnamed ⟨item, hitem, hkey⟩
        rw [Record.get_writeAll_of_unnamed hunnamed] at hrow
        obtain ⟨p, data, rfl, hisRow, hdata⟩ := h.sound k row hrow
        refine ⟨p, data, rfl, hisRow, ?_⟩
        -- A named entry would have been written or removed under this key.
        have hnot : ¬ named p := by
          intro hp
          cases hafter : m' p with
          | none => exact hkept (hwrites.gone p hp hafter)
          | some after => exact hnamed (hwrites.written p after hp hafter)
        rw [hrest p hnot]
        exact hdata
  · intro p data hdata
    by_cases hp : named p
    · obtain ⟨item, hitem, hkey, hget⟩ :
          ∃ item ∈ items, itemKey item = key p ∧
            (table.writeAll itemKey itemRow items).get (key p) = some (itemRow item) :=
        Record.get_writeAll_of_named (hwrites.written p data hp hdata) table
      have hkept : key p ∉ removed := by
        intro hmem
        obtain ⟨q, hq, hnone, hsame⟩ := hwrites.soundRemoved (key p) hmem
        obtain rfl := hapart p q hp (Or.inl hq) hsame
        rw [hdata] at hnone
        cases hnone
      obtain ⟨q, other, hq, hother, hitemKey, hisRow⟩ := hwrites.sound item hitem
      obtain rfl := hapart p q hp (Or.inl hq) (hkey.symm.trans hitemKey)
      rw [hdata] at hother
      cases hother
      exact ⟨itemRow item, by rw [Record.get_removeAll, if_neg hkept, hget], hisRow⟩
    · have hbefore : m p = some data := by
        rw [← hrest p hp]
        exact hdata
      obtain ⟨row, hrow, hisRow⟩ := h.complete p data hbefore
      have hstored : m p ≠ none := by
        rw [hbefore]
        exact Option.some_ne_none data
      have hkept : key p ∉ removed := by
        intro hmem
        obtain ⟨q, hq, -, hsame⟩ := hwrites.soundRemoved (key p) hmem
        exact hp ((hapart q p hq (Or.inr hstored) hsame.symm) ▸ hq)
      have hunnamed : ∀ item ∈ items, itemKey item ≠ key p := by
        intro item hitem hsame
        obtain ⟨q, other, hq, -, hitemKey, -⟩ := hwrites.sound item hitem
        exact hp ((hapart q p hq (Or.inr hstored) (hitemKey.symm.trans hsame)) ▸ hq)
      refine ⟨row, ?_, hisRow⟩
      rw [Record.get_removeAll, if_neg hkept, Record.get_writeAll_of_unnamed hunnamed, hrow]

end KeyedTable
end Lib
end NestBase
