import Mathlib.Data.List.Perm.Basic

/-!
# Committed and pending changes

A database as the changes made to it.  A statement outside a transaction
commits its changes at once; one inside leaves them pending until the
transaction is finished.  A statement that fails aborts its transaction, and an
aborted transaction takes no more changes and loses those it has, whichever way
it is finished.

`all` are the changes that are committed or may still be, and the lemmas say
what each operation adds to them or takes away, up to their order.
-/

namespace NestBase
namespace Lib

universe u v

/-- An open transaction. -/
structure OpenTransaction (α : Type u) where
  changes : List α
  aborted : Bool
deriving DecidableEq, Repr

/-- What is undone when the transaction is finished. -/
def OpenTransaction.lost {α : Type u} (commits : Bool) (opened : OpenTransaction α) : List α :=
  if commits && !opened.aborted then [] else opened.changes

structure ChangeStore (τ : Type u) (α : Type v) where
  committed : List α
  opened : List (τ × OpenTransaction α)
deriving DecidableEq, Repr

namespace ChangeStore

variable {τ : Type u}
variable {α : Type v}

def empty : ChangeStore τ α where
  committed := []
  opened := []

def pending (store : ChangeStore τ α) : List α :=
  store.opened.flatMap fun entry => entry.2.changes

/-- The changes that are not undone. -/
def all (store : ChangeStore τ α) : List α :=
  store.committed ++ store.pending

variable [DecidableEq τ]

/-- The entries before a transaction, the transaction, and those after it. -/
def split (id : τ) :
    List (τ × OpenTransaction α) →
      Option (List (τ × OpenTransaction α) × OpenTransaction α × List (τ × OpenTransaction α))
  | [] => none
  | entry :: rest =>
      if entry.1 = id then some ([], entry.2, rest)
      else (split id rest).map fun parts => (entry :: parts.1, parts.2)

def find (id : τ) (store : ChangeStore τ α) : Option (OpenTransaction α) :=
  (split id store.opened).map fun parts => parts.2.1

/-- Impossible when the transaction is open already. -/
def start (id : τ) (store : ChangeStore τ α) : Option (ChangeStore τ α) :=
  if (store.find id).isSome then none
  else some { store with opened := (id, ⟨[], false⟩) :: store.opened }

/-- Replace an open transaction, if it can be. -/
def modify
    (id : τ) (change : OpenTransaction α → Option (OpenTransaction α))
    (store : ChangeStore τ α) :
    Option (ChangeStore τ α) :=
  (split id store.opened).bind fun parts =>
    (change parts.2.1).map fun changed =>
      { store with opened := parts.1 ++ (id, changed) :: parts.2.2 }

/-- A statement that succeeds, in a transaction or outside. -/
def write (transaction : Option τ) (changes : List α) (store : ChangeStore τ α) :
    Option (ChangeStore τ α) :=
  match transaction with
  | none => some { store with committed := store.committed ++ changes }
  | some id =>
      store.modify id fun opened =>
        if opened.aborted then none
        else some { opened with changes := opened.changes ++ changes }

/-- A statement that fails. -/
def abort (transaction : Option τ) (store : ChangeStore τ α) : Option (ChangeStore τ α) :=
  match transaction with
  | none => some store
  | some id => store.modify id fun opened => some { opened with aborted := true }

/-- The end of a transaction, by a commit or by a rollback. -/
def finish (commits : Bool) (id : τ) (store : ChangeStore τ α) : Option (ChangeStore τ α) :=
  (split id store.opened).map fun parts =>
    { committed :=
        if commits && !parts.2.1.aborted then store.committed ++ parts.2.1.changes
        else store.committed
      opened := parts.1 ++ parts.2.2 }

section Split

variable {id : τ}
variable {entries : List (τ × OpenTransaction α)}

theorem eq_of_split
    {parts : List (τ × OpenTransaction α) × OpenTransaction α × List (τ × OpenTransaction α)}
    (h : split id entries = some parts) :
    entries = parts.1 ++ (id, parts.2.1) :: parts.2.2 := by
  induction entries generalizing parts with
  | nil => cases h
  | cons entry rest ih =>
      rw [split] at h
      split at h
      · next hid =>
          cases h
          rw [← hid]
          rfl
      · obtain ⟨parts', hparts, rfl⟩ := Option.map_eq_some_iff.mp h
        rw [List.cons_append, ← ih hparts]

end Split

section Operations

variable {store store' : ChangeStore τ α}

/-- A modified transaction among the pending changes. -/
theorem pending_modify
    {id : τ} {change : OpenTransaction α → Option (OpenTransaction α)}
    (h : store.modify id change = some store') :
    ∃ before opened changed after,
      store.pending = before ++ opened.changes ++ after ∧
        store'.pending = before ++ changed.changes ++ after ∧
          change opened = some changed ∧ store'.committed = store.committed := by
  obtain ⟨parts, hparts, hmap⟩ := Option.bind_eq_some_iff.mp h
  obtain ⟨changed, hchanged, rfl⟩ := Option.map_eq_some_iff.mp hmap
  refine ⟨parts.1.flatMap fun entry => entry.2.changes, parts.2.1, changed,
    parts.2.2.flatMap fun entry => entry.2.changes, ?_, ?_, hchanged, rfl⟩
  · rw [pending, eq_of_split hparts, List.flatMap_append, List.flatMap_cons, List.append_assoc]
  · rw [pending, List.flatMap_append, List.flatMap_cons, List.append_assoc]

theorem all_start {id : τ} (h : store.start id = some store') : store'.all = store.all := by
  unfold start at h
  split at h
  · cases h
  · cases h
    rfl

theorem perm_write
    {transaction : Option τ} {changes : List α}
    (h : store.write transaction changes = some store') :
    store'.all.Perm (store.all ++ changes) := by
  cases transaction with
  | none =>
      cases h
      rw [all, all, List.append_assoc, List.append_assoc]
      exact List.Perm.append_left _ List.perm_append_comm
  | some id =>
      rw [write] at h
      obtain ⟨before, opened, changed, after, hbefore, hafter, hchange, hcommitted⟩ :=
        pending_modify h
      split at hchange
      · cases hchange
      · cases hchange
        rw [all, all, hbefore, hafter, hcommitted]
        simp only [List.append_assoc]
        refine List.Perm.append_left _ (List.Perm.append_left _ (List.Perm.append_left _ ?_))
        exact List.perm_append_comm

theorem all_abort {transaction : Option τ} (h : store.abort transaction = some store') :
    store'.all = store.all := by
  cases transaction with
  | none =>
      cases h
      rfl
  | some id =>
      rw [abort] at h
      obtain ⟨before, opened, changed, after, hbefore, hafter, hchange, hcommitted⟩ :=
        pending_modify h
      cases hchange
      rw [all, all, hbefore, hafter, hcommitted]

/-- Finishing a transaction takes away what it loses. -/
theorem perm_finish {commits : Bool} {id : τ} (h : store.finish commits id = some store') :
    ∃ opened, store.find id = some opened ∧
      store.all.Perm (store'.all ++ opened.lost commits) := by
  obtain ⟨parts, hparts, rfl⟩ := Option.map_eq_some_iff.mp h
  refine ⟨parts.2.1, by rw [find, hparts]; rfl, ?_⟩
  rw [all, all, pending, pending, eq_of_split hparts, OpenTransaction.lost, List.flatMap_append,
    List.flatMap_append, List.flatMap_cons]
  split
  · simp only [List.append_assoc, List.append_nil]
    refine List.Perm.append_left _ ?_
    rw [← List.append_assoc, ← List.append_assoc]
    exact List.Perm.append_right _ List.perm_append_comm
  · simp only [List.append_assoc]
    refine List.Perm.append_left _ (List.Perm.append_left _ ?_)
    exact List.perm_append_comm

end Operations

end ChangeStore

end Lib
end NestBase
