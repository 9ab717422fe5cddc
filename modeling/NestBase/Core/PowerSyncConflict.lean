import NestBase.Lib.OrderedMap

/-!
# PowerSync conflict resolution

`resolvePowerSyncConflict` decides what a client's patch does to the server
row: nothing when the patch is empty, nothing when the server row is newer, and
otherwise the patch without the protected fields.

The merged row starts as a copy of the server row, so it holds every field of
the row and not only those of the patch (`get_mergePatch`).
-/

namespace NestBase
namespace PowerSyncConflict

open Lib

variable {α : Type}

/-- A field value.  The resolver looks only at dates; an invalid date has no time. -/
inductive Value (α : Type)
  | date (time : Option Int)
  | other (value : α)
  deriving DecidableEq

abbrev Row (α : Type) := Record String (Value α)

inductive Outcome
  | clientWins
  | serverWins
  | partialConflict
  | noOp
  deriving DecidableEq

structure Decision (α : Type) where
  outcome : Outcome
  merged : Row α
  rejectedFields : List String
  deriving DecidableEq

structure Input (α : Type) where
  clientPatch : Row α
  clientUpdatedAt : Option Int
  serverRow : Row α
  protectedFields : List String

/-- `serverRow.updatedAt instanceof Date && serverRow.updatedAt > clientUpdatedAt`. -/
def serverNewer (serverRow : Row α) (clientUpdatedAt : Option Int) : Bool :=
  match serverRow.get "updatedAt", clientUpdatedAt with
  | some (.date (some server)), some client => decide (client < server)
  | _, _ => false

/--
`target[key] = value`.  Without an own field of that name, `__proto__` reaches
the accessor of the prototype and leaves the own fields alone.
-/
def assignProperty (target : Row α) (key : String) (value : Value α) : Row α :=
  if key = "__proto__" ∧ target.get key = none then target else target.set key value

/-- The loop over the patch keys, on a copy of the server row. -/
def mergePatch (protectedFields : List String) (serverRow clientPatch : Row α) : Row α :=
  clientPatch.entries.foldl
    (fun merged entry =>
      if entry.1 ∈ protectedFields then merged else assignProperty merged entry.1 entry.2)
    serverRow

def resolvePowerSyncConflict (input : Input α) : Decision α :=
  let patchKeys := input.clientPatch.keys
  if patchKeys = [] then
    { outcome := .noOp, merged := input.serverRow, rejectedFields := [] }
  else
    let rejectedFields := patchKeys.filter fun key => decide (key ∈ input.protectedFields)
    if serverNewer input.serverRow input.clientUpdatedAt then
      { outcome := .serverWins, merged := input.serverRow, rejectedFields := rejectedFields }
    else
      let merged := mergePatch input.protectedFields input.serverRow input.clientPatch
      if rejectedFields ≠ [] then
        { outcome := .partialConflict, merged := merged, rejectedFields := rejectedFields }
      else { outcome := .clientWins, merged := merged, rejectedFields := [] }

/-- The outcomes after which the caller writes the merged row. -/
def Outcome.writes : Outcome → Bool
  | .clientWins | .partialConflict => true
  | .serverWins | .noOp => false

theorem get_assignProperty_of_ne
    {key other : String}
    (target : Row α) (value : Value α)
    (hne : key ≠ other) :
    (assignProperty target key value).get other = target.get other := by
  unfold assignProperty
  split
  · rfl
  · rw [Record.get_set, if_neg hne]

/-- A field that the patch does not name, or that is protected, keeps the server's value. -/
theorem get_mergePatch
    {protectedFields : List String} {serverRow clientPatch : Row α} {field : String}
    (hfield : field ∈ clientPatch.keys → field ∈ protectedFields) :
    (mergePatch protectedFields serverRow clientPatch).get field = serverRow.get field := by
  have hloop :
      ∀ (entries : List (String × Value α)) (merged : Row α),
        (field ∈ entries.map Prod.fst → field ∈ protectedFields) →
        (entries.foldl
          (fun merged entry =>
            if entry.1 ∈ protectedFields then merged else assignProperty merged entry.1 entry.2)
          merged).get field = merged.get field := by
    intro entries
    induction entries with
    | nil => intro merged _; rfl
    | cons entry entries ih =>
        intro merged hentries
        have hrest : field ∈ entries.map Prod.fst → field ∈ protectedFields :=
          fun hmem => hentries (List.mem_cons_of_mem _ hmem)
        rw [List.foldl_cons, ih _ hrest]
        split
        · rfl
        · next hopen =>
          have hne : entry.1 ≠ field := by
            intro heq
            exact hopen (heq ▸ hentries (heq ▸ List.mem_cons_self))
          exact get_assignProperty_of_ne merged entry.2 hne
  exact hloop clientPatch.entries serverRow hfield

/-- A decision that writes, writes the merged row. -/
theorem merged_of_writes
    {input : Input α}
    (hwrites : (resolvePowerSyncConflict input).outcome.writes = true) :
    (resolvePowerSyncConflict input).merged =
      mergePatch input.protectedFields input.serverRow input.clientPatch := by
  unfold resolvePowerSyncConflict at hwrites ⊢
  dsimp only at hwrites ⊢
  split at hwrites
  · cases hwrites
  · next hpatch =>
    rw [if_neg hpatch]
    split at hwrites
    · cases hwrites
    · next hnewer =>
      rw [if_neg hnewer]
      split <;> rfl

end PowerSyncConflict
end NestBase
