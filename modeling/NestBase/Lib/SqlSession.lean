import Mathlib.Data.List.Forall2
import Mathlib.Data.Option.Basic

/-!
# Transactions of an SQL session

A session works on the committed state of a database, or on a working copy of it inside
a transaction block.  A query outside of a block runs in a block of its own, which its
end commits; `BEGIN` makes that block one that only `COMMIT` or `ROLLBACK` ends.
Savepoints keep states of the working copy.

`persists` follows a list of actions with one bit in place of the state: whether anything
but a transaction command has run since the committed state.  Nothing persists, on any
database and for any meaning of the other commands, exactly when no action commits the
bit (`committed_of_not_persists`, `exists_committed_of_persists`).
-/

namespace NestBase
namespace Lib
namespace SqlSession

inductive Action where
  | begin
  | commit (chain : Bool)
  | rollback (chain : Bool)
  | savepoint (name : String)
  | rollbackTo (name : String)
  | release (name : String)
  | other (text : String)
  | endOfQuery
deriving DecidableEq

/-- A transaction block; the last savepoint comes first. -/
structure Block (Db : Type) where
  explicit : Bool
  working : Db
  savepoints : List (String × Db)

structure Session (Db : Type) where
  committed : Db
  block : Option (Block Db)

structure Server (Db : Type) where
  run : String → Db → Except String Db
  /-- The error of a constraint that is checked at the end of a transaction. -/
  deferred : Db → Option String
  /-- The error of a transaction command in the wrong place. -/
  refusal : Action → String

section Session

variable {Db : Type}

/-- The block of the session, or the one that a query opens for itself. -/
def openBlock (committed : Db) (block : Option (Block Db)) : Block Db :=
  block.getD { explicit := false, working := committed, savepoints := [] }

/-- The savepoint of the name and the ones before it. -/
def fromSavepoint {α : Type} (name : String) (savepoints : List (String × α)) :
    List (String × α) :=
  savepoints.dropWhile fun savepoint => savepoint.1 != name

/-- The block that follows a chained end of a transaction. -/
def nextBlock (chain : Bool) (committed : Db) : Option (Block Db) :=
  if chain then some { explicit := true, working := committed, savepoints := [] } else none

def commitBlock (server : Server Db) (block : Block Db) (chain : Bool) :
    Except String (Session Db) :=
  match server.deferred block.working with
  | some error => .error error
  | none => .ok { committed := block.working, block := nextBlock chain block.working }

/-- One action.  After an error the session is only rolled back. -/
def step (server : Server Db) (s : Session Db) (action : Action) : Except String (Session Db) :=
  let block := openBlock s.committed s.block
  match action with
  | .begin => .ok { s with block := some { block with explicit := true } }
  | .commit chain =>
      if chain && !block.explicit then .error (server.refusal action)
      else commitBlock server block chain
  | .rollback chain =>
      if chain && !block.explicit then .error (server.refusal action)
      else .ok { s with block := nextBlock chain s.committed }
  | .savepoint name =>
      if block.explicit then
        .ok
          { s with
            block := some { block with savepoints := (name, block.working) :: block.savepoints } }
      else .error (server.refusal action)
  | .rollbackTo name =>
      match block.explicit, fromSavepoint name block.savepoints with
      | true, (saved, state) :: rest =>
          .ok
            { s with
              block := some { block with working := state, savepoints := (saved, state) :: rest } }
      | _, _ => .error (server.refusal action)
  | .release name =>
      match block.explicit, fromSavepoint name block.savepoints with
      | true, _ :: rest => .ok { s with block := some { block with savepoints := rest } }
      | _, _ => .error (server.refusal action)
  | .other text =>
      match server.run text block.working with
      | .ok state => .ok { s with block := some { block with working := state } }
      | .error error => .error error
  | .endOfQuery =>
      if block.explicit then .ok s else commitBlock server block false

/-- The actions up to the first error. -/
def execute (server : Server Db) (s : Session Db) : List Action → Session Db × Option String
  | [] => (s, none)
  | action :: rest =>
      match step server s action with
      | .ok s' => execute server s' rest
      | .error error => (s, some error)

end Session

/-! ## One bit for the state -/

/-- What an action does to a block whose state is one bit; `none` where it is refused. -/
def mark (block : Option (Block Bool)) (action : Action) : Option (Option (Block Bool)) :=
  let marks := openBlock false block
  match action with
  | .begin => some (some { marks with explicit := true })
  | .commit chain => if chain && !marks.explicit then none else some (nextBlock chain false)
  | .rollback chain => if chain && !marks.explicit then none else some (nextBlock chain false)
  | .savepoint name =>
      if marks.explicit then
        some (some { marks with savepoints := (name, marks.working) :: marks.savepoints })
      else none
  | .rollbackTo name =>
      match marks.explicit, fromSavepoint name marks.savepoints with
      | true, (saved, bit) :: rest =>
          some (some { marks with working := bit, savepoints := (saved, bit) :: rest })
      | _, _ => none
  | .release name =>
      match marks.explicit, fromSavepoint name marks.savepoints with
      | true, _ :: rest => some (some { marks with savepoints := rest })
      | _, _ => none
  | .other _ => some (some { marks with working := true })
  | .endOfQuery => if marks.explicit then some block else some none

/-- The action commits a block in which another command has run. -/
def commitsWork (block : Option (Block Bool)) (action : Action) : Bool :=
  let marks := openBlock false block
  match action with
  | .commit chain => (marks.explicit || !chain) && marks.working
  | .endOfQuery => !marks.explicit && marks.working
  | _ => false

def persists : Option (Block Bool) → List Action → Bool
  | _, [] => false
  | block, action :: rest =>
      commitsWork block action ||
        match mark block action with
        | some next => persists next rest
        | none => false

/-! ## Nothing is committed -/

section Within

variable {Db : Type} {db : Db}

/-- Where the bit is not set, the state is the committed one. -/
def Same (db : Db) (bit : Bool) (state : Db) : Prop :=
  bit = false → state = db

structure Within (db : Db) (marks : Block Bool) (block : Block Db) : Prop where
  explicit : marks.explicit = block.explicit
  working : Same db marks.working block.working
  savepoints :
    List.Forall₂ (fun mark saved => mark.1 = saved.1 ∧ Same db mark.2 saved.2)
      marks.savepoints block.savepoints

/-- The session has committed nothing, and its block follows the marks. -/
def Follows (db : Db) (marks : Option (Block Bool)) (s : Session Db) : Prop :=
  s.committed = db ∧ Option.Rel (Within db) marks s.block

variable {s : Session Db}
variable {marks : Option (Block Bool)}

theorem Follows.openBlock (h : Follows db marks s) :
    Within db (openBlock false marks) (openBlock s.committed s.block) := by
  obtain ⟨hcommitted, hblock⟩ := h
  cases marks with
  | none =>
      cases hs : s.block with
      | none => exact ⟨rfl, fun _ => hcommitted, .nil⟩
      | some block =>
          rw [hs] at hblock
          cases hblock
  | some marks =>
      cases hs : s.block with
      | none =>
          rw [hs] at hblock
          cases hblock
      | some block =>
          rw [hs] at hblock
          cases hblock with
          | some hwithin => exact hwithin

theorem fromSavepoint_forall₂ (name : String) {marks : List (String × Bool)}
    {savepoints : List (String × Db)}
    (h : List.Forall₂ (fun mark saved => mark.1 = saved.1 ∧ Same db mark.2 saved.2)
      marks savepoints) :
    List.Forall₂ (fun mark saved => mark.1 = saved.1 ∧ Same db mark.2 saved.2)
      (fromSavepoint name marks) (fromSavepoint name savepoints) := by
  induction h with
  | nil => exact .nil
  | @cons mark saved marks savepoints hfirst hrest ih =>
      unfold fromSavepoint at ih ⊢
      rw [List.dropWhile_cons, List.dropWhile_cons, hfirst.1]
      split
      · exact ih
      · exact .cons hfirst hrest

theorem nextBlock_within (chain : Bool) :
    Option.Rel (Within db) (nextBlock chain false) (nextBlock chain db) := by
  cases chain with
  | false => exact .none
  | true => exact .some ⟨rfl, fun _ => rfl, .nil⟩

variable {server : Server Db}

theorem follows_commitBlock {block : Block Db} {chain : Bool}
    (hworking : block.working = db)
    (hcommit : commitBlock server block chain = .ok s) :
    Follows db (nextBlock chain false) s := by
  unfold commitBlock at hcommit
  split at hcommit
  · cases hcommit
  · obtain rfl := Except.ok.inj hcommit
    rw [hworking]
    exact ⟨rfl, nextBlock_within chain⟩

/-- A step that commits no work keeps the committed state. -/
theorem follows_step {s' : Session Db}
    {action : Action}
    (h : Follows db marks s)
    (hcommits : commitsWork marks action = false)
    (hstep : step server s action = .ok s') :
    ∃ next, mark marks action = some next ∧ Follows db next s' := by
  have hwithin := h.openBlock
  obtain ⟨hcommitted, hblock⟩ := h
  unfold step at hstep
  unfold mark commitsWork at *
  dsimp only at *
  generalize openBlock false marks = bits at *
  generalize openBlock s.committed s.block = block at *
  cases action with
  | begin =>
      obtain rfl := Except.ok.inj hstep
      exact ⟨_, rfl, hcommitted, .some ⟨rfl, hwithin.working, hwithin.savepoints⟩⟩
  | commit chain =>
      dsimp only at hstep hcommits ⊢
      rw [hwithin.explicit] at hcommits ⊢
      split at hstep
      · cases hstep
      · next hchain =>
          rw [if_neg hchain]
          refine ⟨_, rfl, follows_commitBlock (hwithin.working ?_) hstep⟩
          cases chain <;> cases hexplicit : block.explicit <;> simp_all
  | rollback chain =>
      dsimp only at hstep ⊢
      rw [hwithin.explicit]
      split at hstep
      · cases hstep
      · next hchain =>
          obtain rfl := Except.ok.inj hstep
          rw [if_neg hchain]
          refine ⟨_, rfl, hcommitted, ?_⟩
          rw [hcommitted]
          exact nextBlock_within chain
  | savepoint name =>
      dsimp only at hstep ⊢
      rw [hwithin.explicit]
      split at hstep
      · next hexplicit =>
          obtain rfl := Except.ok.inj hstep
          rw [if_pos hexplicit]
          exact ⟨_, rfl, hcommitted, .some
            ⟨rfl, hwithin.working, .cons ⟨rfl, hwithin.working⟩ hwithin.savepoints⟩⟩
      · cases hstep
  | rollbackTo name =>
      dsimp only at hstep ⊢
      have hfrom := fromSavepoint_forall₂ name hwithin.savepoints
      split at hstep
      · next saved state rest hexplicit hsaved =>
          obtain rfl := Except.ok.inj hstep
          rw [hsaved] at hfrom
          cases hmarks : fromSavepoint name bits.savepoints with
          | nil =>
              rw [hmarks] at hfrom
              cases hfrom
          | cons first others =>
              rw [hmarks] at hfrom
              obtain ⟨hfirst, hothers⟩ := List.forall₂_cons.mp hfrom
              rw [hwithin.explicit, hexplicit]
              exact ⟨_, rfl, hcommitted, .some ⟨rfl, hfirst.2, .cons hfirst hothers⟩⟩
      · cases hstep
  | release name =>
      dsimp only at hstep ⊢
      have hfrom := fromSavepoint_forall₂ name hwithin.savepoints
      split at hstep
      · next saved rest hexplicit hsaved =>
          obtain rfl := Except.ok.inj hstep
          rw [hsaved] at hfrom
          cases hmarks : fromSavepoint name bits.savepoints with
          | nil =>
              rw [hmarks] at hfrom
              cases hfrom
          | cons first others =>
              rw [hmarks] at hfrom
              obtain ⟨-, hothers⟩ := List.forall₂_cons.mp hfrom
              rw [hwithin.explicit, hexplicit]
              exact ⟨_, rfl, hcommitted, .some ⟨rfl, hwithin.working, hothers⟩⟩
      · cases hstep
  | other text =>
      dsimp only at hstep ⊢
      split at hstep
      · obtain rfl := Except.ok.inj hstep
        exact ⟨_, rfl, hcommitted, .some ⟨hwithin.explicit, nofun, hwithin.savepoints⟩⟩
      · cases hstep
  | endOfQuery =>
      dsimp only at hstep hcommits ⊢
      rw [hwithin.explicit] at hcommits ⊢
      split at hstep
      · next hexplicit =>
          obtain rfl := Except.ok.inj hstep
          rw [if_pos hexplicit]
          exact ⟨_, rfl, hcommitted, hblock⟩
      · next himplicit =>
          rw [if_neg himplicit]
          refine ⟨_, rfl, follows_commitBlock (hwithin.working ?_) hstep⟩
          cases hexplicit : block.explicit <;> simp_all

/-- A list of actions that commits no work keeps the committed state, wherever it ends. -/
theorem committed_of_not_persists
    {actions : List Action}
    (h : Follows db marks s)
    (hpersists : persists marks actions = false) (count : Nat) :
    (execute server s (actions.take count)).1.committed = db := by
  induction actions generalizing marks s count with
  | nil =>
      rw [List.take_nil]
      exact h.1
  | cons action rest ih =>
      cases count with
      | zero => exact h.1
      | succ count =>
          unfold persists at hpersists
          rw [Bool.or_eq_false_iff] at hpersists
          rw [List.take_succ_cons]
          unfold execute
          split
          · next s' hstep =>
              obtain ⟨next, hnext, hfollows⟩ := follows_step h hpersists.1 hstep
              rw [hnext] at hpersists
              exact ih hfollows hpersists.2 count
          · exact h.1

end Within

/-! ## Something is committed -/

/-- The database of one bit, which every other command sets. -/
def bitServer : Server Bool where
  run := fun _ _ => .ok true
  deferred := fun _ => none
  refusal := fun _ => "refused"

theorem commitBlock_bitServer (block : Block Bool) (chain : Bool) :
    commitBlock bitServer block chain =
      .ok { committed := block.working, block := nextBlock chain block.working } :=
  rfl

variable {marks : Option (Block Bool)}

theorem step_bitServer {next : Option (Block Bool)} {action : Action}
    (hcommits : commitsWork marks action = false)
    (hmark : mark marks action = some next) :
    step bitServer { committed := false, block := marks } action =
      .ok { committed := false, block := next } := by
  unfold mark at hmark
  unfold commitsWork at hcommits
  unfold step
  dsimp only at *
  generalize hbits : openBlock false marks = bits at *
  cases action with
  | begin =>
      obtain rfl := Option.some.inj hmark
      rfl
  | commit chain =>
      dsimp only at hmark hcommits ⊢
      split at hmark
      · cases hmark
      · next hchain =>
          obtain rfl := Option.some.inj hmark
          have hworking : bits.working = false := by
            cases chain <;> cases hexplicit : bits.explicit <;> simp_all
          rw [if_neg hchain, commitBlock_bitServer, hworking]
  | rollback chain =>
      dsimp only at hmark ⊢
      split at hmark
      · cases hmark
      · next hchain =>
          obtain rfl := Option.some.inj hmark
          rw [if_neg hchain]
  | savepoint name =>
      dsimp only at hmark ⊢
      split at hmark
      · next hexplicit =>
          obtain rfl := Option.some.inj hmark
          rw [if_pos hexplicit]
      · cases hmark
  | rollbackTo name =>
      dsimp only at hmark ⊢
      split at hmark
      · next hexplicit hsaved =>
          obtain rfl := Option.some.inj hmark
          rw [hexplicit, hsaved]
      · cases hmark
  | release name =>
      dsimp only at hmark ⊢
      split at hmark
      · next hexplicit hsaved =>
          obtain rfl := Option.some.inj hmark
          rw [hexplicit, hsaved]
      · cases hmark
  | other text =>
      obtain rfl := Option.some.inj hmark
      rfl
  | endOfQuery =>
      dsimp only at hmark hcommits ⊢
      split at hmark
      · next hexplicit =>
          obtain rfl := Option.some.inj hmark
          rw [if_pos hexplicit]
      · next himplicit =>
          obtain rfl := Option.some.inj hmark
          have hworking : bits.working = false := by
            cases hexplicit : bits.explicit <;> simp_all
          rw [if_neg himplicit, commitBlock_bitServer, hworking]
          rfl

theorem step_bitServer_of_commitsWork {action : Action}
    (hcommits : commitsWork marks action = true) :
    ∃ s, step bitServer { committed := false, block := marks } action = .ok s ∧
      s.committed = true := by
  unfold commitsWork at hcommits
  unfold step
  dsimp only at *
  generalize openBlock false marks = bits at *
  cases action with
  | commit chain =>
      dsimp only at hcommits ⊢
      rw [Bool.and_eq_true] at hcommits
      have hchain : ¬ (chain && !bits.explicit) = true := by
        cases chain <;> cases hexplicit : bits.explicit <;> simp_all
      rw [if_neg hchain, commitBlock_bitServer]
      exact ⟨_, rfl, hcommits.2⟩
  | endOfQuery =>
      dsimp only at hcommits ⊢
      rw [Bool.and_eq_true] at hcommits
      have himplicit : ¬ bits.explicit = true := by
        cases hexplicit : bits.explicit <;> simp_all
      rw [if_neg himplicit, commitBlock_bitServer]
      exact ⟨_, rfl, hcommits.2⟩
  | _ => cases hcommits

/-- A list that commits work does so on this database, at the latest when it is cut there. -/
theorem exists_committed_of_persists {actions : List Action}
    (hpersists : persists marks actions = true) :
    ∃ count, (execute bitServer { committed := false, block := marks }
      (actions.take count)).1.committed = true := by
  induction actions generalizing marks with
  | nil => cases hpersists
  | cons action rest ih =>
      unfold persists at hpersists
      rw [Bool.or_eq_true] at hpersists
      cases hcommits : commitsWork marks action with
      | true =>
          obtain ⟨s, hstep, hcommitted⟩ := step_bitServer_of_commitsWork hcommits
          refine ⟨1, ?_⟩
          rw [List.take_succ_cons, List.take_zero]
          unfold execute
          rw [hstep]
          exact hcommitted
      | false =>
          rw [hcommits] at hpersists
          have hrest := hpersists.resolve_left Bool.false_ne_true
          split at hrest
          · next next hmark =>
              obtain ⟨count, hcount⟩ := ih hrest
              refine ⟨count + 1, ?_⟩
              rw [List.take_succ_cons]
              unfold execute
              rw [step_bitServer hcommits hmark]
              exact hcount
          · cases hrest

end SqlSession
end Lib
end NestBase
