import Mathlib.Logic.Basic

/-!
# Database transactions

The body of a transaction is a sequence of statements on a working copy of the
database; the first statement that fails ends it.  `transaction` runs a body
against a database and keeps its changes only when every statement and the
commit have succeeded.

A statement may fail for a reason in the database (a constraint) or for one
outside it.  The latter is an argument of the statement, its *fault*, and the
results hold for every choice of the faults.
-/

namespace NestBase
namespace Lib

universe u v

/-- What runs inside a transaction. -/
abbrev Body (σ : Type u) (ε : Type v) (α : Type u) :=
  StateT σ (Except ε) α

section Transaction

variable {σ α β : Type u}
variable {ε : Type v}

/-- One statement, which a fault from outside may replace by an error. -/
def statement (fault : Option ε) (run : σ → Except ε (α × σ)) :
    Body σ ε α :=
  fun s =>
    match fault with
    | some error => .error error
    | none => run s

/-- All changes of the body, or none. -/
def transaction (fault : Option ε) (body : Body σ ε α) (s : σ) :
    Except ε α × σ :=
  match body s with
  | .error error => (.error error, s)
  | .ok (a, s') =>
      match fault with
      | some error => (.error error, s)
      | none => (.ok a, s')

namespace Body

theorem bind_eq_ok_iff {body : Body σ ε α} {next : α → Body σ ε β} {s : σ} {result : β × σ} :
    (body >>= next) s = .ok result ↔
      ∃ a s', body s = .ok (a, s') ∧ next a s' = .ok result := by
  change (body s).bind (fun p => next p.1 p.2) = .ok result ↔ _
  constructor
  · intro h
    cases hbody : body s with
    | error error =>
        rw [hbody] at h
        cases h
    | ok p =>
        rw [hbody] at h
        exact ⟨p.1, p.2, rfl, h⟩
  · rintro ⟨a, s', hbody, hnext⟩
    rw [hbody]
    exact hnext

theorem pure_eq_ok_iff {a : α} {s : σ} {result : α × σ} :
    (pure a : Body σ ε α) s = .ok result ↔ result = (a, s) := by
  change Except.ok (a, s) = .ok result ↔ _
  rw [Except.ok.injEq]
  exact eq_comm

end Body

theorem statement_eq_ok_iff
    {fault : Option ε} {run : σ → Except ε (α × σ)} {s : σ} {result : α × σ} :
    statement fault run s = .ok result ↔ fault = none ∧ run s = .ok result := by
  cases fault with
  | none => exact ⟨fun h => ⟨rfl, h⟩, fun h => h.2⟩
  | some error => exact ⟨fun h => (by cases h), fun h => (by cases h.1)⟩

/-- A transaction that fails changes nothing. -/
theorem transaction_of_error
    {fault : Option ε} {body : Body σ ε α} {s s' : σ} {error : ε}
    (h : transaction fault body s = (.error error, s')) :
    s' = s := by
  unfold transaction at h
  cases hbody : body s with
  | error error' =>
      rw [hbody] at h
      cases h
      rfl
  | ok p =>
      rw [hbody] at h
      cases fault with
      | none => cases h
      | some error' =>
          cases h
          rfl

/-- A transaction succeeds when its body and its commit do. -/
theorem transaction_eq_ok_iff {fault : Option ε} {body : Body σ ε α} {s s' : σ} {a : α} :
    transaction fault body s = (.ok a, s') ↔ fault = none ∧ body s = .ok (a, s') := by
  unfold transaction
  cases hbody : body s with
  | error error' => exact ⟨fun h => (by cases h), fun h => (by cases h.2)⟩
  | ok p =>
      cases fault with
      | none =>
          constructor
          · intro h
            cases h
            exact ⟨rfl, rfl⟩
          · rintro ⟨-, h⟩
            cases h
            rfl
      | some error' => exact ⟨fun h => (by cases h), fun h => (by cases h.1)⟩

end Transaction

end Lib
end NestBase
