import Mathlib.Tactic.Common

/-!
# Locks owned by sessions

A lock that a server gives to one session at a time.  The session that holds it
may take it again, and gives it back as often as it has taken it; a release by
another session changes nothing.  When a session ends its hold ends with it.

The operations are described by how often each session holds the lock
(`holds`): at most one of these numbers is positive (`holds_exclusive`).
-/

namespace NestBase
namespace Lib

universe u

/-- A session and how often it holds the lock. -/
structure Hold (σ : Type u) where
  session : σ
  count : Nat
  pos : 0 < count

abbrev SessionLock (σ : Type u) := Option (Hold σ)

namespace SessionLock

section SessionLock

variable {σ : Type u}
variable [DecidableEq σ]

/-- Take the lock if no other session holds it. -/
def tryLock (lock : SessionLock σ) (session : σ) : Bool × SessionLock σ :=
  match lock with
  | none => (true, some { session := session, count := 1, pos := Nat.one_pos })
  | some hold =>
      if hold.session = session then
        (true, some { hold with count := hold.count + 1, pos := Nat.succ_pos _ })
      else (false, lock)

/-- Give the lock back once; `false` where the session does not hold it. -/
def unlock (lock : SessionLock σ) (session : σ) : Bool × SessionLock σ :=
  match lock with
  | none => (false, none)
  | some hold =>
      if hold.session = session then
        if hmore : 1 < hold.count then
          (true, some { hold with count := hold.count - 1, pos := Nat.sub_pos_of_lt hmore })
        else (true, none)
      else (false, lock)

def endSession (lock : SessionLock σ) (session : σ) : SessionLock σ :=
  match lock with
  | none => none
  | some hold => if hold.session = session then none else lock

/-- How often the session holds the lock. -/
def holds (lock : SessionLock σ) (session : σ) : Nat :=
  match lock with
  | none => 0
  | some hold => if hold.session = session then hold.count else 0

variable {lock : SessionLock σ}
variable {session other : σ}

theorem holds_exclusive (h : 0 < lock.holds session) (hother : 0 < lock.holds other) :
    session = other := by
  cases lock with
  | none => exact absurd h (Nat.lt_irrefl 0)
  | some hold =>
      simp only [holds] at h hother
      split at h
      · next hsession =>
        split at hother
        · next hsame => exact hsession.symm.trans hsame
        · exact absurd hother (Nat.lt_irrefl 0)
      · exact absurd h (Nat.lt_irrefl 0)

/-- The lock is given exactly where no other session holds it. -/
theorem tryLock_iff :
    (lock.tryLock session).1 = true ↔ ∀ other, other ≠ session → lock.holds other = 0 := by
  cases lock with
  | none => exact ⟨fun _ _ _ => rfl, fun _ => rfl⟩
  | some hold =>
      simp only [tryLock, holds]
      constructor
      · intro h other hother
        split at h
        · next hsession =>
          rw [if_neg]
          rw [hsession]
          exact hother.symm
        · cases h
      · intro h
        by_cases hsession : hold.session = session
        · rw [if_pos hsession]
        · have hzero := h hold.session hsession
          rw [if_pos rfl] at hzero
          exact absurd hzero (Nat.ne_of_gt hold.pos)

theorem holds_tryLock (lock : SessionLock σ) (session other : σ) :
    (lock.tryLock session).2.holds other =
      if (lock.tryLock session).1 = true ∧ other = session then lock.holds other + 1
      else lock.holds other := by
  cases lock with
  | none =>
      by_cases hother : other = session
      · subst hother
        simp [tryLock, holds]
      · simp [tryLock, holds, hother, Ne.symm hother]
  | some hold =>
      by_cases hsession : hold.session = session
      · subst hsession
        by_cases hother : other = hold.session
        · subst hother
          simp [tryLock, holds]
        · simp [tryLock, holds, hother, Ne.symm hother]
      · simp [tryLock, hsession]

/-- A lock that is refused stays as it is. -/
theorem tryLock_of_refused (h : (lock.tryLock session).1 = false) :
    (lock.tryLock session).2 = lock := by
  cases lock with
  | none => cases h
  | some hold =>
      simp only [tryLock] at h ⊢
      split at h
      · cases h
      · next hsession => rw [if_neg hsession]

theorem holds_unlock (lock : SessionLock σ) (session other : σ) :
    (lock.unlock session).2.holds other =
      if other = session then lock.holds other - 1 else lock.holds other := by
  cases lock with
  | none => split <;> rfl
  | some hold =>
      by_cases hsession : hold.session = session
      · subst hsession
        simp only [unlock, if_true]
        split
        · by_cases hother : other = hold.session
          · subst hother
            simp [holds]
          · simp [holds, hother, Ne.symm hother]
        · next hmore =>
          have hone : hold.count = 1 := Nat.le_antisymm (Nat.not_lt.mp hmore) hold.pos
          by_cases hother : other = hold.session
          · subst hother
            simp [holds, hone]
          · simp [holds, hother, Ne.symm hother]
      · simp only [unlock, if_neg hsession]
        split
        · next hother =>
          subst hother
          simp [holds, hsession]
        · rfl

theorem holds_endSession (lock : SessionLock σ) (session other : σ) :
    (lock.endSession session).holds other = if other = session then 0 else lock.holds other := by
  cases lock with
  | none => split <;> rfl
  | some hold =>
      by_cases hsession : hold.session = session
      · subst hsession
        by_cases hother : other = hold.session
        · subst hother
          simp [endSession, holds]
        · simp [endSession, holds, hother, Ne.symm hother]
      · simp only [endSession, if_neg hsession]
        split
        · next hother =>
          subst hother
          simp [holds, hsession]
        · rfl

end SessionLock

end SessionLock

end Lib
end NestBase
