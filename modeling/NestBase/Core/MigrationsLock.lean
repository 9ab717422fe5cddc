import NestBase.Lib.SessionLock
import NestBase.Lib.Transition
import Mathlib.Logic.Function.Basic

/-!
# The migrations lock

`withAdvisoryLock` runs a function under a lock that PostgreSQL gives to a
connection.  The lock query and the unlock query of one call each run on some
connection of the pool of its process, and nothing ties the two together.

The lock excludes in every run in which each unlock runs on the connection that
took the lock and no lock query on a connection that holds it (`InPlace`).
-/

namespace NestBase
namespace Migrations

open Lib

section MigrationsLock

variable {α ε : Type}

/-- The key of the lock, `nsb_migr` in ASCII. -/
def ADVISORY_LOCK_KEY : Nat := 0x6e73625f6d696772

/-- A connection of the pool of a process. -/
structure Connection where
  process : Nat
  index : Nat
deriving DecidableEq

structure AdvisoryLockResult (α : Type) where
  acquired : Bool
  result : Option α
deriving DecidableEq

/-- How far a call is; it does not keep the connection that took the lock. -/
inductive Phase (α ε : Type) where
  /-- The lock query waits for a connection. -/
  | called
  /-- The lock is taken, and the answer under way. -/
  | entering (taken : Connection)
  /-- The protected function runs. -/
  | running (taken : Connection)
  /-- The function is done, and the unlock query waits for a connection. -/
  | releasing (taken : Connection) (outcome : Except ε α)
  | finished (outcome : Except ε (AdvisoryLockResult α))

/-- What a call is resumed with. -/
inductive Turn (α ε : Type) where
  /-- The lock query runs. -/
  | tryLock (connection : Connection)
  /-- The lock query throws. -/
  | lockFails (error : ε)
  | enter
  | settle (outcome : Except ε α)
  /-- The unlock query runs. -/
  | unlock (connection : Connection)
  /-- The unlock query throws; its connection may be lost. -/
  | unlockFails (connection : Connection) (lost : Bool)

/-- The answer of the lock query. -/
def answered (locked : Bool) (connection : Connection) : Phase α ε :=
  if locked then .entering connection else .finished (.ok { acquired := false, result := none })

/-- What the call returns, or throws, once its function is done. -/
def released : Except ε α → Except ε (AdvisoryLockResult α)
  | .ok result => .ok { acquired := true, result := some result }
  | .error error => .error error

def withAdvisoryLock (process : Nat) (lock : SessionLock Connection) :
    Phase α ε → Turn α ε → Option (SessionLock Connection × Phase α ε)
  | .called, .tryLock connection =>
      if connection.process = process then
        some ((lock.tryLock connection).2, answered (lock.tryLock connection).1 connection)
      else none
  | .called, .lockFails error => some (lock, .finished (.error error))
  | .entering taken, .enter => some (lock, .running taken)
  | .running taken, .settle outcome => some (lock, .releasing taken outcome)
  | .releasing _ outcome, .unlock connection =>
      if connection.process = process then
        some ((lock.unlock connection).2, .finished (released outcome))
      else none
  | .releasing _ outcome, .unlockFails connection lost =>
      if connection.process = process then
        some (if lost then lock.endSession connection else lock, .finished (released outcome))
      else none
  | _, _ => none

/-! ## Calls of many processes -/

structure Call (α ε : Type) where
  process : Nat
  phase : Phase α ε

structure World (α ε : Type) where
  /-- The locks of the server by their keys. -/
  server : Nat → SessionLock Connection
  calls : Nat → Option (Call α ε)

inductive Event (α ε : Type) where
  | call (c process : Nat)
  | turn (c : Nat) (turn : Turn α ε)
  /-- A pool closes a connection. -/
  | close (connection : Connection)

def initialWorld : World α ε where
  server _ := none
  calls _ := none

def World.lock (w : World α ε) : SessionLock Connection :=
  w.server ADVISORY_LOCK_KEY

def World.setLock (w : World α ε) (lock : SessionLock Connection) : World α ε :=
  { w with server := Function.update w.server ADVISORY_LOCK_KEY lock }

/-- The lock and one call as they are now. -/
def World.set (w : World α ε) (lock : SessionLock Connection) (c : Nat) (call : Call α ε) :
    World α ε :=
  { w.setLock lock with calls := Function.update w.calls c (some call) }

def step (w : World α ε) : Event α ε → Option (World α ε)
  | .call c process =>
      if (w.calls c).isNone then some (w.set w.lock c { process := process, phase := .called })
      else none
  | .turn c turn =>
      (w.calls c).bind fun call =>
        (withAdvisoryLock call.process w.lock call.phase turn).map fun next =>
          w.set next.1 c { call with phase := next.2 }
  | .close connection => some (w.setLock (w.lock.endSession connection))

/-! ## The lock and the protected functions -/

/-- The connection that took the lock for a call which has not given it back. -/
def Phase.taken? : Phase α ε → Option Connection
  | .entering taken => some taken
  | .running taken => some taken
  | .releasing taken _ => some taken
  | _ => none

def Running (w : World α ε) (c : Nat) : Prop :=
  ∃ process taken, w.calls c = some { process := process, phase := .running taken }

/-- No protected function is running or being entered. -/
def Unprotected (w : World α ε) : Prop :=
  ∀ c call, w.calls c = some call →
    ∀ taken, call.phase ≠ .entering taken ∧ call.phase ≠ .running taken

/-- No call is between its function and its unlock query. -/
def Released (w : World α ε) : Prop :=
  ∀ c call, w.calls c = some call → ∀ taken outcome, call.phase ≠ .releasing taken outcome

/-- The lock query of the call was answered with the lock. -/
def Acquired (w : World α ε) (c : Nat) : Prop :=
  ∃ process taken, w.calls c = some { process := process, phase := .entering taken }

/-- The lock is taken and given back on one connection, and once at a time. -/
def InPlace (w : World α ε) : Event α ε → Prop
  | .turn _ (.tryLock connection) => w.lock.holds connection = 0
  | .turn c (.unlock connection) =>
      ∀ call, w.calls c = some call → call.phase.taken? = some connection
  | .turn c (.unlockFails connection lost) =>
      lost = true ∧ ∀ call, w.calls c = some call → call.phase.taken? = some connection
  | .close connection => w.lock.holds connection = 0
  | _ => True

/-! ## The invariant -/

/-- The lock is held once by the connection of each call that has it, and by no other. -/
structure Inv (w : World α ε) : Prop where
  held : ∀ c call x, w.calls c = some call → call.phase.taken? = some x → w.lock.holds x = 1
  owner : ∀ x, 0 < w.lock.holds x → ∃ c call, w.calls c = some call ∧ call.phase.taken? = some x
  unique :
    ∀ c d call call' x, w.calls c = some call → w.calls d = some call' →
      call.phase.taken? = some x → call'.phase.taken? = some x → c = d

variable {w w' : World α ε}

theorem lock_setLock (w : World α ε) (lock : SessionLock Connection) :
    (w.setLock lock).lock = lock := by
  change Function.update w.server ADVISORY_LOCK_KEY lock ADVISORY_LOCK_KEY = lock
  exact Function.update_self _ _ _

theorem lock_set (w : World α ε) (lock : SessionLock Connection) (c : Nat) (call : Call α ε) :
    (w.set lock c call).lock = lock :=
  lock_setLock w lock

theorem calls_set_self (w : World α ε) (lock : SessionLock Connection) (c : Nat) (call : Call α ε) :
    (w.set lock c call).calls c = some call := by
  change Function.update w.calls c (some call) c = some call
  exact Function.update_self _ _ _

theorem calls_set_of_ne
    (lock : SessionLock Connection) (call : Call α ε) {c d : Nat}
    (hne : d ≠ c) :
    (w.set lock c call).calls d = w.calls d := by
  change Function.update w.calls c (some call) d = w.calls d
  exact Function.update_of_ne hne _ _

variable {c : Nat}

theorem calls_set_cases
    {lock : SessionLock Connection} {d : Nat} {call other : Call α ε}
    (hother : (w.set lock c call).calls d = some other) :
    d = c ∧ other = call ∨ d ≠ c ∧ w.calls d = some other :=
  update_some_cases hother

theorem inv_initialWorld : Inv (initialWorld : World α ε) where
  held := nofun
  owner := by
    intro x hx
    exact absurd hx (Nat.lt_irrefl 0)
  unique := nofun

/-- Two calls that have the lock are one. -/
theorem Inv.eq_of_taken
    (h : Inv w)
    {d : Nat} {call call' : Call α ε} {x y : Connection}
    (hc : w.calls c = some call)
    (hd : w.calls d = some call')
    (hx : call.phase.taken? = some x)
    (hy : call'.phase.taken? = some y) :
    c = d := by
  have hholds := h.held c call x hc hx
  have hholds' := h.held d call' y hd hy
  have hsame : x = y := by
    apply SessionLock.holds_exclusive
    · rw [hholds]
      exact Nat.one_pos
    · rw [hholds']
      exact Nat.one_pos
  subst hsame
  exact h.unique c d call call' x hc hd hx hy

/-- Where no call has the lock, every connection can take it. -/
theorem Inv.tryLock_of_untaken
    (h : Inv w)
    (huntaken : ∀ c call, w.calls c = some call → call.phase.taken? = none)
    (connection : Connection) :
    (w.lock.tryLock connection).1 = true := by
  refine SessionLock.tryLock_iff.mpr fun other _ => ?_
  by_contra hheld
  obtain ⟨c, call, hcall, htaken⟩ := h.owner other (Nat.pos_of_ne_zero hheld)
  rw [huntaken c call hcall] at htaken
  cases htaken

/-- One call changes, and the lock is held as the phases say. -/
theorem Inv.set (h : Inv w) {call : Call α ε} {lock : SessionLock Connection}
    (hothers :
      ∀ d other x, d ≠ c → w.calls d = some other → other.phase.taken? = some x →
        lock.holds x = 1 ∧ call.phase.taken? ≠ some x)
    (hheld : ∀ x, call.phase.taken? = some x → lock.holds x = 1)
    (howner :
      ∀ x, 0 < lock.holds x → call.phase.taken? = some x ∨
        0 < w.lock.holds x ∧ ∀ old, w.calls c = some old → old.phase.taken? ≠ some x) :
    Inv (w.set lock c call) := by
  refine ⟨?_, ?_, ?_⟩
  · intro d other x hother htaken
    rw [lock_set]
    rcases calls_set_cases hother with ⟨-, rfl⟩ | ⟨hd, hbefore⟩
    · exact hheld x htaken
    · exact (hothers d other x hd hbefore htaken).1
  · intro x hx
    rw [lock_set] at hx
    rcases howner x hx with hmine | ⟨hbefore, hfree⟩
    · exact ⟨c, call, calls_set_self w lock c call, hmine⟩
    · obtain ⟨d, other, hother, htaken⟩ := h.owner x hbefore
      refine ⟨d, other, (calls_set_of_ne lock call ?_).trans hother, htaken⟩
      rintro rfl
      exact hfree other hother htaken
  · intro a b first second x ha hb hfirst hsecond
    rcases calls_set_cases ha with ⟨rfl, rfl⟩ | ⟨hane, ha'⟩
    · rcases calls_set_cases hb with ⟨rfl, rfl⟩ | ⟨hbne, hb'⟩
      · rfl
      · exact absurd hfirst (hothers b second x hbne hb' hsecond).2
    · rcases calls_set_cases hb with ⟨rfl, rfl⟩ | ⟨hbne, hb'⟩
      · exact absurd hsecond (hothers a first x hane ha' hfirst).2
      · exact h.unique a b first second x ha' hb' hfirst hsecond

variable {phase : Phase α ε}

/-- The lock stays, and the call has it as before. -/
theorem Inv.keep
    (h : Inv w)
    {call : Call α ε}
    (hcall : w.calls c = some call)
    (hsame : phase.taken? = call.phase.taken?) :
    Inv (w.set w.lock c { call with phase := phase }) := by
  refine h.set ?_ ?_ ?_
  · intro d other x hd hother htaken
    refine ⟨h.held d other x hother htaken, ?_⟩
    rw [hsame]
    exact fun hmine => hd (h.eq_of_taken hother hcall htaken hmine)
  · intro x hx
    rw [hsame] at hx
    exact h.held c call x hcall hx
  · intro x hx
    rw [hsame]
    by_cases hmine : call.phase.taken? = some x
    · exact Or.inl hmine
    · refine Or.inr ⟨hx, fun old hold => ?_⟩
      rw [hcall] at hold
      cases hold
      exact hmine

variable {connection : Connection}

/-- The lock was free, and is held once by the connection of the call. -/
theorem Inv.lock
    (h : Inv w)
    {call : Call α ε}
    (hfree : w.lock.holds connection = 0)
    (hlocked : (w.lock.tryLock connection).1 = true) :
    Inv (w.set (w.lock.tryLock connection).2 c { call with phase := .entering connection }) := by
  have hnone : ∀ x, w.lock.holds x = 0 := by
    intro x
    by_cases hx : x = connection
    · rw [hx]
      exact hfree
    · exact SessionLock.tryLock_iff.mp hlocked x hx
  refine h.set ?_ ?_ ?_
  · intro d other x _ hother htaken
    have hheld := h.held d other x hother htaken
    rw [hnone x] at hheld
    cases hheld
  · intro x hx
    cases hx
    rw [SessionLock.holds_tryLock, if_pos ⟨hlocked, rfl⟩, hfree]
  · intro x hx
    rw [SessionLock.holds_tryLock, hnone x] at hx
    split at hx
    · next hmine => exact Or.inl (congrArg some hmine.2.symm)
    · exact absurd hx (Nat.lt_irrefl 0)

/-- The lock is given back, and the others are as before. -/
theorem Inv.release
    (h : Inv w)
    {call : Call α ε} {lock : SessionLock Connection}
    (hcall : w.calls c = some call)
    (htaken : call.phase.taken? = some connection)
    (hlock : ∀ x, lock.holds x = if x = connection then 0 else w.lock.holds x)
    (hphase : phase.taken? = none) :
    Inv (w.set lock c { call with phase := phase }) := by
  refine h.set ?_ ?_ ?_
  · intro d other x hd hother hx
    exact absurd (h.eq_of_taken hother hcall hx htaken) hd
  · intro x hx
    rw [hphase] at hx
    cases hx
  · intro x hx
    rw [hlock x] at hx
    split at hx
    · exact absurd hx (Nat.lt_irrefl 0)
    · next hother =>
      refine Or.inr ⟨hx, fun old hold hmine => hother ?_⟩
      rw [hcall] at hold
      cases hold
      rw [htaken] at hmine
      exact (Option.some.inj hmine).symm

theorem inv_turn
    (h : Inv w)
    {call : Call α ε} {turn : Turn α ε} {lock : SessionLock Connection}
    (hcall : w.calls c = some call)
    (hguard : InPlace w (.turn c turn))
    (hturn : withAdvisoryLock call.process w.lock call.phase turn = some (lock, phase)) :
    Inv (w.set lock c { call with phase := phase }) := by
  obtain ⟨process, before⟩ := call
  cases before with
  | called =>
      cases turn with
      | tryLock connection =>
          simp only [withAdvisoryLock] at hturn
          split at hturn
          · cases hturn
            cases hlocked : (w.lock.tryLock connection).1 with
            | true => exact h.lock hguard hlocked
            | false =>
                rw [SessionLock.tryLock_of_refused hlocked]
                exact h.keep hcall rfl
          · cases hturn
      | lockFails error =>
          cases hturn
          exact h.keep hcall rfl
      | enter => cases hturn
      | settle => cases hturn
      | unlock => cases hturn
      | unlockFails => cases hturn
  | entering taken =>
      cases turn with
      | enter =>
          cases hturn
          exact h.keep hcall rfl
      | tryLock => cases hturn
      | lockFails => cases hturn
      | settle => cases hturn
      | unlock => cases hturn
      | unlockFails => cases hturn
  | running taken =>
      cases turn with
      | settle outcome =>
          cases hturn
          exact h.keep hcall rfl
      | tryLock => cases hturn
      | lockFails => cases hturn
      | enter => cases hturn
      | unlock => cases hturn
      | unlockFails => cases hturn
  | releasing taken outcome =>
      cases turn with
      | unlock connection =>
          simp only [withAdvisoryLock] at hturn
          split at hturn
          · cases hturn
            have htaken := hguard _ hcall
            refine h.release hcall htaken ?_ rfl
            intro x
            rw [SessionLock.holds_unlock]
            split
            · next hx =>
              rw [hx, h.held c _ connection hcall htaken]
            · rfl
          · cases hturn
      | unlockFails connection lost =>
          obtain ⟨rfl, htaken⟩ := hguard
          simp only [withAdvisoryLock] at hturn
          split at hturn
          · cases hturn
            exact
              h.release hcall (htaken _ hcall)
                (fun x => SessionLock.holds_endSession w.lock connection x) rfl
          · cases hturn
      | tryLock => cases hturn
      | lockFails => cases hturn
      | enter => cases hturn
      | settle => cases hturn
  | finished outcome => cases hturn

/-- A call that has not the lock comes in. -/
theorem Inv.call
    (h : Inv w)
    {call : Call α ε}
    (hfree : w.calls c = none)
    (hcall : call.phase.taken? = none) :
    Inv (w.set w.lock c call) := by
  refine h.set ?_ ?_ ?_
  · intro d other x _ hother htaken
    refine ⟨h.held d other x hother htaken, ?_⟩
    rw [hcall]
    exact nofun
  · intro x hx
    rw [hcall] at hx
    cases hx
  · intro x hx
    refine Or.inr ⟨hx, fun old hold => ?_⟩
    rw [hfree] at hold
    cases hold

/-- The end of a connection without the lock changes nothing. -/
theorem Inv.close (h : Inv w) (hfree : w.lock.holds connection = 0) :
    Inv (w.setLock (w.lock.endSession connection)) := by
  have hsame : ∀ x, (w.lock.endSession connection).holds x = w.lock.holds x := by
    intro x
    rw [SessionLock.holds_endSession]
    split
    · next hx =>
      rw [hx]
      exact hfree.symm
    · rfl
  refine ⟨?_, ?_, h.unique⟩
  · intro c call x hcall htaken
    rw [lock_setLock, hsame x]
    exact h.held c call x hcall htaken
  · intro x hx
    rw [lock_setLock, hsame x] at hx
    exact h.owner x hx

theorem inv_step
    (h : Inv w)
    {event : Event α ε}
    (hguard : InPlace w event)
    (hstep : step w event = some w') :
    Inv w' := by
  cases event with
  | call c process =>
      rw [step] at hstep
      split at hstep
      · next hfree =>
        cases hstep
        exact h.call (Option.isNone_iff_eq_none.mp hfree) rfl
      · cases hstep
  | turn c turn =>
      rw [step, Option.bind_eq_some_iff] at hstep
      obtain ⟨call, hcall, hnext⟩ := hstep
      obtain ⟨⟨lock, phase⟩, hturn, rfl⟩ := Option.map_eq_some_iff.mp hnext
      exact inv_turn h hcall hguard hturn
  | close connection =>
      cases hstep
      exact h.close hguard

/--
No two protected functions run at once, and where none runs or is entered and
no call has yet to give the lock back, the next lock query acquires it.
-/
theorem excludes_of_reaches (hrun : Reaches step InPlace (initialWorld : World α ε) w) :
    (∀ c d, Running w c → Running w d → c = d) ∧
    (Unprotected w → Released w →
      ∀ c connection w', step w (.turn c (.tryLock connection)) = some w' → Acquired w' c) := by
  have h : Inv w :=
    hrun.invariant inv_initialWorld fun _ _ _ hinv hguard hstep => inv_step hinv hguard hstep
  constructor
  · rintro c d ⟨process, taken, hc⟩ ⟨process', taken', hd⟩
    exact h.eq_of_taken hc hd rfl rfl
  · intro hunprotected hreleased c connection w' hstep
    have huntaken : ∀ d call, w.calls d = some call → call.phase.taken? = none := by
      intro d call hcall
      cases hphase : call.phase with
      | called => rfl
      | entering taken => exact absurd hphase (hunprotected d call hcall taken).1
      | running taken => exact absurd hphase (hunprotected d call hcall taken).2
      | releasing taken outcome => exact absurd hphase (hreleased d call hcall taken outcome)
      | finished => rfl
    have hlocked := h.tryLock_of_untaken huntaken connection
    rw [step, Option.bind_eq_some_iff] at hstep
    obtain ⟨⟨process, phase⟩, hcall, hnext⟩ := hstep
    obtain ⟨⟨lock, phase'⟩, hturn, rfl⟩ := Option.map_eq_some_iff.mp hnext
    cases phase with
    | called =>
        simp only [withAdvisoryLock] at hturn
        split at hturn
        · cases hturn
          refine ⟨process, connection, ?_⟩
          rw [hlocked]
          exact calls_set_self _ _ _ _
        · cases hturn
    | entering => cases hturn
    | running => cases hturn
    | releasing => cases hturn
    | finished => cases hturn

end MigrationsLock

/-! ## Two processes -/

section Processes

variable {w w' : World Nat String}

def firstConnection : Connection where
  process := 1
  index := 0

def otherConnection : Connection where
  process := 1
  index := 1

def foreignConnection : Connection where
  process := 2
  index := 0

/-- The lock as the first connection holds it. -/
def firstHold : SessionLock Connection :=
  some { session := firstConnection, count := 1, pos := Nat.one_pos }

def call (process : Nat) (phase : Phase Nat String) : Call Nat String where
  process := process
  phase := phase

theorem set_set
    (w : World Nat String) (lock lock' : SessionLock Connection) (c : Nat)
    (first second : Call Nat String) :
    (w.set lock c first).set lock' c second = w.set lock' c second := by
  unfold World.set World.setLock
  dsimp only
  rw [Function.update_idem, Function.update_idem]

variable {c : Nat}

theorem set_comm
    {d : Nat}
    (hne : c ≠ d)
    (w : World Nat String) (lock lock' : SessionLock Connection)
    (first second : Call Nat String) :
    (w.set lock c first).set lock' d second = (w.set lock' d second).set lock' c first := by
  unfold World.set World.setLock
  dsimp only
  rw [Function.update_comm hne, Function.update_idem, Function.update_idem]

theorem step_call {process : Nat} (hfree : w.calls c = none) :
    step w (.call c process) = some (w.set w.lock c (call process .called)) := by
  rw [step, hfree]
  rfl

theorem step_turn
    {process : Nat} {lock lock' : SessionLock Connection} {phase phase' : Phase Nat String}
    {turn : Turn Nat String}
    (hturn : withAdvisoryLock process lock phase turn = some (lock', phase')) :
    step (w.set lock c (call process phase)) (.turn c turn) =
      some (w.set lock' c (call process phase')) := by
  rw [step, calls_set_self, Option.bind_some, lock_set]
  change (withAdvisoryLock process lock phase turn).map _ = _
  rw [hturn, Option.map_some, set_set]
  rfl

/-- A call comes in, takes the free lock and enters its function. -/
theorem reaches_running (hfree : w.calls 1 = none) (hlock : w.lock = none) :
    Reaches step InPlace w (w.set firstHold 1 (call 1 (.running firstConnection))) := by
  have hcalled : step w (.call 1 1) = some (w.set none 1 (call 1 .called)) := by
    rw [step_call hfree, hlock]
  have hlocked :
      step (w.set none 1 (call 1 .called)) (.turn 1 (.tryLock firstConnection)) =
        some (w.set firstHold 1 (call 1 (.entering firstConnection))) :=
    step_turn rfl
  have hentered :
      step (w.set firstHold 1 (call 1 (.entering firstConnection))) (.turn 1 .enter) =
        some (w.set firstHold 1 (call 1 (.running firstConnection))) :=
    step_turn rfl
  have hopen : (w.set none 1 (call 1 .called)).lock.holds firstConnection = 0 := by
    rw [lock_set]
    rfl
  have hfirst : Reaches step InPlace w (w.set none 1 (call 1 .called)) :=
    Reaches.tail (e := .call 1 1) (Reaches.refl _) trivial hcalled
  have hsecond :
      Reaches step InPlace w (w.set firstHold 1 (call 1 (.entering firstConnection))) :=
    Reaches.tail (e := .turn 1 (.tryLock firstConnection)) hfirst hopen hlocked
  exact Reaches.tail (e := .turn 1 .enter) hsecond trivial hentered

/-- The function of the call returns. -/
theorem reaches_releasing (hfree : w.calls 1 = none) (hlock : w.lock = none) :
    Reaches step InPlace w (w.set firstHold 1 (call 1 (.releasing firstConnection (.ok 5)))) := by
  have hsettled :
      step (w.set firstHold 1 (call 1 (.running firstConnection))) (.turn 1 (.settle (.ok 5))) =
        some (w.set firstHold 1 (call 1 (.releasing firstConnection (.ok 5)))) :=
    step_turn rfl
  exact
    Reaches.tail (e := .turn 1 (.settle (.ok 5))) (reaches_running hfree hlock) trivial hsettled

def done : Call Nat String :=
  call 1 (.finished (.ok { acquired := true, result := some 5 }))

/-- The unlock query runs on the connection that took the lock. -/
theorem reaches_done (hfree : w.calls 1 = none) (hlock : w.lock = none) :
    Reaches step InPlace w (w.set none 1 done) := by
  have hunlocked :
      step (w.set firstHold 1 (call 1 (.releasing firstConnection (.ok 5))))
          (.turn 1 (.unlock firstConnection)) =
        some (w.set none 1 done) :=
    step_turn rfl
  refine
    Reaches.tail (e := .turn 1 (.unlock firstConnection)) (reaches_releasing hfree hlock) ?_
      hunlocked
  intro old hold
  rw [calls_set_self] at hold
  cases hold
  rfl

/-- Two calls, and what holds of both. -/
theorem forall_calls
    {P : Call Nat String → Prop} {lock lock' : SessionLock Connection}
    {first second : Call Nat String}
    (hfirst : P first)
    (hsecond : P second) :
    ∀ c other,
      ((initialWorld.set lock 1 first).set lock' 2 second).calls c = some other → P other := by
  intro c other hother
  rcases calls_set_cases hother with ⟨-, rfl⟩ | ⟨-, hbefore⟩
  · exact hsecond
  · rcases calls_set_cases hbefore with ⟨-, rfl⟩ | ⟨-, hnone⟩
    · exact hfirst
    · cases hnone

/-- After a whole call of one process the lock query of another is answered with the lock. -/
theorem excludes_twoProcesses :
    ∃ w w' : World Nat String, Reaches step InPlace initialWorld w ∧
      step w (.turn 2 (.tryLock foreignConnection)) = some w' ∧ Acquired w' 2 := by
  have hcalled :
      step (initialWorld.set none 1 done) (.call 2 2) =
        some ((initialWorld.set none 1 done).set none 2 (call 2 .called)) := by
    rw [step_call ((calls_set_of_ne none done (by decide)).trans rfl), lock_set]
  have hrun :
      Reaches step InPlace initialWorld
        ((initialWorld.set none 1 done).set none 2 (call 2 .called)) :=
    Reaches.tail (e := .call 2 2) (reaches_done rfl rfl) trivial hcalled
  have hquery :
      step ((initialWorld.set none 1 done).set none 2 (call 2 .called))
          (.turn 2 (.tryLock foreignConnection)) =
        some
          ((initialWorld.set none 1 done).set
            (some { session := foreignConnection, count := 1, pos := Nat.one_pos }) 2
            (call 2 (.entering foreignConnection))) :=
    step_turn rfl
  exact
    ⟨_, _, hrun, hquery,
      (excludes_of_reaches hrun).2 (forall_calls (fun _ => ⟨nofun, nofun⟩) fun _ => ⟨nofun, nofun⟩)
        (forall_calls nofun nofun) 2 foreignConnection _ hquery⟩

/-! ### Runs on other connections -/

theorem anyEvent_of_inPlace (hrun : Reaches step InPlace w w') :
    Reaches step anyEvent w w' :=
  Relation.ReflTransGen.mono (fun _ _ ⟨event, _, hstep⟩ => ⟨event, trivial, hstep⟩) _ _ hrun

/-- The lock as the first connection holds it when two calls have taken it. -/
def firstHoldTwice : SessionLock Connection :=
  some { session := firstConnection, count := 2, pos := Nat.two_pos }

/-- Both lock queries of one process run on one connection. -/
theorem running_both :
    ∃ w : World Nat String, Reaches step anyEvent initialWorld w ∧ Running w 1 ∧ Running w 2 := by
  have hcalled :
      step (initialWorld : World Nat String) (.call 2 1) =
        some (initialWorld.set none 2 (call 1 .called)) :=
    step_call rfl
  have hfirst :
      Reaches step InPlace initialWorld
        ((initialWorld.set none 2 (call 1 .called)).set firstHold 1
          (call 1 (.running firstConnection))) :=
    (Reaches.tail (e := .call 2 1) (Reaches.refl _) trivial hcalled).trans
      (reaches_running ((calls_set_of_ne none _ (by decide)).trans rfl) (lock_set _ _ _ _))
  rw [set_comm (show (2 : Nat) ≠ 1 by decide)] at hfirst
  have hlocked :
      step
          ((initialWorld.set firstHold 1 (call 1 (.running firstConnection))).set firstHold 2
            (call 1 .called))
          (.turn 2 (.tryLock firstConnection)) =
        some
          ((initialWorld.set firstHold 1 (call 1 (.running firstConnection))).set firstHoldTwice 2
            (call 1 (.entering firstConnection))) :=
    step_turn rfl
  have hentered :
      step
          ((initialWorld.set firstHold 1 (call 1 (.running firstConnection))).set firstHoldTwice 2
            (call 1 (.entering firstConnection)))
          (.turn 2 .enter) =
        some
          ((initialWorld.set firstHold 1 (call 1 (.running firstConnection))).set firstHoldTwice 2
            (call 1 (.running firstConnection))) :=
    step_turn rfl
  have hsecond :=
    Reaches.tail (e := .turn 2 (.tryLock firstConnection)) (anyEvent_of_inPlace hfirst) trivial
      hlocked
  refine
    ⟨_, Reaches.tail (e := .turn 2 .enter) hsecond trivial hentered, ⟨1, firstConnection, ?_⟩,
      ⟨1, firstConnection, calls_set_self _ _ _ _⟩⟩
  rw [calls_set_of_ne firstHoldTwice _ (by decide)]
  exact calls_set_self _ _ _ _

/-- A lock query of the other process, after a call that has left the lock with its connection. -/
theorem refused_foreign
    {guard : World Nat String → Event Nat String → Prop} {first : Call Nat String}
    (hguard : ∀ w c process, guard w (.call c process))
    (hrun : Reaches step guard initialWorld (initialWorld.set firstHold 1 first)) :
    ∃ w', Reaches step guard initialWorld
        ((initialWorld.set firstHold 1 first).set firstHold 2 (call 2 .called)) ∧
      step ((initialWorld.set firstHold 1 first).set firstHold 2 (call 2 .called))
          (.turn 2 (.tryLock foreignConnection)) = some w' ∧
        ¬ Acquired w' 2 := by
  have hcalled :
      step (initialWorld.set firstHold 1 first) (.call 2 2) =
        some ((initialWorld.set firstHold 1 first).set firstHold 2 (call 2 .called)) := by
    rw [step_call ((calls_set_of_ne firstHold first (by decide)).trans rfl), lock_set]
  have hquery :
      step ((initialWorld.set firstHold 1 first).set firstHold 2 (call 2 .called))
          (.turn 2 (.tryLock foreignConnection)) =
        some
          ((initialWorld.set firstHold 1 first).set firstHold 2
            (call 2 (.finished (.ok { acquired := false, result := none })))) :=
    step_turn rfl
  refine ⟨_, Reaches.tail (e := .call 2 2) hrun (hguard _ _ _) hcalled, hquery, ?_⟩
  rintro ⟨process, taken, hcall⟩
  rw [calls_set_self] at hcall
  cases hcall

/-- The unlock query runs on another connection, and the lock stays taken. -/
theorem reaches_leaked :
    Reaches step anyEvent initialWorld (initialWorld.set firstHold 1 done) := by
  have hunlocked :
      step (initialWorld.set firstHold 1 (call 1 (.releasing firstConnection (.ok 5))))
          (.turn 1 (.unlock otherConnection)) =
        some (initialWorld.set firstHold 1 done) :=
    step_turn rfl
  exact
    Reaches.tail (e := .turn 1 (.unlock otherConnection))
      (anyEvent_of_inPlace (reaches_releasing rfl rfl)) trivial hunlocked

/--
Two functions run at once; the lock is refused though no function runs, after
an unlock on another connection and before an unlock.
-/
theorem not_excludes_migrations :
    (∃ w : World Nat String, Reaches step anyEvent initialWorld w ∧ Running w 1 ∧ Running w 2) ∧
    (∃ w w' : World Nat String, Reaches step anyEvent initialWorld w ∧ Unprotected w ∧
      Released w ∧ step w (.turn 2 (.tryLock foreignConnection)) = some w' ∧ ¬ Acquired w' 2) ∧
    (∃ w w' : World Nat String, Reaches step InPlace initialWorld w ∧ Unprotected w ∧
      step w (.turn 2 (.tryLock foreignConnection)) = some w' ∧ ¬ Acquired w' 2) := by
  refine ⟨running_both, ?_, ?_⟩
  · obtain ⟨w', hrun, hstep, hrefused⟩ := refused_foreign (fun _ _ _ => trivial) reaches_leaked
    exact
      ⟨_, w', hrun, forall_calls (fun _ => ⟨nofun, nofun⟩) fun _ => ⟨nofun, nofun⟩,
        forall_calls nofun nofun, hstep, hrefused⟩
  · obtain ⟨w', hrun, hstep, hrefused⟩ :=
      refused_foreign (fun _ _ _ => trivial) (reaches_releasing rfl rfl)
    exact
      ⟨_, w', hrun, forall_calls (fun _ => ⟨nofun, nofun⟩) fun _ => ⟨nofun, nofun⟩, hstep,
        hrefused⟩

end Processes

end Migrations
end NestBase
