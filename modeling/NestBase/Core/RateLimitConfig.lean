import NestBase.Lib.OrderedMap
import NestBase.Lib.Transition
import Mathlib.Data.Rat.Defs
import Mathlib.Tactic

/-!
# The live rate-limit windows

`RateLimitConfigService` keeps the rows of the table in a map and replaces the
whole map on every refresh.  `setWindow` and `deleteWindow` write a row and then
refresh; a timer refreshes as well.  A refresh reads the rows, is suspended, and
swaps the map of these rows in when it resumes.

Every event has a number, the `clock` before it.  A write carries the number of
its commit, a refresh the number of its read.  These numbers are read by no code.

A write is `installed` once the refresh that follows it has swapped its map in.
From then on `getWindow` should return what was written, until another write to
the scope commits.  This holds as long as no refresh swaps in rows that it read
before an installed write which is still the last one to its scope
(`NoStaleSwap`).
-/

namespace NestBase
namespace RateLimitConfig

open Lib

/-! ## The planner -/

structure ScopeWindow where
  maxRequests : ℚ
  windowSeconds : ℚ
  deriving DecidableEq

/-- `none` when the window is valid, otherwise the error. -/
def validateRateLimitConfig (input : ScopeWindow) : Option String :=
  if input.maxRequests ≤ 0 then some "maxRequests must be greater than 0"
  else if input.maxRequests > 100000 then some "maxRequests must not exceed 100,000"
  else if input.windowSeconds ≤ 0 then some "windowSeconds must be greater than 0"
  else if input.windowSeconds > 86400 then
    some "windowSeconds must not exceed 86,400 (one day)"
  else none

abbrev ScopeMap : Type := Record String ScopeWindow

def buildDefaultScopeMap : ScopeMap :=
  ((((((Record.empty.set "global:1s" ⟨20, 1⟩).set "global:1m" ⟨300, 60⟩).set
    "global:1h" ⟨5000, 3600⟩).set "auth:signIn" ⟨5, 60⟩).set "auth:signUp" ⟨10, 60⟩).set
      "auth:passwordReset" ⟨3, 3600⟩).set "auth:verifyEmail" ⟨10, 3600⟩

/-- Every default is a window an operator could set. -/
theorem validateRateLimitConfig_defaults :
    ∀ entry ∈ buildDefaultScopeMap.entries, validateRateLimitConfig entry.2 = none := by
  decide +kernel

/-! ## The service -/

/-- What `getWindow` returns for a scope without a row. -/
def defaultWindow (scope : String) : ScopeWindow :=
  (buildDefaultScopeMap.get scope).getD { maxRequests := 10000, windowSeconds := 60 }

def getWindow (cache : ScopeMap) (scope : String) : ScopeWindow :=
  (cache.get scope).getD (defaultWindow scope)

/-- The integer columns of the table take the window. -/
def storable (window : ScopeWindow) : Bool :=
  window.maxRequests.isInt && window.windowSeconds.isInt

/-- The map a refresh builds from the rows it read. -/
def buildCache (rows : ScopeMap) : ScopeMap :=
  Record.empty.assign rows

/-- An upsert of a window, or the deletion of the rows of a scope. -/
structure ConfigWrite where
  scope : String
  window : Option ScopeWindow
  deriving DecidableEq

def ConfigWrite.apply (write : ConfigWrite) (table : ScopeMap) : ScopeMap :=
  match write.window with
  | some window => table.set write.scope window
  | none => table.restrict fun scope => scope ≠ write.scope

/-- A write with the number of its commit. -/
structure Committed where
  write : ConfigWrite
  number : Nat
  deriving DecidableEq

/-- Where a call of the service is; a call without a write is a refresh of the timer. -/
inductive Call where
  | notStarted
  /-- Suspended in `upsert` or `deleteMany`. -/
  | writing (write : ConfigWrite)
  /-- Suspended in the `findMany` of `refresh`. -/
  | reading (committed : Option Committed)
  /-- The rows are read, and `refresh` has not resumed. -/
  | rowsRead (committed : Option Committed) (rows : ScopeMap) (readAt : Nat)
  /-- `refresh` has swapped its map in, and its caller has not resumed. -/
  | swapped (committed : Option Committed)
  | returned (committed : Option Committed)
  | rejected (message : String)

structure World where
  /-- The rows of the table, by their scope. -/
  table : ScopeMap
  cache : ScopeMap
  calls : Nat → Call
  /-- The number of events so far. -/
  clock : Nat
  /-- The number of the last write to a scope that committed. -/
  lastWrite : String → Option Nat
  /-- The writes whose own refresh has swapped its map in. -/
  installed : List Committed

inductive Event where
  /-- The timer, or the start of the module, starts a refresh. -/
  | refresh (c : Nat)
  | setWindow (c : Nat) (scope : String) (window : ScopeWindow)
  | deleteWindow (c : Nat) (scope : String)
  /-- The write of call `c` commits. -/
  | commit (c : Nat)
  /-- The write of call `c` fails. -/
  | commitFails (c : Nat) (message : String)
  /-- The `findMany` of call `c` reads the rows. -/
  | findMany (c : Nat)
  | findManyFails (c : Nat) (message : String)
  /-- The refresh of call `c` resumes and swaps its map in. -/
  | swap (c : Nat)
  /-- Call `c` returns. -/
  | finish (c : Nat)

namespace World

def setCall (w : World) (c : Nat) (phase : Call) : World :=
  { w with calls := Function.update w.calls c phase }

/-- The next event has the next number. -/
def tick (w : World) : World :=
  { w with clock := w.clock + 1 }

end World

def initialWorld (table : ScopeMap) : World where
  table := table
  cache := Record.empty
  calls := fun _ => .notStarted
  clock := 0
  lastWrite := fun _ => none
  installed := []

/-- `setWindow` up to its first suspension. -/
def startSetWindow (scope : String) (window : ScopeWindow) : Call :=
  match validateRateLimitConfig window with
  | some error => .rejected ("rate-limit-config: invalid config — " ++ error)
  | none =>
      if storable window then .writing { scope := scope, window := some window }
      else .rejected "the columns are integers"

def commitWrite (w : World) (c : Nat) (write : ConfigWrite) : World :=
  { w with
    table := write.apply w.table
    lastWrite := Function.update w.lastWrite write.scope (some w.clock)
    calls := Function.update w.calls c (.reading (some { write := write, number := w.clock })) }

def swapCache (w : World) (c : Nat) (committed : Option Committed) (rows : ScopeMap) : World :=
  { w with
    cache := buildCache rows
    installed := committed.toList ++ w.installed
    calls := Function.update w.calls c (.swapped committed) }

/-- What an event does, besides taking a number. -/
def act (w : World) : Event → Option World
  | .refresh c =>
      match w.calls c with
      | .notStarted => some (w.setCall c (.reading none))
      | _ => none
  | .setWindow c scope window =>
      match w.calls c with
      | .notStarted => some (w.setCall c (startSetWindow scope window))
      | _ => none
  | .deleteWindow c scope =>
      match w.calls c with
      | .notStarted => some (w.setCall c (.writing { scope := scope, window := none }))
      | _ => none
  | .commit c =>
      match w.calls c with
      | .writing write => some (commitWrite w c write)
      | _ => none
  | .commitFails c message =>
      match w.calls c with
      | .writing _ => some (w.setCall c (.rejected message))
      | _ => none
  | .findMany c =>
      match w.calls c with
      | .reading committed => some (w.setCall c (.rowsRead committed w.table w.clock))
      | _ => none
  | .findManyFails c message =>
      match w.calls c with
      | .reading _ => some (w.setCall c (.rejected message))
      | _ => none
  | .swap c =>
      match w.calls c with
      | .rowsRead committed rows _ => some (swapCache w c committed rows)
      | _ => none
  | .finish c =>
      match w.calls c with
      | .swapped committed => some (w.setCall c (.returned committed))
      | _ => none

/-- One event; `none` when the call is not at that place. -/
def step (w : World) (e : Event) : Option World :=
  (act w e).map World.tick

/-! ## What a write promises -/

/--
After a write has returned, and until another write to its scope commits,
`getWindow` returns the written window, or the default after a deletion.
-/
def WritesLast (w : World) : Prop :=
  ∀ c committed, w.calls c = .returned (some committed) →
    w.lastWrite committed.write.scope = some committed.number →
      getWindow w.cache committed.write.scope =
        committed.write.window.getD (defaultWindow committed.write.scope)

/-- The rows were read after every installed write that is still the last to its scope. -/
def ReadAfterInstalled (w : World) (readAt : Nat) : Prop :=
  ∀ committed ∈ w.installed,
    w.lastWrite committed.write.scope = some committed.number → committed.number < readAt

instance (w : World) (readAt : Nat) : Decidable (ReadAfterInstalled w readAt) :=
  inferInstanceAs (Decidable (∀ committed ∈ w.installed, _ → _))

/-- No refresh swaps in rows that are older than an installed write. -/
def NoStaleSwap (w : World) : Event → Prop
  | .swap c => ∀ committed rows readAt,
      w.calls c = .rowsRead committed rows readAt → ReadAfterInstalled w readAt
  | _ => True

/-! ## Maps and rows -/

theorem get_buildCache (rows : ScopeMap) (scope : String) :
    (buildCache rows).get scope = rows.get scope := by
  unfold buildCache
  rw [Record.get_assign, Record.get_empty, Option.or_none]

theorem get_apply (write : ConfigWrite) (table : ScopeMap) (scope : String) :
    (write.apply table).get scope =
      if write.scope = scope then write.window else table.get scope := by
  unfold ConfigWrite.apply
  cases write.window with
  | some window => exact Record.get_set table write.scope scope window
  | none =>
      dsimp only
      rw [Record.get_restrict]
      by_cases hscope : write.scope = scope
      · simp [hscope]
      · simp [hscope, Ne.symm hscope]

/-! ## The invariant -/

/-- The write has committed, and the table has it unless it was written over. -/
def Current (w : World) (committed : Committed) : Prop :=
  committed.number < w.clock ∧
    (w.lastWrite committed.write.scope = some committed.number →
      w.table.get committed.write.scope = committed.write.window)

/-- The scope has not been written since the event with this number. -/
def UnwrittenSince (w : World) (readAt : Nat) (scope : String) : Prop :=
  ∀ number, w.lastWrite scope = some number → number < readAt

/-- What the numbers of a call say about the table. -/
def CallTracked (w : World) : Call → Prop
  | .notStarted => True
  | .writing _ => True
  | .reading committed => ∀ own, committed = some own → Current w own
  | .rowsRead committed rows readAt =>
      readAt < w.clock ∧
      (∀ scope, UnwrittenSince w readAt scope → rows.get scope = w.table.get scope) ∧
      ∀ own, committed = some own → Current w own ∧ own.number < readAt
  | .swapped committed => ∀ own, committed = some own → Current w own ∧ own ∈ w.installed
  | .returned committed => ∀ own, committed = some own → Current w own ∧ own ∈ w.installed
  | .rejected _ => True

/-- An installed write that is the last to its scope is in the map. -/
def InCache (w : World) (committed : Committed) : Prop :=
  w.lastWrite committed.write.scope = some committed.number →
    w.cache.get committed.write.scope = w.table.get committed.write.scope

structure Tracked (w : World) : Prop where
  past : ∀ scope number, w.lastWrite scope = some number → number < w.clock
  calls : ∀ c, CallTracked w (w.calls c)
  installed : ∀ committed ∈ w.installed, committed.number < w.clock ∧ InCache w committed

theorem tracked_initialWorld (table : ScopeMap) : Tracked (initialWorld table) where
  past := by
    intro scope number h
    cases h
  calls := fun _ => trivial
  installed := by
    intro committed h
    cases h

variable {w w' : World}

/-- A change that keeps the writes a call knows of and the rows it read keeps what is known of it. -/
theorem CallTracked.mono
    {call : Call}
    (h : CallTracked w call)
    (hclock : w.clock ≤ w'.clock)
    (hcurrent : ∀ own, Current w own → Current w' own)
    (hrows : ∀ rows : ScopeMap, ∀ readAt < w.clock,
      (∀ scope, UnwrittenSince w readAt scope → rows.get scope = w.table.get scope) →
        ∀ scope, UnwrittenSince w' readAt scope → rows.get scope = w'.table.get scope)
    (hinstalled : ∀ committed ∈ w.installed, committed ∈ w'.installed) :
    CallTracked w' call := by
  cases call with
  | notStarted => trivial
  | writing write => trivial
  | reading committed => exact fun own hown => hcurrent own (h own hown)
  | rowsRead committed rows readAt =>
      obtain ⟨hread, hagree, hown⟩ := h
      exact ⟨lt_of_lt_of_le hread hclock, hrows rows readAt hread hagree,
        fun own heq => ⟨hcurrent own (hown own heq).1, (hown own heq).2⟩⟩
  | swapped committed =>
      exact fun own hown => ⟨hcurrent own (h own hown).1, hinstalled own (h own hown).2⟩
  | returned committed =>
      exact fun own hown => ⟨hcurrent own (h own hown).1, hinstalled own (h own hown).2⟩
  | rejected message => trivial

/-- The phases of the other calls say the same when table, writes and map have not changed. -/
theorem CallTracked.later
    {call : Call}
    (h : CallTracked w call)
    (htable : w'.table = w.table)
    (hwrites : w'.lastWrite = w.lastWrite)
    (hclock : w.clock ≤ w'.clock)
    (hinstalled : ∀ committed ∈ w.installed, committed ∈ w'.installed) :
    CallTracked w' call := by
  refine h.mono hclock ?_ ?_ hinstalled
  · rintro own ⟨hnumber, hrow⟩
    refine ⟨lt_of_lt_of_le hnumber hclock, ?_⟩
    rw [htable, hwrites]
    exact hrow
  · intro rows readAt _ hagree scope hunwritten
    unfold UnwrittenSince at hunwritten
    rw [hwrites] at hunwritten
    rw [htable]
    exact hagree scope hunwritten

variable {c : Nat}

/-- A new phase of one call keeps the invariant when the phase is tracked. -/
theorem Tracked.setCall {phase : Call} (h : Tracked w) (hphase : CallTracked w.tick phase) :
    Tracked (w.setCall c phase).tick where
  past := fun scope number hlast => Nat.lt_succ_of_lt (h.past scope number hlast)
  calls := by
    intro d
    by_cases hd : d = c
    · subst hd
      have hnew : (w.setCall d phase).tick.calls d = phase := by
        simp only [World.tick, World.setCall, Function.update_self]
      rw [hnew]
      exact hphase.later rfl rfl le_rfl fun _ hmem => hmem
    · have hold : (w.setCall c phase).tick.calls d = w.calls d := by
        simp only [World.tick, World.setCall, Function.update_of_ne hd]
      rw [hold]
      exact (h.calls d).later rfl rfl (Nat.le_succ _) fun _ hmem => hmem
  installed := by
    intro committed hmem
    obtain ⟨hnumber, hcache⟩ := h.installed committed hmem
    exact ⟨Nat.lt_succ_of_lt hnumber, hcache⟩

/-- After a write commits, what is known of the other calls is still true. -/
theorem CallTracked.committed {write : ConfigWrite} {call : Call} (h : CallTracked w call) :
    CallTracked (commitWrite w c write).tick call := by
  have hlast : ∀ scope,
      (commitWrite w c write).tick.lastWrite scope =
        if scope = write.scope then some w.clock else w.lastWrite scope := by
    intro scope
    exact Function.update_apply w.lastWrite write.scope (some w.clock) scope
  have htable : ∀ scope, scope ≠ write.scope →
      (commitWrite w c write).tick.table.get scope = w.table.get scope := by
    intro scope hscope
    exact (get_apply write w.table scope).trans (if_neg (Ne.symm hscope))
  refine h.mono (Nat.le_succ _) ?_ ?_ fun _ hmem => hmem
  · rintro own ⟨hnumber, hrow⟩
    refine ⟨Nat.lt_succ_of_lt hnumber, ?_⟩
    rw [hlast]
    split
    · -- another write to the scope is the last one now
      intro hsame
      have hclock := Option.some.inj hsame
      omega
    · next hscope =>
      rw [htable _ hscope]
      exact hrow
  · intro rows readAt hread hagree scope hunwritten
    by_cases hscope : scope = write.scope
    · have hnow := hunwritten w.clock (by rw [hlast, if_pos hscope])
      omega
    · rw [htable scope hscope]
      refine hagree scope ?_
      intro number hnumber
      exact hunwritten number (by rw [hlast, if_neg hscope, hnumber])

theorem Tracked.commitWrite (h : Tracked w) (c : Nat) (write : ConfigWrite) :
    Tracked (commitWrite w c write).tick where
  past := by
    intro scope number hlast
    change Function.update w.lastWrite write.scope (some w.clock) scope = some number at hlast
    rw [Function.update_apply] at hlast
    split at hlast
    · rw [← Option.some.inj hlast]
      exact Nat.lt_succ_self _
    · exact Nat.lt_succ_of_lt (h.past scope number hlast)
  calls := by
    intro d
    by_cases hd : d = c
    · subst hd
      have hnew : (RateLimitConfig.commitWrite w d write).tick.calls d =
          .reading (some { write := write, number := w.clock }) :=
        Function.update_self d _ w.calls
      rw [hnew]
      intro own hown
      obtain rfl := Option.some.inj hown
      refine ⟨Nat.lt_succ_self _, ?_⟩
      intro _
      exact (get_apply write w.table write.scope).trans (if_pos rfl)
    · have hold : (RateLimitConfig.commitWrite w c write).tick.calls d = w.calls d :=
        Function.update_of_ne hd _ w.calls
      rw [hold]
      exact (h.calls d).committed
  installed := by
    intro committed hmem
    obtain ⟨hnumber, hcache⟩ := h.installed committed hmem
    refine ⟨Nat.lt_succ_of_lt hnumber, ?_⟩
    intro hlast
    change Function.update w.lastWrite write.scope (some w.clock) committed.write.scope = _ at hlast
    rw [Function.update_apply] at hlast
    split at hlast
    · have hclock := Option.some.inj hlast
      omega
    · next hscope =>
      exact (hcache hlast).trans
        ((get_apply write w.table _).trans (if_neg (Ne.symm hscope))).symm

/-- A refresh that is not stale swaps in every installed write and its own. -/
theorem Tracked.swapCache
    {committed : Option Committed} {rows : ScopeMap} {readAt : Nat}
    (h : Tracked w)
    (hcall : w.calls c = .rowsRead committed rows readAt)
    (hfresh : ReadAfterInstalled w readAt) :
    Tracked (swapCache w c committed rows).tick := by
  obtain ⟨hread, hrows, hown⟩ : CallTracked w (.rowsRead committed rows readAt) := hcall ▸ h.calls c
  have hinstalled : ∀ other, other ∈ committed.toList ++ w.installed →
      other.number < w.clock ∧
        (w.lastWrite other.write.scope = some other.number → other.number < readAt) := by
    intro other hmem
    rcases List.mem_append.mp hmem with hnew | hold
    · have heq : committed = some other := Option.mem_toList.mp hnew
      exact ⟨(hown other heq).1.1, fun _ => (hown other heq).2⟩
    · exact ⟨(h.installed other hold).1, hfresh other hold⟩
  constructor
  case past => exact fun scope number hlast => Nat.lt_succ_of_lt (h.past scope number hlast)
  case calls =>
    intro d
    by_cases hd : d = c
    · subst hd
      have hnew : (RateLimitConfig.swapCache w d committed rows).tick.calls d = .swapped committed :=
        Function.update_self d _ w.calls
      rw [hnew]
      intro own heq
      refine ⟨⟨Nat.lt_succ_of_lt (hown own heq).1.1, (hown own heq).1.2⟩, ?_⟩
      exact List.mem_append_left _ (Option.mem_toList.mpr heq)
    · have hold : (RateLimitConfig.swapCache w c committed rows).tick.calls d = w.calls d :=
        Function.update_of_ne hd _ w.calls
      rw [hold]
      exact (h.calls d).later rfl rfl (Nat.le_succ _) fun _ hmem => List.mem_append_right _ hmem
  case installed =>
    intro other hmem
    obtain ⟨hnumber, hbefore⟩ := hinstalled other hmem
    refine ⟨Nat.lt_succ_of_lt hnumber, ?_⟩
    intro hlast
    refine (get_buildCache rows _).trans (hrows _ ?_)
    intro number hsame
    have heq : some number = some other.number := hsame.symm.trans hlast
    rw [Option.some.inj heq]
    exact hbefore hlast

theorem Tracked.step
    {e : Event}
    (h : Tracked w)
    (hguard : NoStaleSwap w e)
    (hstep : step w e = some w') :
    Tracked w' := by
  obtain ⟨t, hact, rfl⟩ := Option.map_eq_some_iff.mp hstep
  cases e with
  | refresh c =>
      simp only [act] at hact
      split at hact
      · obtain rfl := Option.some.inj hact
        refine h.setCall ?_
        intro own hown
        cases hown
      · cases hact
  | setWindow c scope window =>
      simp only [act] at hact
      split at hact
      · obtain rfl := Option.some.inj hact
        refine h.setCall ?_
        unfold startSetWindow
        split
        · trivial
        · split <;> trivial
      · cases hact
  | deleteWindow c scope =>
      simp only [act] at hact
      split at hact
      · obtain rfl := Option.some.inj hact
        exact h.setCall trivial
      · cases hact
  | commit c =>
      simp only [act] at hact
      split at hact
      · obtain rfl := Option.some.inj hact
        exact h.commitWrite c _
      · cases hact
  | commitFails c message =>
      simp only [act] at hact
      split at hact
      · obtain rfl := Option.some.inj hact
        exact h.setCall trivial
      · cases hact
  | findMany c =>
      simp only [act] at hact
      split at hact
      · next committed hcall =>
        obtain rfl := Option.some.inj hact
        have hphase : CallTracked w (.reading committed) := hcall ▸ h.calls c
        refine h.setCall ⟨Nat.lt_succ_self _, fun _ _ => rfl, ?_⟩
        intro own hown
        obtain ⟨hnumber, hrow⟩ := hphase own hown
        exact ⟨⟨Nat.lt_succ_of_lt hnumber, hrow⟩, hnumber⟩
      · cases hact
  | findManyFails c message =>
      simp only [act] at hact
      split at hact
      · obtain rfl := Option.some.inj hact
        exact h.setCall trivial
      · cases hact
  | swap c =>
      simp only [act] at hact
      split at hact
      · next committed rows readAt hcall =>
        obtain rfl := Option.some.inj hact
        exact h.swapCache hcall (hguard _ _ _ hcall)
      · cases hact
  | finish c =>
      simp only [act] at hact
      split at hact
      · next committed hcall =>
        obtain rfl := Option.some.inj hact
        have hphase : CallTracked w (.swapped committed) := hcall ▸ h.calls c
        refine h.setCall ?_
        intro own hown
        obtain ⟨⟨hnumber, hrow⟩, hmem⟩ := hphase own hown
        exact ⟨⟨Nat.lt_succ_of_lt hnumber, hrow⟩, hmem⟩
      · cases hact

theorem Tracked.writesLast (h : Tracked w) : WritesLast w := by
  intro c committed hcall hlast
  have hphase : CallTracked w (.returned (some committed)) := hcall ▸ h.calls c
  obtain ⟨⟨-, hrow⟩, hmem⟩ := hphase committed rfl
  have hcache := (h.installed committed hmem).2 hlast
  unfold getWindow
  rw [hcache, hrow hlast]

/--
In every run in which no refresh swaps in rows that are older than an installed
write, a write that has returned is what `getWindow` returns until another write
to its scope commits.
-/
theorem writesLast_of_noStaleSwap
    (table : ScopeMap)
    (w : World)
    (hrun : Reaches step NoStaleSwap (initialWorld table) w) :
    WritesLast w :=
  (Reaches.invariant hrun (tracked_initialWorld table) fun _ _ _ h => h.step).writesLast

/-! ## A refresh around a write -/

/-- `NoStaleSwap` as a test. -/
def notStale (w : World) : Event → Bool
  | .swap c =>
      match w.calls c with
      | .rowsRead _ _ readAt => decide (ReadAfterInstalled w readAt)
      | _ => true
  | _ => true

theorem noStaleSwap_of_notStale (w : World) (e : Event) (h : notStale w e = true) :
    NoStaleSwap w e := by
  cases e with
  | swap c =>
      intro committed rows readAt hcall
      simp only [notStale, hcall, decide_eq_true_eq] at h
      exact h
  | _ => trivial

/-- Fifty sign-ins a minute. -/
def fifty : ScopeWindow := ⟨50, 60⟩

/-- A write of the window and its refresh. -/
def writeFifty (c : Nat) : List Event :=
  [.setWindow c "auth:signIn" fifty, .commit c, .findMany c, .swap c, .finish c]

def committedAt (number : Nat) : Committed :=
  { write := { scope := "auth:signIn", window := some fifty }, number := number }

/-- A refresh of the timer that ends before the write commits. -/
theorem writesLast_writeFifty :
    ∃ w,
      (Reaches step NoStaleSwap (initialWorld Record.empty) w ∧
        w.calls 1 = .returned (some (committedAt 4)) ∧
          w.lastWrite "auth:signIn" = some 4 ∧ getWindow w.cache "auth:signIn" = fifty) ∧
        WritesLast w := by
  obtain ⟨w, hrun, hcall, hlast, hwindow⟩ :
      ∃ w,
        runEvents (checked notStale step) (initialWorld Record.empty)
            ([.refresh 0, .findMany 0, .swap 0] ++ writeFifty 1) = some w ∧
          w.calls 1 = .returned (some (committedAt 4)) ∧
            w.lastWrite "auth:signIn" = some 4 ∧ getWindow w.cache "auth:signIn" = fifty :=
    ⟨_, rfl, rfl, rfl, rfl⟩
  have hreaches : Reaches step NoStaleSwap (initialWorld Record.empty) w :=
    reaches_of_runEvents_checked noStaleSwap_of_notStale hrun
  exact ⟨w, ⟨hreaches, hcall, hlast, hwindow⟩,
    writesLast_of_noStaleSwap Record.empty w hreaches⟩

/-- A refresh of the timer reads before the write commits and swaps after the write has returned. -/
theorem not_writesLast_stale_refresh :
    ¬ ∀ table w, Reaches step anyEvent (initialWorld table) w → WritesLast w := by
  intro hlaw
  obtain ⟨w, hrun, hcall, hlast, hwindow⟩ :
      ∃ w,
        runEvents step (initialWorld Record.empty)
            ([.refresh 0, .findMany 0] ++ writeFifty 1 ++ [.swap 0]) = some w ∧
          w.calls 1 = .returned (some (committedAt 3)) ∧
            w.lastWrite "auth:signIn" = some 3 ∧
              getWindow w.cache "auth:signIn" = { maxRequests := 5, windowSeconds := 60 } :=
    ⟨_, rfl, rfl, rfl, rfl⟩
  have hwritten := hlaw _ w (reaches_of_runEvents hrun) 1 _ hcall hlast
  rw [show (committedAt 3).write.scope = "auth:signIn" from rfl, hwindow] at hwritten
  exact absurd hwritten (by decide +kernel)

end RateLimitConfig
end NestBase
