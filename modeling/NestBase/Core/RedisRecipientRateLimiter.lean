import NestBase.Core.RecipientRateLimiter
import NestBase.Lib.ExpiringCounters
import NestBase.Lib.Transition

/-!
# The limiter of emails per recipient on Redis

`createRedisRecipientRateLimiter` counts the messages to an address in Redis, for
all replicas.  A call of `consume` is an INCR followed by a PEXPIRE; between the
two, other replicas send theirs, the key may expire, and the replica may crash.
An error of either command lets the message through, uncounted.

* `admittedIn_length_le`: however the calls of the replicas interleave, the
  messages to one address that the counter lets through in a window of length
  `windowMs` are at most `2 * limit - 1`; the run of the witness has as many.
* `admittedIn_length_le_limit`: they are at most `limit` in runs in which no key
  expires while a call for it is between its two commands.
* `admitted_of_leftAlone`: a key that a crash left without an expiry heals.  Once the
  PEXPIRE of a call for it has run, whether or not its reply comes, and the address is
  left alone for `windowMs`, the next message is let through.
-/

namespace NestBase
namespace RedisRecipientRateLimiter

open Lib
open Lib.ExpiringCounters
open RecipientRateLimiter (RecipientRateLimitDecision)

/-! ## The limiter -/

structure RedisRecipientRateLimiterConfig where
  limit : ℚ
  windowMs : Int

def KEY_PREFIX : String := "lt:rrl:"

/-- The answer of a switched-off limiter, and of one whose commands fail. -/
def uncounted : RecipientRateLimitDecision where
  allowed := true
  count := 0
  retryAt := 0

section Limiter

variable (toLowerCase : String → String)
variable (config : RedisRecipientRateLimiterConfig)

def keyOf (email : String) : String :=
  KEY_PREFIX ++ toLowerCase (Text.trim email)

/-- The answer to a call whose commands have replied. -/
def decisionOf (count : Nat) (dateNow : Int) : RecipientRateLimitDecision :=
  if (count : ℚ) > config.limit then
    { allowed := false, count := count, retryAt := dateNow + config.windowMs }
  else
    { allowed := true, count := count, retryAt := 0 }

def status (email : String) (keys : Keyspace String) : Nat × Bool :=
  if config.limit ≤ 0 then (0, true)
  else
    let count := ((keys (keyOf toLowerCase email)).map Counter.count).getD 0
    (count, decide ((count : ℚ) < config.limit))

/-! ## The calls of the replicas -/

/-- An answer, with the time of the INCR and the life of the key it counted in. -/
structure Answer where
  key : String
  time : Int
  born : Int
  decision : RecipientRateLimitDecision
  deriving DecidableEq

def Answer.increment (answer : Answer) : Increment String where
  key := answer.key
  time := answer.time
  born := answer.born
  count := answer.decision.count

structure World where
  keys : Keyspace String
  now : Int
  /-- The calls between their INCR and their PEXPIRE. -/
  pending : List (Increment String)
  answers : List Answer

def World.start (now : Int) : World where
  keys := fun _ => none
  now := now
  pending := []
  answers := []

inductive Event where
  | consume (email : String)
  | incrFails (email : String) (executed : Bool)
  | pexpire (call : Increment String) (dateNow : Int)
  | pexpireFails (call : Increment String) (executed : Bool)
  | crash (call : Increment String)
  | expire (key : String)
  | pass (ms : Nat)

def World.answer (w : World) (answer : Answer) : World :=
  { w with answers := w.answers ++ [answer] }

def World.answerUncounted (w : World) (key : String) : World :=
  w.answer { key := key, time := w.now, born := w.now, decision := uncounted }

def World.incr (w : World) (key : String) : World :=
  { w with keys := ExpiringCounters.incr w.now key w.keys }

def World.pexpire (w : World) (key : String) : World :=
  { w with keys := ExpiringCounters.pexpire w.now config.windowMs key w.keys }

def World.finish (w : World) (call : Increment String) : World :=
  { w with pending := w.pending.erase call }

def step (w : World) : Event → Option World
  | .consume email =>
      let key := keyOf toLowerCase email
      if config.limit ≤ 0 then some (w.answerUncounted key)
      else some { w.incr key with pending := incrementOf w.now key w.keys :: w.pending }
  | .incrFails email executed =>
      let key := keyOf toLowerCase email
      if config.limit ≤ 0 then none
      else if executed then some ((w.incr key).answerUncounted key)
      else some (w.answerUncounted key)
  | .pexpire call dateNow =>
      if call ∈ w.pending then
        some
          (((w.pexpire config call.key).finish call).answer
            { key := call.key, time := call.time, born := call.born,
              decision := decisionOf config call.count dateNow })
      else none
  | .pexpireFails call executed =>
      if call ∈ w.pending then
        if executed then some (((w.pexpire config call.key).finish call).answerUncounted call.key)
        else some ((w.finish call).answerUncounted call.key)
      else none
  | .crash call => if call ∈ w.pending then some (w.finish call) else none
  | .expire key => (expire w.now key w.keys).map fun keys => { w with keys := keys }
  | .pass ms => some { w with now := w.now + ms }

/-- No key expires while a call for it is between its two commands. -/
def NoneExpiresPending (w : World) : Event → Prop
  | .expire key => ∀ call ∈ w.pending, call.key ≠ key
  | _ => True

instance (w : World) : DecidablePred (NoneExpiresPending w)
  | .expire key => inferInstanceAs (Decidable (∀ call ∈ w.pending, call.key ≠ key))
  | .consume _ => isTrue trivial
  | .incrFails _ _ => isTrue trivial
  | .pexpire _ _ => isTrue trivial
  | .pexpireFails _ _ => isTrue trivial
  | .crash _ => isTrue trivial
  | .pass _ => isTrue trivial

/-! ## The messages let through -/

/-- The limiter let the message through on the reply of the counter. -/
def Answer.isAdmitted (answer : Answer) : Bool :=
  answer.decision.allowed && decide (0 < answer.decision.count)

/-- The messages to an address let through by the counter in the window that ends at `t`. -/
def admittedIn (key : String) (t : Int) (w : World) : List Answer :=
  w.answers.filter fun answer =>
    answer.isAdmitted &&
      decide (answer.key = key ∧ t - config.windowMs < answer.time ∧ answer.time ≤ t)

def admitted (answers : List Answer) : List (Increment String) :=
  (answers.filter Answer.isAdmitted).map Answer.increment

end Limiter

theorem admitted_append (answers : List Answer) (answer : Answer) :
    admitted (answers ++ [answer]) =
      admitted answers ++ if answer.isAdmitted then [answer.increment] else [] := by
  unfold admitted
  rw [List.filter_append, List.map_append]
  by_cases h : answer.isAdmitted <;> simp [h]

theorem admitted_answerUncounted (w : World) (key : String) :
    admitted (w.answerUncounted key).answers = admitted w.answers := by
  unfold World.answerUncounted World.answer
  rw [admitted_append]
  simp [Answer.isAdmitted, uncounted]

section Runs

variable {toLowerCase : String → String}
variable {config : RedisRecipientRateLimiterConfig}

theorem isAdmitted_decisionOf
    {call : Increment String} {dateNow : Int}
    (h : Answer.isAdmitted
      { key := call.key, time := call.time, born := call.born,
        decision := decisionOf config call.count dateNow } = true) :
    (call.count : ℚ) ≤ config.limit := by
  unfold Answer.isAdmitted decisionOf at h
  split at h
  · cases h
  · next hle => exact not_lt.mp hle

variable {w w' : World}

/-- A finished call is no longer pending, and is admitted if at all with its own increment. -/
theorem admitted_finish_subperm
    {call : Increment String} {dateNow : Int}
    (hcall : call ∈ w.pending) :
    (w.pending.erase call ++
      admitted
        (w.answers ++
          [{ key := call.key, time := call.time, born := call.born,
             decision := decisionOf config call.count dateNow }])).Subperm
      (w.pending ++ admitted w.answers) := by
  rw [admitted_append]
  have hincrement :
      Answer.increment
        { key := call.key, time := call.time, born := call.born,
          decision := decisionOf config call.count dateNow } = call := by
    unfold Answer.increment decisionOf
    split <;> rfl
  rw [hincrement]
  have hperm : (call :: w.pending.erase call).Perm w.pending :=
    (List.perm_cons_erase hcall).symm
  have hall :
      (w.pending.erase call ++ (admitted w.answers ++ [call])).Perm
        (w.pending ++ admitted w.answers) := by
    refine List.Perm.trans ?_ (hperm.append_right _)
    rw [← List.append_assoc]
    exact List.perm_append_singleton call _
  refine List.Subperm.trans ?_ hall.subperm
  refine (List.Sublist.append (List.Sublist.refl _) ?_).subperm
  refine List.Sublist.append (List.Sublist.refl _) ?_
  split
  · exact List.Sublist.refl _
  · exact List.nil_sublist _

/-! ## Any interleaving -/

structure Counted (config : RedisRecipientRateLimiterConfig) (w : World) : Prop where
  lives : Lives config.windowMs w.now w.keys (w.pending ++ admitted w.answers)
  within : ∀ p ∈ admitted w.answers, (p.count : ℚ) ≤ config.limit

theorem counted_start (now : Int) : Counted config (World.start now) where
  lives := lives_empty
  within := by
    intro p hp
    cases hp

theorem Counted.answerUncounted (h : Counted config w) (key : String) :
    Counted config (w.answerUncounted key) where
  lives := by
    rw [admitted_answerUncounted]
    exact h.lives
  within := by
    rw [admitted_answerUncounted]
    exact h.within

theorem Counted.finish (h : Counted config w) (call : Increment String) :
    Counted config (w.finish call) where
  lives := by
    refine h.lives.subperm (List.Sublist.subperm ?_)
    exact List.Sublist.append List.erase_sublist (List.Sublist.refl _)
  within := h.within

theorem Counted.incr (h : Counted config w) (hms : 0 < config.windowMs) (key : String) :
    Counted config { w.incr key with pending := incrementOf w.now key w.keys :: w.pending } where
  lives := h.lives.incr hms _
  within := h.within

/-- An INCR without a reply is a call that is over at once. -/
theorem finish_incr (w : World) (key : String) :
    ({ w.incr key with pending := incrementOf w.now key w.keys :: w.pending } : World).finish
      (incrementOf w.now key w.keys) = w.incr key := by
  unfold World.finish
  rw [List.erase_cons_head]
  rfl

theorem Counted.pexpire (h : Counted config w) (hms : 0 < config.windowMs) (key : String) :
    Counted config (w.pexpire config key) where
  lives := h.lives.pexpire hms key
  within := h.within

variable {event : Event}

theorem Counted.step
    (hms : 0 < config.windowMs)
    (h : Counted config w)
    (hstep : step toLowerCase config w event = some w') :
    Counted config w' := by
  cases event with
  | consume email =>
      simp only [RedisRecipientRateLimiter.step] at hstep
      split at hstep
      · obtain rfl := Option.some.inj hstep
        exact h.answerUncounted _
      · obtain rfl := Option.some.inj hstep
        exact h.incr hms _
  | incrFails email executed =>
      simp only [RedisRecipientRateLimiter.step] at hstep
      split at hstep
      · cases hstep
      split at hstep
      · obtain rfl := Option.some.inj hstep
        rw [← finish_incr]
        exact ((h.incr hms _).finish _).answerUncounted _
      · obtain rfl := Option.some.inj hstep
        exact h.answerUncounted _
  | pexpire call dateNow =>
      simp only [RedisRecipientRateLimiter.step] at hstep
      split at hstep
      · next hcall =>
          obtain rfl := Option.some.inj hstep
          refine
            { lives := (h.lives.pexpire hms call.key).subperm (admitted_finish_subperm hcall)
              within := ?_ }
          intro p hp
          simp only [World.answer, admitted_append] at hp
          rcases List.mem_append.mp hp with hold | hnew
          · exact h.within p hold
          · split at hnew
            · next hadmitted =>
                obtain rfl := List.mem_singleton.mp hnew
                have hcount := isAdmitted_decisionOf hadmitted
                unfold Answer.increment decisionOf
                split <;> exact hcount
            · cases hnew
      · cases hstep
  | pexpireFails call executed =>
      simp only [RedisRecipientRateLimiter.step] at hstep
      split at hstep
      · split at hstep
        · obtain rfl := Option.some.inj hstep
          exact ((h.pexpire hms call.key).finish call).answerUncounted _
        · obtain rfl := Option.some.inj hstep
          exact (h.finish call).answerUncounted _
      · cases hstep
  | crash call =>
      simp only [RedisRecipientRateLimiter.step] at hstep
      split at hstep
      · obtain rfl := Option.some.inj hstep
        exact h.finish call
      · cases hstep
  | expire key =>
      simp only [RedisRecipientRateLimiter.step] at hstep
      obtain ⟨keys, hexpire, rfl⟩ := Option.map_eq_some_iff.mp hstep
      exact { lives := h.lives.expire hexpire, within := h.within }
  | pass ms =>
      obtain rfl := Option.some.inj hstep
      refine { lives := h.lives.later ?_, within := h.within }
      simp only
      omega

/-- The messages of a window are increments of that window with a reply within the limit. -/
theorem map_increment_admittedIn (h : Counted config w) (key : String) (t : Int) :
    (admittedIn config key t w).map Answer.increment =
      window config.windowMs t ⌊config.limit⌋₊ key (admitted w.answers) := by
  unfold admittedIn admitted window
  rw [List.filter_map, List.filter_filter]
  refine congrArg (List.map Answer.increment) (List.filter_congr ?_)
  intro answer hanswer
  by_cases hadmitted : answer.isAdmitted
  · have hwithin : (answer.increment.count : ℚ) ≤ config.limit := by
      refine h.within _ (List.mem_map_of_mem ?_)
      exact List.mem_filter.mpr ⟨hanswer, hadmitted⟩
    have hfloor : answer.decision.count ≤ ⌊config.limit⌋₊ := Nat.le_floor hwithin
    simp only [hadmitted, Function.comp_apply, Bool.true_and, Bool.and_true]
    refine decide_eq_decide.mpr ⟨?_, ?_⟩
    · rintro ⟨hkey, hlow, hhigh⟩
      exact ⟨hkey, hlow, hhigh, hfloor⟩
    · rintro ⟨hkey, hlow, hhigh, -⟩
      exact ⟨hkey, hlow, hhigh⟩
  · simp [hadmitted]

theorem counted_of_reaches
    {start : Int} {guard : World → Event → Prop}
    (hms : 0 < config.windowMs)
    (hrun : Reaches (step toLowerCase config) guard (World.start start) w) :
    Counted config w :=
  hrun.invariant (counted_start start) fun _ _ _ hcounted _ hstep => hcounted.step hms hstep

/-- A window of no length holds no message. -/
theorem admittedIn_of_nonpos (hms : config.windowMs ≤ 0) (key : String) (t : Int) (w : World) :
    admittedIn config key t w = [] := by
  refine List.filter_eq_nil_iff.mpr ?_
  intro answer _ hmem
  have hwindow := of_decide_eq_true (Bool.and_eq_true_iff.mp hmem).2
  omega

/--
Whatever the replicas do and whenever keys expire, a window of `windowMs` holds
at most `2 * limit - 1` messages to one address that the counter let through.
-/
theorem admittedIn_length_le
    (toLowerCase : String → String)
    (config : RedisRecipientRateLimiterConfig)
    (start : Int)
    (w : World)
    (hrun : Reaches (step toLowerCase config) anyEvent (World.start start) w)
    (email : String)
    (t : Int) :
    (admittedIn config (keyOf toLowerCase email) t w).length ≤ 2 * ⌊config.limit⌋₊ - 1 := by
  by_cases hms : 0 < config.windowMs
  · have hcounted := counted_of_reaches hms hrun
    rw [← List.length_map Answer.increment, map_increment_admittedIn hcounted]
    have hlives := hcounted.lives.subperm (List.sublist_append_right _ _).subperm
    exact hlives.window_length_le t _ _
  · rw [admittedIn_of_nonpos (not_lt.mp hms)]
    exact Nat.zero_le _

/-- Two messages in a tenth of a second. -/
def twoPerWindow : RedisRecipientRateLimiterConfig where
  limit := 2
  windowMs := 100

def callAt (time born : Int) (count : Nat) : Increment String where
  key := "lt:rrl:a@b.c"
  time := time
  born := born
  count := count

/-- The PEXPIRE of the second message comes when the key is gone. -/
def lateExpiry : List Event :=
  [.consume "a@b.c", .pexpire (callAt 0 0 1) 0, .pass 60, .consume "A@b.c", .pass 40,
    .expire "lt:rrl:a@b.c", .pexpire (callAt 60 0 2) 100, .consume " a@b.c",
    .pexpire (callAt 100 100 1) 100, .consume "a@b.c", .pexpire (callAt 100 100 2) 100]

/-- Three messages in the window that ends at 100. -/
theorem admittedIn_length_le_lateExpiry :
    ∃ w,
      runEvents (step Text.asciiLowerCase twoPerWindow) (World.start 0) lateExpiry = some w ∧
        (admittedIn twoPerWindow (keyOf Text.asciiLowerCase "a@b.c") 100 w).length = 3 ∧
        (admittedIn twoPerWindow (keyOf Text.asciiLowerCase "a@b.c") 100 w).length ≤
          2 * ⌊twoPerWindow.limit⌋₊ - 1 := by
  have hlength :
      (runEvents (step Text.asciiLowerCase twoPerWindow) (World.start 0) lateExpiry).map
        (fun w => (admittedIn twoPerWindow (keyOf Text.asciiLowerCase "a@b.c") 100 w).length) =
          some 3 := by
    decide +kernel
  obtain ⟨w, hw, hthree⟩ := Option.map_eq_some_iff.mp hlength
  exact
    ⟨w, hw, hthree,
      admittedIn_length_le Text.asciiLowerCase twoPerWindow 0 w (reaches_of_runEvents hw)
        "a@b.c" 100⟩

/-! ## Runs in which no key expires under a pending call -/

structure Kept (config : RedisRecipientRateLimiterConfig) (w : World) : Prop where
  counted : Counted config w
  held :
    ∀ call ∈ w.pending,
      ∃ counter, w.keys call.key = some counter ∧ counter.born = call.born
  covered :
    Covered config.windowMs w.now w.keys (w.pending ++ admitted w.answers) (admitted w.answers)

theorem kept_start (now : Int) : Kept config (World.start now) where
  counted := counted_start now
  held := by
    intro call hcall
    cases hcall
  covered := covered_nil

theorem Kept.answerUncounted (h : Kept config w) (key : String) :
    Kept config (w.answerUncounted key) where
  counted := h.counted.answerUncounted key
  held := h.held
  covered := by
    rw [admitted_answerUncounted]
    exact h.covered

theorem Kept.finish (h : Kept config w) (call : Increment String) :
    Kept config (w.finish call) where
  counted := h.counted.finish call
  held := fun other hother => h.held other (List.mem_of_mem_erase hother)
  covered := by
    refine h.covered.subset ?_ (List.Subset.refl _)
    exact (List.Sublist.append List.erase_sublist (List.Sublist.refl _)).subset

theorem Kept.incr (h : Kept config w) (hms : 0 < config.windowMs) (key : String) :
    Kept config { w.incr key with pending := incrementOf w.now key w.keys :: w.pending } where
  counted := h.counted.incr hms key
  held := by
    intro call hcall
    rcases List.mem_cons.mp hcall with rfl | hcall
    · exact ⟨_, Function.update_self _ _ _, rfl⟩
    · obtain ⟨counter, hkey, hborn⟩ := h.held call hcall
      obtain ⟨after, hafter, hsame⟩ := born_incr hkey w.now key
      exact ⟨after, hafter, hsame.trans hborn⟩
  covered := h.covered.incr key

theorem Kept.pexpire (h : Kept config w) (hms : 0 < config.windowMs) (key : String) :
    Kept config (w.pexpire config key) where
  counted := h.counted.pexpire hms key
  held := by
    intro call hcall
    obtain ⟨counter, hkey, hborn⟩ := h.held call hcall
    obtain ⟨after, hafter, hsame⟩ := born_pexpire hms hkey w.now key
    exact ⟨after, hafter, hsame.trans hborn⟩
  covered := h.covered.pexpire h.counted.lives hms (List.subset_append_right _ _) key

theorem Kept.step
    (hms : 0 < config.windowMs)
    (h : Kept config w)
    (hguard : NoneExpiresPending w event)
    (hstep : step toLowerCase config w event = some w') :
    Kept config w' := by
  have hcounted := h.counted.step hms hstep
  cases event with
  | consume email =>
      simp only [RedisRecipientRateLimiter.step] at hstep
      split at hstep
      · obtain rfl := Option.some.inj hstep
        exact h.answerUncounted _
      · obtain rfl := Option.some.inj hstep
        exact h.incr hms _
  | incrFails email executed =>
      simp only [RedisRecipientRateLimiter.step] at hstep
      split at hstep
      · cases hstep
      split at hstep
      · obtain rfl := Option.some.inj hstep
        rw [← finish_incr]
        exact ((h.incr hms _).finish _).answerUncounted _
      · obtain rfl := Option.some.inj hstep
        exact h.answerUncounted _
  | pexpire call dateNow =>
      simp only [RedisRecipientRateLimiter.step] at hstep
      split at hstep
      · next hcall =>
          obtain rfl := Option.some.inj hstep
          refine
            { counted := hcounted
              held := ((h.pexpire hms call.key).finish call).held
              covered := ?_ }
          obtain ⟨counter, hkey, hborn⟩ := h.held call hcall
          have hrenewed :=
            (h.pexpire hms call.key).covered.renewed h.counted.lives hms
              (List.mem_append_left _ hcall) hkey hborn
          refine hrenewed.subset (admitted_finish_subperm hcall).subset ?_
          intro p hp
          simp only [World.answer, admitted_append] at hp
          rcases List.mem_append.mp hp with hold | hnew
          · exact List.mem_cons_of_mem _ hold
          · split at hnew
            · obtain rfl := List.mem_singleton.mp hnew
              unfold Answer.increment decisionOf
              split <;> exact List.mem_cons_self
            · cases hnew
      · cases hstep
  | pexpireFails call executed =>
      simp only [RedisRecipientRateLimiter.step] at hstep
      split at hstep
      · split at hstep
        · obtain rfl := Option.some.inj hstep
          exact ((h.pexpire hms call.key).finish call).answerUncounted _
        · obtain rfl := Option.some.inj hstep
          exact (h.finish call).answerUncounted _
      · cases hstep
  | crash call =>
      simp only [RedisRecipientRateLimiter.step] at hstep
      split at hstep
      · obtain rfl := Option.some.inj hstep
        exact h.finish call
      · cases hstep
  | expire key =>
      simp only [RedisRecipientRateLimiter.step] at hstep
      obtain ⟨keys, hexpire, rfl⟩ := Option.map_eq_some_iff.mp hstep
      refine
        { counted := hcounted
          held := ?_
          covered := h.covered.expire h.counted.lives hexpire }
      intro call hcall
      obtain ⟨counter, hkey, hborn⟩ := h.held call hcall
      obtain ⟨-, -, -, -, -, rfl⟩ := expire_cases hexpire
      refine ⟨counter, ?_, hborn⟩
      simp only
      rw [Function.update_of_ne (hguard call hcall)]
      exact hkey
  | pass ms =>
      obtain rfl := Option.some.inj hstep
      refine { counted := hcounted, held := h.held, covered := h.covered.later ?_ }
      simp only
      omega

/-- As long as no key expires under a pending call, the windows hold what they should. -/
theorem admittedIn_length_le_limit
    (toLowerCase : String → String)
    (config : RedisRecipientRateLimiterConfig)
    (start : Int)
    (w : World)
    (hrun : Reaches (step toLowerCase config) NoneExpiresPending (World.start start) w)
    (email : String)
    (t : Int) :
    (admittedIn config (keyOf toLowerCase email) t w).length ≤ ⌊config.limit⌋₊ := by
  by_cases hms : 0 < config.windowMs
  · have hkept : Kept config w :=
      hrun.invariant (kept_start start) fun _ _ _ hkept hguard hstep => hkept.step hms hguard hstep
    rw [← List.length_map Answer.increment, map_increment_admittedIn hkept.counted]
    have hlives := hkept.counted.lives.subperm (List.sublist_append_right _ _).subperm
    exact hkept.covered.window_length_le hlives (List.subset_append_right _ _) t _ _
  · rw [admittedIn_of_nonpos (not_lt.mp hms)]
    exact Nat.zero_le _

/-- The same calls, the second one done before the key expires. -/
def timelyExpiry : List Event :=
  [.consume "a@b.c", .pexpire (callAt 0 0 1) 0, .pass 60, .consume "A@b.c",
    .pexpire (callAt 60 0 2) 60, .pass 40, .consume " a@b.c", .pexpire (callAt 100 0 3) 100,
    .pass 100, .expire "lt:rrl:a@b.c", .consume "a@b.c", .pexpire (callAt 200 200 1) 200]

theorem admittedIn_length_le_limit_timelyExpiry :
    ∃ w,
      runEvents
          (checked (fun w event => decide (NoneExpiresPending w event))
            (step Text.asciiLowerCase twoPerWindow))
          (World.start 0) timelyExpiry = some w ∧
        (admittedIn twoPerWindow (keyOf Text.asciiLowerCase "a@b.c") 99 w).length = 2 ∧
        (admittedIn twoPerWindow (keyOf Text.asciiLowerCase "a@b.c") 99 w).length ≤
          ⌊twoPerWindow.limit⌋₊ := by
  have hlength :
      (runEvents
          (checked (fun w event => decide (NoneExpiresPending w event))
            (step Text.asciiLowerCase twoPerWindow))
          (World.start 0) timelyExpiry).map
        (fun w => (admittedIn twoPerWindow (keyOf Text.asciiLowerCase "a@b.c") 99 w).length) =
          some 2 := by
    decide +kernel
  obtain ⟨w, hw, htwo⟩ := Option.map_eq_some_iff.mp hlength
  exact
    ⟨w, hw, htwo,
      admittedIn_length_le_limit Text.asciiLowerCase twoPerWindow 0 w
        (reaches_of_runEvents_checked (fun _ _ hcheck => of_decide_eq_true hcheck) hw)
        "a@b.c" 99⟩

/-! ## Keys that heal -/

/-- No command for the key, but for the crash of a call. -/
def LeavesAlone (toLowerCase : String → String) (key : String) (_ : World) : Event → Prop
  | .consume email => keyOf toLowerCase email ≠ key
  | .incrFails email _ => keyOf toLowerCase email ≠ key
  | .pexpire call _ => call.key ≠ key
  | .pexpireFails call _ => call.key ≠ key
  | .crash _ => True
  | .expire _ => True
  | .pass _ => True

/-- The PEXPIRE of the call runs, and its reply comes or is lost. -/
def RunsPexpire (call : Increment String) : Event → Prop
  | .pexpire other _ => other = call
  | .pexpireFails other executed => other = call ∧ executed = true
  | _ => False

/-- The key is gone by the time. -/
def GoneBy (key : String) (time : Int) (keys : Keyspace String) : Prop :=
  ∀ counter, keys key = some counter → ∃ expiresAt ∈ counter.expiresAt, expiresAt ≤ time

theorem goneBy_pexpire (now ms : Int) (key : String) (keys : Keyspace String) :
    GoneBy key (now + ms) (ExpiringCounters.pexpire now ms key keys) := by
  intro counter hcounter
  unfold ExpiringCounters.pexpire at hcounter
  cases hkey : keys key with
  | none => simp [hkey] at hcounter
  | some before =>
      simp only [hkey] at hcounter
      split at hcounter
      · simp at hcounter
      · rw [Function.update_self] at hcounter
        obtain rfl := Option.some.inj hcounter
        exact ⟨now + ms, rfl, le_rfl⟩

variable {key : String}

/-- Commands for other keys do not change the key. -/
theorem GoneBy.of_eq
    {time : Int} {keys keys' : Keyspace String}
    (h : GoneBy key time keys)
    (hsame : keys' key = keys key) :
    GoneBy key time keys' := by
  intro counter hcounter
  exact h counter (hsame ▸ hcounter)

theorem pexpire_of_ne {other : String} (hne : other ≠ key) (now ms : Int) (keys : Keyspace String) :
    ExpiringCounters.pexpire now ms other keys key = keys key := by
  unfold ExpiringCounters.pexpire
  cases keys other with
  | none => rfl
  | some counter => split <;> exact Function.update_of_ne hne.symm _ _

theorem GoneBy.step
    {time : Int}
    (h : GoneBy key time w.keys)
    (halone : LeavesAlone toLowerCase key w event)
    (hstep : step toLowerCase config w event = some w') :
    GoneBy key time w'.keys := by
  cases event with
  | consume email =>
      simp only [RedisRecipientRateLimiter.step] at hstep
      split at hstep
      · obtain rfl := Option.some.inj hstep
        exact h
      · obtain rfl := Option.some.inj hstep
        exact h.of_eq (Function.update_of_ne (Ne.symm halone) _ _)
  | incrFails email executed =>
      simp only [RedisRecipientRateLimiter.step] at hstep
      split at hstep
      · cases hstep
      split at hstep
      · obtain rfl := Option.some.inj hstep
        exact h.of_eq (Function.update_of_ne (Ne.symm halone) _ _)
      · obtain rfl := Option.some.inj hstep
        exact h
  | pexpire call dateNow =>
      simp only [RedisRecipientRateLimiter.step] at hstep
      split at hstep
      · obtain rfl := Option.some.inj hstep
        exact h.of_eq (pexpire_of_ne halone _ _ _)
      · cases hstep
  | pexpireFails call executed =>
      simp only [RedisRecipientRateLimiter.step] at hstep
      split at hstep
      · split at hstep
        · obtain rfl := Option.some.inj hstep
          exact h.of_eq (pexpire_of_ne halone _ _ _)
        · obtain rfl := Option.some.inj hstep
          exact h
      · cases hstep
  | crash call =>
      simp only [RedisRecipientRateLimiter.step] at hstep
      split at hstep
      · obtain rfl := Option.some.inj hstep
        exact h
      · cases hstep
  | expire other =>
      simp only [RedisRecipientRateLimiter.step] at hstep
      obtain ⟨keys, hexpire, rfl⟩ := Option.map_eq_some_iff.mp hstep
      obtain ⟨-, -, -, -, -, rfl⟩ := expire_cases hexpire
      intro counter hcounter
      rcases update_cases hcounter with ⟨-, hcounter⟩ | ⟨-, hcounter⟩
      · cases hcounter
      · exact h counter hcounter
  | pass ms =>
      obtain rfl := Option.some.inj hstep
      exact h

/-- What the limiter answers to the first message of a life. -/
def firstAnswer (key : String) (time : Int) : Answer where
  key := key
  time := time
  born := time
  decision := { allowed := true, count := 1, retryAt := 0 }

theorem consume_of_none
    (toLowerCase : String → String) (w : World) (email : String)
    (hlimit : 1 ≤ config.limit)
    (hnone : w.keys (keyOf toLowerCase email) = none)
    (dateNow : Int) :
    ∃ w',
      runEvents (step toLowerCase config) w
          [.consume email,
            .pexpire (firstAnswer (keyOf toLowerCase email) w.now).increment dateNow] = some w' ∧
        w'.answers = w.answers ++ [firstAnswer (keyOf toLowerCase email) w.now] := by
  have hon : ¬ config.limit ≤ 0 := by linarith
  have hcall :
      incrementOf w.now (keyOf toLowerCase email) w.keys =
        (firstAnswer (keyOf toLowerCase email) w.now).increment := by
    unfold incrementOf
    rw [hnone]
    rfl
  have hdecision :
      decisionOf config 1 dateNow = { allowed := true, count := 1, retryAt := 0 } := by
    unfold decisionOf
    rw [Nat.cast_one, if_neg (not_lt.mpr hlimit)]
  simp only [runEvents, step, if_neg hon, hcall, Option.bind_some, if_pos List.mem_cons_self]
  refine ⟨_, rfl, ?_⟩
  exact congrArg (fun decision => w.answers ++ [{ firstAnswer _ _ with decision := decision }])
    hdecision

/--
Whatever went before: when the PEXPIRE of a call for an address has run and the address
is left alone for the length of the window, its next message is let through.
-/
theorem admitted_of_leftAlone
    (toLowerCase : String → String)
    (config : RedisRecipientRateLimiterConfig)
    (hlimit : 1 ≤ config.limit)
    (before done later : World)
    (call : Increment String)
    (event : Event)
    (hruns : RunsPexpire call event)
    (hdone : step toLowerCase config before event = some done)
    (halone : Reaches (step toLowerCase config) (LeavesAlone toLowerCase call.key) done later)
    (hlater : done.now + config.windowMs ≤ later.now)
    (email : String)
    (hemail : keyOf toLowerCase email = call.key)
    (dateNow : Int) :
    ∃ expiry w,
      (expiry = [] ∨ expiry = [.expire call.key]) ∧
        runEvents (step toLowerCase config) later
            (expiry ++
              [.consume email, .pexpire (firstAnswer call.key later.now).increment dateNow]) =
          some w ∧
        w.answers = later.answers ++ [firstAnswer call.key later.now] := by
  have hgone : GoneBy call.key (done.now + config.windowMs) done.keys := by
    cases event with
    | pexpire other _ =>
        obtain rfl : other = call := hruns
        simp only [step] at hdone
        split at hdone
        · obtain rfl := Option.some.inj hdone
          exact goneBy_pexpire _ _ _ _
        · cases hdone
    | pexpireFails other executed =>
        obtain ⟨rfl, rfl⟩ := hruns
        simp only [step, if_true] at hdone
        split at hdone
        · obtain rfl := Option.some.inj hdone
          exact goneBy_pexpire _ _ _ _
        · cases hdone
    | consume _ => cases hruns
    | incrFails _ _ => cases hruns
    | crash _ => cases hruns
    | expire _ => cases hruns
    | pass _ => cases hruns
  have hstill : GoneBy call.key (done.now + config.windowMs) later.keys :=
    halone.invariant (I := fun w => GoneBy call.key (done.now + config.windowMs) w.keys) hgone
      fun _ _ _ hkept halone hstep => hkept.step halone hstep
  cases hkey : later.keys call.key with
  | none =>
      obtain ⟨w, hrun, hanswers⟩ :=
        consume_of_none toLowerCase later email hlimit (by rw [hemail, hkey]) dateNow
      rw [hemail] at hrun hanswers
      exact ⟨[], w, Or.inl rfl, hrun, hanswers⟩
  | some counter =>
      obtain ⟨expiresAt, hexp, hdue⟩ := hstill counter hkey
      have hexpire :
          expire later.now call.key later.keys =
            some (Function.update later.keys call.key none) := by
        refine if_pos ?_
        rw [hkey, Option.any_some]
        exact (Option.any_eq_true _ _).mpr ⟨expiresAt, hexp, decide_eq_true (hdue.trans hlater)⟩
      obtain ⟨w, hrun, hanswers⟩ :=
        consume_of_none toLowerCase { later with keys := Function.update later.keys call.key none }
          email hlimit (by rw [hemail]; exact Function.update_self _ _ _) dateNow
      rw [hemail] at hrun hanswers
      refine ⟨[.expire call.key], w, Or.inr rfl, ?_, hanswers⟩
      rw [List.singleton_append, runEvents]
      simp only [step, hexpire, Option.map_some, Option.bind_some]
      exact hrun

/-- Crashes have left the key without an expiry, at its limit. -/
def leakedKey : World where
  keys := Function.update (fun _ => none) "lt:rrl:a@b.c"
    (some { count := 3, expiresAt := none, born := 0 })
  now := 0
  pending := [callAt 0 0 3]
  answers := []

/-- The third message is refused, and the one after the window is sent. -/
theorem admitted_of_leftAlone_leakedKey :
    ∃ expiry w,
      runEvents (step Text.asciiLowerCase twoPerWindow) leakedKey
          ([.pexpire (callAt 0 0 3) 0, .pass 100] ++
            (expiry ++ [.consume "a@b.c", .pexpire (callAt 100 100 1) 100])) = some w ∧
        w.answers.map (fun answer => answer.decision.allowed) = [false, true] := by
  obtain ⟨expiry, w, -, hrun, hanswers⟩ :=
    admitted_of_leftAlone Text.asciiLowerCase twoPerWindow (by decide +kernel) leakedKey _ _
      (callAt 0 0 3) (.pexpire (callAt 0 0 3) 0) rfl rfl
      (Reaches.tail (e := .pass 100) (Reaches.refl _) trivial rfl) (by decide) "a@b.c" (by decide +kernel) 100
  refine ⟨expiry, w, hrun, ?_⟩
  rw [hanswers]
  decide +kernel

end Runs

end RedisRecipientRateLimiter
end NestBase
