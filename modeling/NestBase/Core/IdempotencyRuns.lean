import NestBase.Core.IdempotencyService

/-!
# Runs of the idempotency service

The service guards itself with the in-process set `inflight`.  The lookup
precedes the test of that set, so a call that read "no record" and was then
suspended while another call ran to its end finds the set empty again, and
runs its handler a second time.

The invariant `Inv` says what the set achieves: a key has one holder, and a
holder started only after every committed record of its key had expired.  It
is kept by every event except a handler start on an outdated lookup, so
`executesAtMostOnce_of_lookupStillCurrent` holds for all runs in which the
lookup of a starting call is still current.
-/

namespace NestBase
namespace Idempotency

open Lib

section Calls

variable {TBody : Type}

/-! ## Who holds a key -/

/-- The key a call holds in `inflight`: from its handler's start to its return. -/
def Call.holds : Call TBody → Option String
  | handling input _ => some input.scopedKey
  | putting input _ _ => some input.scopedKey
  | putDone input _ => some input.scopedKey
  | _ => none

/-- Key and clock reading of a call whose record is not stored yet. -/
def Call.unstored : Call TBody → Option (String × Int)
  | handling input now => some (input.scopedKey, now)
  | putting input now _ => some (input.scopedKey, now)
  | _ => none

variable {now : Int}

theorem Call.holds_of_unstored
    {phase : Call TBody} {key : String}
    (h : phase.unstored = some (key, now)) :
    phase.holds = some key := by
  cases phase <;> simp_all [Call.unstored, Call.holds]

/--
The invariant of the process.  A held key is in `inflight` and has one
holder; for every committed put the store still has a record of that key
which expires no earlier; and whoever is about to store a record for a key
started after every committed record of that key had expired.
-/
structure Inv (w : World TBody) : Prop where
  inflight_of_holds :
    ∀ c key, (w.calls c).holds = some key → key ∈ w.inflight
  holder_unique :
    ∀ c c' key,
      (w.calls c).holds = some key → (w.calls c').holds = some key → c = c'
  stored_of_committed :
    ∀ put ∈ w.committed,
      ∃ record,
        PrismaIdempotencyStore.get w.store put.2.key = some record ∧
        put.2.expiresAt ≤ record.expiresAt
  expired_of_unstored :
    ∀ c key now,
      (w.calls c).unstored = some (key, now) →
      ∀ put ∈ w.committed, put.2.key = key → put.2.expiresAt ≤ now

theorem inv_initialWorld (store : PrismaIdempotencyStore.Table TBody) :
    Inv (initialWorld store) where
  inflight_of_holds := by simp [initialWorld, Call.holds]
  holder_unique := by simp [initialWorld, Call.holds]
  stored_of_committed := by simp [initialWorld]
  expired_of_unstored := by simp [initialWorld]

namespace Inv

variable {w : World TBody}

/-- A phase change that leaves the held key and the pending record alone. -/
theorem setCall
    (hinv : Inv w)
    (c : Nat)
    {phase : Call TBody}
    (hholds : phase.holds = (w.calls c).holds)
    (hunstored :
      ∀ pending, phase.unstored = some pending →
        (w.calls c).unstored = some pending) :
    Inv (w.setCall c phase) := by
  have hsame :
      ∀ d, ((w.setCall c phase).calls d).holds = (w.calls d).holds := by
    intro d
    by_cases hd : d = c
    · subst hd
      simp [World.setCall, hholds]
    · simp [World.setCall, Function.update_of_ne hd]
  refine ⟨?_, ?_, hinv.stored_of_committed, ?_⟩
  · intro d key hd
    exact hinv.inflight_of_holds d key (by rw [← hsame]; exact hd)
  · intro d d' key hd hd'
    rw [hsame] at hd hd'
    exact hinv.holder_unique d d' key hd hd'
  · intro d key now hd
    by_cases hdc : d = c
    · subst hdc
      simp only [World.setCall, Function.update_self] at hd
      exact hinv.expired_of_unstored d key now (hunstored _ hd)
    · simp only [World.setCall, Function.update_of_ne hdc] at hd
      exact hinv.expired_of_unstored d key now hd

/-- The start of a handler for a key nobody holds. -/
theorem start
    (hinv : Inv w)
    (c : Nat)
    {input : RunOrCacheInput} {now : Int}
    (hfree : input.scopedKey ∉ w.inflight)
    (hexpired :
      ∀ put ∈ w.committed,
        put.2.key = input.scopedKey → put.2.expiresAt ≤ now) :
    Inv
      { w with
        inflight := insert input.scopedKey w.inflight
        calls := Function.update w.calls c (.handling input now) } := by
  have hother :
      ∀ d, d ≠ c →
        (w.calls d).holds ≠ some input.scopedKey := by
    intro d _ hd
    exact hfree (hinv.inflight_of_holds d _ hd)
  refine ⟨?_, ?_, hinv.stored_of_committed, ?_⟩
  · intro d key hd
    by_cases hdc : d = c
    · subst hdc
      simp only [Function.update_self, Call.holds, Option.some.injEq] at hd
      simp [hd]
    · simp only [Function.update_of_ne hdc] at hd
      exact Finset.mem_insert_of_mem (hinv.inflight_of_holds d key hd)
  · intro d d' key hd hd'
    by_cases hdc : d = c <;> by_cases hdc' : d' = c
    · rw [hdc, hdc']
    · subst hdc
      simp only [Function.update_self, Call.holds, Option.some.injEq] at hd
      simp only [Function.update_of_ne hdc'] at hd'
      exact absurd (hd ▸ hd') (hother d' hdc')
    · subst hdc'
      simp only [Function.update_self, Call.holds, Option.some.injEq] at hd'
      simp only [Function.update_of_ne hdc] at hd
      exact absurd (hd' ▸ hd) (hother d hdc)
    · simp only [Function.update_of_ne hdc] at hd
      simp only [Function.update_of_ne hdc'] at hd'
      exact hinv.holder_unique d d' key hd hd'
  · intro d key now' hd
    by_cases hdc : d = c
    · subst hdc
      simp only [Function.update_self, Call.unstored, Option.some.injEq,
        Prod.mk.injEq] at hd
      obtain ⟨rfl, rfl⟩ := hd
      exact hexpired
    · simp only [Function.update_of_ne hdc] at hd
      exact hinv.expired_of_unstored d key now' hd

/-- The store performs the put of the call that holds the key. -/
theorem storePut
    (hinv : Inv w)
    (env : ServiceEnv)
    (c : Nat)
    {input : RunOrCacheInput} {now : Int}
    (response : IdempotencyResponse TBody)
    (hcall : (w.calls c).unstored = some (input.scopedKey, now)) :
    ∀ put ∈ w.committed,
      ∃ record,
        PrismaIdempotencyStore.get
            (PrismaIdempotencyStore.put w.store (recordOf env input now response))
            put.2.key = some record ∧
        put.2.expiresAt ≤ record.expiresAt := by
  intro put hput
  by_cases hkey : put.2.key = input.scopedKey
  · refine ⟨recordOf env input now response, ?_, ?_⟩
    · rw [hkey]
      exact PrismaIdempotencyStore.get_put_self _ _
    · have hle := hinv.expired_of_unstored c _ now hcall put hput hkey
      simp only [recordOf]
      omega
  · obtain ⟨record, hget, hle⟩ := hinv.stored_of_committed put hput
    refine ⟨record, ?_, hle⟩
    rw [PrismaIdempotencyStore.get_put_of_ne _ _ hkey]
    exact hget

/-- The end of a call that held its key: the `finally` block. -/
theorem release
    (hinv : Inv w)
    {c : Nat} {key : String}
    (outcome : Outcome TBody)
    (hholds : (w.calls c).holds = some key) :
    Inv (w.release c key outcome) := by
  have hcalls :
      ∀ d phase, (w.release c key outcome).calls d = phase →
        phase.holds ≠ none → d ≠ c ∧ w.calls d = phase := by
    intro d phase hd hne
    by_cases hdc : d = c
    · subst hdc
      simp only [World.release, Function.update_self] at hd
      subst hd
      simp [Call.holds] at hne
    · simp only [World.release, Function.update_of_ne hdc] at hd
      exact ⟨hdc, hd⟩
  refine ⟨?_, ?_, hinv.stored_of_committed, ?_⟩
  · intro d key' hd
    obtain ⟨hdc, hphase⟩ := hcalls d _ rfl (by rw [hd]; simp)
    rw [← hphase] at hd
    -- Another holder of the released key would be a second holder.
    have hne : key' ≠ key := by
      intro heq
      subst heq
      exact hdc (hinv.holder_unique d c key' hd hholds)
    exact Finset.mem_erase.mpr ⟨hne, hinv.inflight_of_holds d key' hd⟩
  · intro d d' key' hd hd'
    obtain ⟨-, hphase⟩ := hcalls d _ rfl (by rw [hd]; simp)
    obtain ⟨-, hphase'⟩ := hcalls d' _ rfl (by rw [hd']; simp)
    rw [← hphase] at hd
    rw [← hphase'] at hd'
    exact hinv.holder_unique d d' key' hd hd'
  · intro d key' now hd
    have hholds' := Call.holds_of_unstored hd
    obtain ⟨-, hphase⟩ := hcalls d _ rfl (by rw [hholds']; simp)
    rw [← hphase] at hd
    exact hinv.expired_of_unstored d key' now hd

end Inv

/-! ## Runs -/

/--
A call that is about to run its handler still sees, in the store, the record
(or the absence of one) that its lookup returned.
-/
def LookupStillCurrent (env : ServiceEnv) (w : World TBody) :
    Event TBody → Prop
  | .resume c now =>
      ∀ input existing,
        w.calls c = .lookedUp input existing →
        decideAfterLookup (computeRequestHash env input.request)
          input.scopedKey existing now w.inflight = .runHandler →
        PrismaIdempotencyStore.get w.store input.scopedKey = existing
  | _ => True

/-- The handler runs only for a key that is not in flight and not live. -/
theorem decideAfterLookup_eq_runHandler
    {requestHash scopedKey : String} {existing : Option (IdempotencyRecord TBody)}
    {inflight : Finset String}
    (h : decideAfterLookup requestHash scopedKey existing now inflight = .runHandler) :
    scopedKey ∉ inflight ∧ ∀ record, existing = some record → record.expiresAt ≤ now := by
  have hguard :
      (guardInflight inflight scopedKey : LookupDecision TBody) = .runHandler →
        scopedKey ∉ inflight := by
    intro hg hmem
    simp [guardInflight, hmem] at hg
  cases existing with
  | none => exact ⟨hguard h, by simp⟩
  | some record =>
      simp only [decideAfterLookup] at h
      split at h
      · split at h <;> cases h
      · next hexpired =>
        refine ⟨hguard h, ?_⟩
        rintro _ ⟨rfl⟩
        omega

/-- A replay returns the looked-up record, which is one of the same request. -/
theorem decideAfterLookup_eq_replay
    {requestHash scopedKey : String} {existing : Option (IdempotencyRecord TBody)}
    {inflight : Finset String} {record : IdempotencyRecord TBody}
    (h : decideAfterLookup requestHash scopedKey existing now inflight = .replay record) :
    existing = some record ∧ record.requestHash = requestHash := by
  have hguard :
      (guardInflight inflight scopedKey : LookupDecision TBody) ≠ .replay record := by
    unfold guardInflight
    split <;> simp
  cases existing with
  | none => exact absurd h hguard
  | some found =>
      simp only [decideAfterLookup] at h
      split at h
      · split at h
        · cases h
        · next hhash =>
          cases h
          exact ⟨rfl, not_not.mp hhash⟩
      · exact absurd h hguard

variable {env : ServiceEnv}

/-- Whoever starts its handler on a current lookup finds every committed record expired. -/
theorem expired_of_start
    {w : World TBody} {c : Nat}
    {input : RunOrCacheInput} {existing : Option (IdempotencyRecord TBody)}
    (hinv : Inv w)
    (hcurrent : LookupStillCurrent env w (.resume c now))
    (hcall : w.calls c = .lookedUp input existing)
    (hrun :
      decideAfterLookup (computeRequestHash env input.request)
        input.scopedKey existing now w.inflight = .runHandler) :
    ∀ put ∈ w.committed,
      put.2.key = input.scopedKey → put.2.expiresAt ≤ now := by
  intro put hput hkey
  obtain ⟨record, hget, hle⟩ := hinv.stored_of_committed put hput
  rw [hkey, hcurrent input existing hcall hrun] at hget
  exact hle.trans ((decideAfterLookup_eq_runHandler hrun).2 record hget)

/-- One admitted event keeps the invariant. -/
theorem inv_step
    (w : World TBody) (e : Event TBody) (w' : World TBody)
    (hinv : Inv w)
    (hcurrent : LookupStillCurrent env w e)
    (hstep : step env w e = some w') :
    Inv w' := by
  cases stepped_of_step hstep with
  | call c input hcall =>
      exact hinv.setCall c (by simp [hcall, Call.holds]) (by simp [Call.unstored])
  | storeGet c input hcall =>
      exact hinv.setCall c (by simp [hcall, Call.holds]) (by simp [Call.unstored])
  | storeGetFails c input hcall =>
      exact hinv.setCall c (by simp [hcall, Call.holds]) (by simp [Call.unstored])
  | resume c now input existing hcall =>
      have hquiet :
          ∀ outcome : Outcome TBody, Inv (w.setCall c (.settled outcome)) := by
        intro outcome
        exact hinv.setCall c (by simp [hcall, Call.holds]) (by simp [Call.unstored])
      unfold resumeCall
      split
      · exact hquiet _
      · exact hquiet _
      · exact hquiet _
      · next hrun =>
        exact hinv.start c (decideAfterLookup_eq_runHandler hrun).1
          (expired_of_start hinv hcurrent hcall hrun)
  | handlerReturns c response input now hcall =>
      exact hinv.setCall c (by simp [hcall, Call.holds])
        (by simp [hcall, Call.unstored])
  | handlerThrows c input now hcall =>
      exact hinv.release _ (by simp [hcall, Call.holds])
  | storePut c input now response hcall =>
      have hmoved : Inv (w.setCall c (.putDone input response)) :=
        hinv.setCall c (by simp [hcall, Call.holds]) (by simp [Call.unstored])
      refine ⟨hmoved.inflight_of_holds, hmoved.holder_unique, ?_, ?_⟩
      · intro put hput
        rcases List.mem_cons.mp hput with rfl | hput
        · exact ⟨_, PrismaIdempotencyStore.get_put_self _ _, le_refl _⟩
        · exact hinv.storePut env c response (by simp [hcall, Call.unstored]) put hput
      · intro d key now' hd put hput hkey
        rcases List.mem_cons.mp hput with rfl | hput
        · -- Nobody else can be about to store a record for this key.
          have hheld : (w.calls c).holds = some key := by
            simp only [recordOf] at hkey
            simp [hcall, Call.holds, hkey]
          by_cases hdc : d = c
          · subst hdc
            simp [Call.unstored] at hd
          · simp only [Function.update_of_ne hdc] at hd
            exact absurd
              (hinv.holder_unique d c key (Call.holds_of_unstored hd) hheld) hdc
        · exact hmoved.expired_of_unstored d key now' hd put hput hkey
  | storePutFails c applied input now response hcall =>
      refine Inv.release ?_ _ (by cases applied <;> simp [hcall, Call.holds])
      cases applied with
      | false => simpa using hinv
      | true =>
          exact ⟨hinv.inflight_of_holds, hinv.holder_unique,
            hinv.storePut env c response (by simp [hcall, Call.unstored]),
            hinv.expired_of_unstored⟩
  | settle c input response hcall =>
      exact hinv.release _ (by simp [hcall, Call.holds])

theorem inv_of_reaches
    {store : PrismaIdempotencyStore.Table TBody} {w : World TBody}
    (hrun : Reaches (step env) (LookupStillCurrent env) (initialWorld store) w) :
    Inv w :=
  hrun.invariant (inv_initialWorld store) inv_step

/-! ## At most one execution -/

/-- The three ways a call ends without running its handler. -/
def ServedWithoutHandler
    (env : ServiceEnv)
    (input : RunOrCacheInput)
    (existing : Option (IdempotencyRecord TBody))
    (phase : Call TBody) : Prop :=
  (∃ record,
    existing = some record ∧
    record.requestHash = computeRequestHash env input.request ∧
    phase = .settled (.returned
      { status := record.status, body := record.body, replayed := true })) ∨
  phase = .settled (.threw (.conflict input.key)) ∨
  phase = .settled (.threw (.inProgress input.key))

/--
While a record that some call has put is live, every call with the same
scoped key that resumes from its lookup replays a stored response or throws.
-/
def ExecutesAtMostOnce (env : ServiceEnv) (guard : World TBody → Event TBody → Prop) : Prop :=
  ∀ store w w' c input existing now,
    Reaches (step env) guard (initialWorld store) w →
    w.calls c = .lookedUp input existing →
    guard w (.resume c now) →
    step env w (.resume c now) = some w' →
    ∀ put ∈ w.committed,
      put.2.key = input.scopedKey →
      now < put.2.expiresAt →
      ServedWithoutHandler env input existing (w'.calls c)

theorem executesAtMostOnce_of_lookupStillCurrent (env : ServiceEnv) :
    @ExecutesAtMostOnce TBody env (LookupStillCurrent env) := by
  intro store w w' c input existing now hrun hcall hcurrent hstep put hput hkey hlive
  have hinv := inv_of_reaches hrun
  simp only [step, hcall, Option.some.injEq] at hstep
  subst hstep
  unfold resumeCall
  split
  · right; left
    simp [World.setCall]
  · next record hdecision =>
    left
    obtain ⟨hfound, hhash⟩ := decideAfterLookup_eq_replay hdecision
    exact ⟨record, hfound, hhash, by simp [World.setCall]⟩
  · right; right
    simp [World.setCall]
  · next hdecision =>
    have hexpired := expired_of_start hinv hcurrent hcall hdecision put hput hkey
    omega

/-! ## Two executions through an interleaved lookup -/

/-- A platform for concrete runs; records live for one second. -/
def raceEnv : ServiceEnv where
  sha256 := id
  localeCompare := compare
  toUpperCase := id
  ttlMs := 1000

def raceInput : RunOrCacheInput where
  key := "k"
  request := { method := "POST", path := "/api/orders", body := none }
  userId := some "u"

/-- Call 0 looks up and is suspended; call 1 runs from start to end. -/
def raceEvents : List (Event Unit) :=
  [.call 0 raceInput, .storeGet 0,
    .call 1 raceInput, .storeGet 1, .resume 1 0,
    .handlerReturns 1 { status := 201, body := () }, .storePut 1, .settle 1]

/-- After `raceEvents` call 0 resumes and runs its handler one millisecond later. -/
theorem not_executesAtMostOnce_interleavedLookup :
    ¬ @ExecutesAtMostOnce Unit raceEnv anyEvent := by
  intro h
  obtain ⟨w, hrun, hcall, hput, hfree⟩ :
      ∃ w,
        runEvents (step raceEnv) (initialWorld fun _ => none) raceEvents = some w ∧
        w.calls 0 = .lookedUp raceInput none ∧
        (1, recordOf raceEnv raceInput 0 { status := 201, body := () }) ∈ w.committed ∧
        raceInput.scopedKey ∉ w.inflight :=
    ⟨_, rfl, rfl, List.mem_singleton.mpr rfl, by decide⟩
  have hserved :=
    h _ w (resumeCall raceEnv w 0 raceInput none 1) 0 raceInput none 1
      (reaches_of_runEvents hrun) hcall trivial
      (by simp only [step, hcall]) _ hput rfl (by decide)
  simp [resumeCall, decideAfterLookup, guardInflight, hfree, ServedWithoutHandler] at hserved

end Calls

end Idempotency
end NestBase
