import NestBase.Core.ApiKeyScopes
import NestBase.Lib.OrderedMap
import NestBase.Lib.PercentEncoding
import NestBase.Lib.Text
import NestBase.Lib.Transition

/-!
# The cache of abilities

`PermissionService.abilityFor` returns the cached ability of a user in a
tenant, or reads the user's rows from storage, builds the ability and caches
it.  A call is suspended while storage reads its rows; meanwhile other calls
run, rows change and entries are invalidated.

Every event has a number, the `clock` before it.  A cached ability and a
returned one carry the number of the event that read their rows, and every
invalidation is logged with its number.  These numbers are read by no code.

An invalidation covers a user and a tenant.  A call that starts after it
should not return an ability from rows read before it.  This holds as long as
no invalidation is made while a call it covers has read its rows and has not
cached them yet (`NoStaleLoad`).
-/

namespace NestBase
namespace PermissionService

open Lib
open Lib.PercentEncoding
open Permissions
open ApiKeyScopes

/-! ## The service -/

def DEFAULT_TTL_MS : Int := 60000

def DEFAULT_MAX_ENTRIES : Int := 1000

structure PermissionServiceOptions where
  ttlMs : Int := DEFAULT_TTL_MS
  maxEntries : Int := DEFAULT_MAX_ENTRIES

structure CacheEntry where
  ability : Ability
  expiresAt : Int
  /-- The number of the event that read the rows. -/
  readAt : Nat

abbrev Cache : Type := List (String × CacheEntry)

def cacheKey (userId tenantId : String) : String :=
  encodeURIComponent userId ++ "|" ++ encodeURIComponent tenantId

/-- The oldest entries leave until at most `maxEntries` are left. -/
def evictIfNeeded (maxEntries : Int) : Cache → Cache
  | [] => []
  | oldest :: rest =>
      if (rest.length : Int) + 1 > maxEntries then evictIfNeeded maxEntries rest
      else oldest :: rest

/-- `invalidate(userId, tenantId?)` -/
def invalidate (userId : String) (tenantId : Option String) (cache : Cache) : Cache :=
  match tenantId with
  | some tenantId => OrderedMap.delete (cacheKey userId tenantId) cache
  | none => cache.filter fun entry => !Text.startsWith entry.1 (encodeURIComponent userId ++ "|")

def invalidateAll (_ : Cache) : Cache := []

/-! ## Calls and events -/

structure AbilityForInput where
  userId : String
  tenantId : String
  scopes : Option (List String)

/-- Where a call of `abilityFor` is. -/
inductive Call where
  | notStarted
  /-- Suspended in `findRulesForUser`. -/
  | loading (input : AbilityForInput) (startedAt : Nat)
  /-- The rows are read, and the call has not resumed. -/
  | loaded
      (input : AbilityForInput)
      (startedAt readAt : Nat)
      (rows : List DbPermissionRow)
  | returned
      (input : AbilityForInput)
      (startedAt readAt : Nat)
      (ability : Ability)
  /-- Storage rejected, or a row could not be resolved. -/
  | rejected (input : AbilityForInput) (message : String)

inductive Invalidation where
  | user (userId : String) (tenantId : Option String)
  | all

/-- The invalidation is about the user in the tenant. -/
def Invalidation.Covers (userId tenantId : String) : Invalidation → Prop
  | user userId' (some tenantId') => userId' = userId ∧ tenantId' = tenantId
  | user userId' none => userId' = userId
  | all => True

structure World where
  /-- The rows `findRulesForUser` returns. -/
  storage : String → String → List DbPermissionRow
  cache : Cache
  calls : Nat → Call
  /-- The number of events so far. -/
  clock : Nat
  /-- The invalidations with their numbers. -/
  invalidations : List (Nat × Invalidation)

inductive Event where
  /-- `abilityFor` is called; the clock of the process shows `now`. -/
  | start (c : Nat) (input : AbilityForInput) (now : Int)
  /-- Storage reads the rows of call `c`. -/
  | read (c : Nat)
  | readFails (c : Nat) (message : String)
  /-- Call `c` resumes; `nowIso` is its `new Date()` and `now` its `Date.now()`. -/
  | resume (c : Nat) (nowIso : String) (now : Int)
  /-- Rows, roles or policies change. -/
  | mutate (storage : String → String → List DbPermissionRow)
  | invalidate (userId : String) (tenantId : Option String)
  | invalidateAll

namespace World

def setCall (w : World) (c : Nat) (phase : Call) : World :=
  { w with calls := Function.update w.calls c phase }

/-- The next event has the next number. -/
def tick (w : World) : World :=
  { w with clock := w.clock + 1 }

end World

/-- A fresh process over any rows. -/
def initialWorld (storage : String → String → List DbPermissionRow) : World where
  storage := storage
  cache := []
  calls := fun _ => .notStarted
  clock := 0
  invalidations := []

section Step

variable {Item : Type}
variable (casl : Casl Item)
variable (options : PermissionServiceOptions)

/-- `abilityFor` up to its first suspension. -/
def startCall (w : World) (c : Nat) (input : AbilityForInput) (now : Int) : World :=
  let key := cacheKey input.userId input.tenantId
  match OrderedMap.get key w.cache with
  | some cached =>
      if cached.expiresAt > now then
        { w with
          cache := OrderedMap.set key cached (OrderedMap.delete key w.cache)
          calls := Function.update w.calls c
            (.returned input w.clock cached.readAt (scopedAbility casl cached.ability input.scopes)) }
      else w.setCall c (.loading input w.clock)
  | none => w.setCall c (.loading input w.clock)

/-- `abilityFor` from the return of `findRulesForUser` to its end. -/
def resumeCall (w : World) (c : Nat) (input : AbilityForInput) (startedAt readAt : Nat)
    (rows : List DbPermissionRow) (nowIso : String) (now : Int) : World :=
  let key := cacheKey input.userId input.tenantId
  match resolveDbRules
      { userId := input.userId, now := nowIso, tenantId := some input.tenantId } rows with
  | .error message => w.setCall c (.rejected input message)
  | .ok rules =>
      let ability := buildAbility rules
      let entry : CacheEntry :=
        { ability := ability, expiresAt := now + options.ttlMs, readAt := readAt }
      { w with
        cache := evictIfNeeded options.maxEntries (OrderedMap.set key entry w.cache)
        calls := Function.update w.calls c
          (.returned input startedAt readAt (scopedAbility casl ability input.scopes)) }

/-- What an event does, besides taking a number. -/
def act (w : World) : Event → Option World
  | .start c input now =>
      match w.calls c with
      | .notStarted => some (startCall casl w c input now)
      | _ => none
  | .read c =>
      match w.calls c with
      | .loading input startedAt =>
          some (w.setCall c
            (.loaded input startedAt w.clock (w.storage input.userId input.tenantId)))
      | _ => none
  | .readFails c message =>
      match w.calls c with
      | .loading input _ => some (w.setCall c (.rejected input message))
      | _ => none
  | .resume c nowIso now =>
      match w.calls c with
      | .loaded input startedAt readAt rows =>
          some (resumeCall casl options w c input startedAt readAt rows nowIso now)
      | _ => none
  | .mutate storage => some { w with storage := storage }
  | .invalidate userId tenantId =>
      some
        { w with
          cache := invalidate userId tenantId w.cache
          invalidations := (w.clock, .user userId tenantId) :: w.invalidations }
  | .invalidateAll =>
      some
        { w with
          cache := invalidateAll w.cache
          invalidations := (w.clock, .all) :: w.invalidations }

/-- One event of the process; `none` when the call is not at that place. -/
def step (w : World) (e : Event) : Option World :=
  (act casl options w e).map World.tick

end Step

/-! ## Freshness -/

/--
No call that started after an invalidation of its user and tenant returned an
ability from rows read before that invalidation.
-/
def FreshAfterInvalidation (w : World) : Prop :=
  ∀ c input startedAt readAt ability,
    w.calls c = .returned input startedAt readAt ability →
      ∀ time invalidation, (time, invalidation) ∈ w.invalidations →
        invalidation.Covers input.userId input.tenantId → time < startedAt → time ≤ readAt

/-- No call the invalidation covers has read its rows and not yet resumed. -/
def NothingLoaded (w : World) (invalidation : Invalidation) : Prop :=
  ∀ c input startedAt readAt rows,
    w.calls c = .loaded input startedAt readAt rows →
      ¬ invalidation.Covers input.userId input.tenantId

/-- Invalidations are made while no call they cover is between its read and its return. -/
def NoStaleLoad (w : World) : Event → Prop
  | .invalidate userId tenantId => NothingLoaded w (.user userId tenantId)
  | .invalidateAll => NothingLoaded w .all
  | _ => True

/-! ## Keys of the cache -/

/-- Different users or tenants have different keys. -/
theorem cacheKey_inj
    {userId tenantId userId' tenantId' : String}
    (h : cacheKey userId tenantId = cacheKey userId' tenantId') :
    userId = userId' ∧ tenantId = tenantId' := by
  have hbar : ∀ s, '|' ∉ (encodeURIComponent s).toList :=
    not_mem_encodeURIComponent (by decide) (by decide)
  have hlists :
      (encodeURIComponent userId).toList ++ '|' :: (encodeURIComponent tenantId).toList =
        (encodeURIComponent userId').toList ++ '|' :: (encodeURIComponent tenantId').toList := by
    have htext := congrArg String.toList h
    simpa [cacheKey, String.toList_append] using htext
  obtain ⟨huser, -, htenant⟩ :=
    (List.append_cons_inj_of_notMem (hbar userId) (hbar tenantId)).mp hlists
  exact ⟨encodeURIComponent_injective (String.toList_inj.mp huser),
    encodeURIComponent_injective (String.toList_inj.mp htenant)⟩

theorem startsWith_cacheKey (userId tenantId : String) :
    Text.startsWith (cacheKey userId tenantId) (encodeURIComponent userId ++ "|") = true :=
  Text.startsWith_append (encodeURIComponent userId ++ "|") (encodeURIComponent tenantId)

variable {cache : Cache}

theorem mem_of_mem_evictIfNeeded
    {maxEntries : Int} {entry : String × CacheEntry}
    (h : entry ∈ evictIfNeeded maxEntries cache) :
    entry ∈ cache := by
  induction cache with
  | nil => exact h
  | cons oldest rest ih =>
      rw [evictIfNeeded] at h
      split at h
      · exact List.mem_cons_of_mem _ (ih h)
      · exact h

/-- An invalidation takes the entries it covers out of the cache. -/
theorem mem_of_mem_invalidate
    {userId : String} {tenantId : Option String} {user tenant : String} {entry : CacheEntry}
    (h : (cacheKey user tenant, entry) ∈ invalidate userId tenantId cache) :
    (cacheKey user tenant, entry) ∈ cache ∧
      ¬ (Invalidation.user userId tenantId).Covers user tenant := by
  cases tenantId with
  | some tenantId =>
      obtain ⟨hmem, hne⟩ := OrderedMap.mem_delete_iff.mp h
      refine ⟨hmem, ?_⟩
      rintro ⟨rfl, rfl⟩
      exact hne rfl
  | none =>
      obtain ⟨hmem, hprefix⟩ := List.mem_filter.mp h
      refine ⟨hmem, ?_⟩
      rintro rfl
      rw [startsWith_cacheKey] at hprefix
      cases hprefix

/-! ## The invariant -/

abbrev Log : Type := List (Nat × Invalidation)

/-- Every invalidation of the user and tenant was made before the rows were read. -/
def ReadSince (log : Log) (userId tenantId : String) (readAt : Nat) : Prop :=
  ∀ time invalidation, (time, invalidation) ∈ log →
    invalidation.Covers userId tenantId → time ≤ readAt

/-- What the stamps of a call say about the log. -/
def CallFresh (log : Log) (clock : Nat) : Call → Prop
  | .notStarted => True
  | .loading _ startedAt => startedAt < clock
  | .loaded input startedAt readAt _ =>
      startedAt < clock ∧ ReadSince log input.userId input.tenantId readAt
  | .returned input startedAt readAt _ =>
      startedAt < clock ∧
        ∀ time invalidation, (time, invalidation) ∈ log →
          invalidation.Covers input.userId input.tenantId → time < startedAt → time ≤ readAt
  | .rejected _ _ => True

/-- No cached ability is older than an invalidation of its user and tenant. -/
def CacheFresh (log : Log) (cache : Cache) : Prop :=
  ∀ key entry, (key, entry) ∈ cache →
    ∃ userId tenantId, key = cacheKey userId tenantId ∧
      ReadSince log userId tenantId entry.readAt

structure Fresh (w : World) : Prop where
  past : ∀ time invalidation, (time, invalidation) ∈ w.invalidations → time < w.clock
  cache : CacheFresh w.invalidations w.cache
  calls : ∀ c, CallFresh w.invalidations w.clock (w.calls c)

theorem fresh_initialWorld (storage : String → String → List DbPermissionRow) :
    Fresh (initialWorld storage) where
  past := by
    intro time invalidation h
    cases h
  cache := by
    intro key entry h
    cases h
  calls := fun _ => trivial

theorem CallFresh.later {log : Log} {clock : Nat} {call : Call} (h : CallFresh log clock call) :
    CallFresh log (clock + 1) call := by
  cases call with
  | notStarted => trivial
  | loading input startedAt => exact Nat.lt_succ_of_lt h
  | loaded input startedAt readAt rows => exact ⟨Nat.lt_succ_of_lt h.1, h.2⟩
  | returned input startedAt readAt ability => exact ⟨Nat.lt_succ_of_lt h.1, h.2⟩
  | rejected input message => trivial

/-- A call that an invalidation does not catch between read and return stays fresh. -/
theorem CallFresh.invalidated
    {log : Log} {clock : Nat} {call : Call} {invalidation : Invalidation}
    (h : CallFresh log clock call)
    (hquiet :
      ∀ input startedAt readAt rows, call = .loaded input startedAt readAt rows →
        ¬ invalidation.Covers input.userId input.tenantId) :
    CallFresh ((clock, invalidation) :: log) (clock + 1) call := by
  cases call with
  | notStarted => trivial
  | loading input startedAt => exact Nat.lt_succ_of_lt h
  | loaded input startedAt readAt rows =>
      refine ⟨Nat.lt_succ_of_lt h.1, ?_⟩
      intro time other hmem hcovers
      rcases List.mem_cons.mp hmem with hnew | hold
      · obtain ⟨rfl, rfl⟩ := Prod.mk.inj hnew
        exact absurd hcovers (hquiet input startedAt readAt rows rfl)
      · exact h.2 time other hold hcovers
  | returned input startedAt readAt ability =>
      refine ⟨Nat.lt_succ_of_lt h.1, ?_⟩
      intro time other hmem hcovers hbefore
      rcases List.mem_cons.mp hmem with hnew | hold
      · -- the call had started before this invalidation
        obtain ⟨rfl, rfl⟩ := Prod.mk.inj hnew
        have hstarted := h.1
        omega
      · exact h.2 time other hold hcovers hbefore
  | rejected input message => trivial

variable {w : World}

/-- A new phase of one call keeps the invariant when the phase is fresh. -/
theorem Fresh.setCall
    {c : Nat} {phase : Call}
    (h : Fresh w)
    (hcache : CacheFresh w.invalidations cache)
    (hphase : CallFresh w.invalidations (w.clock + 1) phase) :
    Fresh (World.tick { w with cache := cache, calls := Function.update w.calls c phase }) where
  past := fun time invalidation hmem => Nat.lt_succ_of_lt (h.past time invalidation hmem)
  cache := hcache
  calls := by
    intro d
    by_cases hd : d = c
    · subst hd
      simpa [World.tick] using hphase
    · simpa [World.tick, Function.update_of_ne hd] using (h.calls d).later

/-- Dropping the covered entries while nothing covered is loaded keeps the invariant. -/
theorem Fresh.invalidated
    {invalidation : Invalidation}
    (h : Fresh w)
    (hquiet : NothingLoaded w invalidation)
    (hcache :
      ∀ userId tenantId entry, (cacheKey userId tenantId, entry) ∈ cache →
        (cacheKey userId tenantId, entry) ∈ w.cache ∧ ¬ invalidation.Covers userId tenantId)
    (hkeys : ∀ key entry, (key, entry) ∈ cache → (key, entry) ∈ w.cache) :
    Fresh
      (World.tick
        { w with cache := cache, invalidations := (w.clock, invalidation) :: w.invalidations }) where
  past := by
    intro time other hmem
    rcases List.mem_cons.mp hmem with hnew | hold
    · rw [(Prod.mk.inj hnew).1]
      exact Nat.lt_succ_self _
    · exact Nat.lt_succ_of_lt (h.past time other hold)
  cache := by
    intro key entry hentry
    obtain ⟨userId, tenantId, rfl, hsince⟩ := h.cache key entry (hkeys key entry hentry)
    refine ⟨userId, tenantId, rfl, ?_⟩
    intro time other hmem hcovers
    rcases List.mem_cons.mp hmem with hnew | hold
    · rw [(Prod.mk.inj hnew).2] at hcovers
      exact absurd hcovers (hcache userId tenantId entry hentry).2
    · exact hsince time other hold hcovers
  calls := fun c => (h.calls c).invalidated (hquiet c)

section Runs

variable {Item : Type}
variable (casl : Casl Item)
variable (options : PermissionServiceOptions)
variable {w : World}

/-- A call that starts returns a cached ability read since every invalidation, or loads. -/
theorem Fresh.startCall (h : Fresh w) (c : Nat) (input : AbilityForInput) (now : Int) :
    Fresh (startCall casl w c input now).tick := by
  have hloading : Fresh (w.setCall c (.loading input w.clock)).tick :=
    h.setCall h.cache (Nat.lt_succ_self _)
  unfold PermissionService.startCall
  cases hget : OrderedMap.get (cacheKey input.userId input.tenantId) w.cache with
  | none => simpa [hget] using hloading
  | some cached =>
      by_cases hlive : cached.expiresAt > now
      · have hmem := OrderedMap.mem_of_get hget
        obtain ⟨userId, tenantId, hkey, hsince⟩ := h.cache _ _ hmem
        obtain ⟨rfl, rfl⟩ := cacheKey_inj hkey
        simp only [hget, hlive, if_true]
        refine h.setCall ?_ ⟨Nat.lt_succ_self _, ?_⟩
        · intro key entry hentry
          rcases OrderedMap.mem_set hentry with hsame | hold
          · obtain ⟨rfl, rfl⟩ := Prod.mk.inj hsame
            exact ⟨_, _, rfl, hsince⟩
          · exact h.cache key entry (OrderedMap.mem_delete_iff.mp hold).1
        · intro time invalidation hlog hcovers _
          exact hsince time invalidation hlog hcovers
      · simpa [hget, hlive] using hloading

/-- A call that resumes caches and returns rows read since every invalidation. -/
theorem Fresh.resumeCall
    {c : Nat} {input : AbilityForInput} {startedAt readAt : Nat} {rows : List DbPermissionRow}
    (h : Fresh w)
    (hcall : w.calls c = .loaded input startedAt readAt rows)
    (nowIso : String)
    (now : Int) :
    Fresh (resumeCall casl options w c input startedAt readAt rows nowIso now).tick := by
  obtain ⟨hstarted, hsince⟩ : CallFresh w.invalidations w.clock (.loaded input startedAt readAt rows) :=
    hcall ▸ h.calls c
  unfold PermissionService.resumeCall
  cases resolveDbRules
      { userId := input.userId, now := nowIso, tenantId := some input.tenantId } rows with
  | error message => exact h.setCall h.cache trivial
  | ok rules =>
      refine h.setCall ?_ ⟨Nat.lt_succ_of_lt hstarted, ?_⟩
      · intro key entry hentry
        rcases OrderedMap.mem_set (mem_of_mem_evictIfNeeded hentry) with hnew | hold
        · obtain ⟨rfl, rfl⟩ := Prod.mk.inj hnew
          exact ⟨_, _, rfl, hsince⟩
        · exact h.cache key entry hold
      · intro time invalidation hlog hcovers _
        exact hsince time invalidation hlog hcovers

theorem fresh_step
    {w' : World} {e : Event}
    (h : Fresh w)
    (hguard : NoStaleLoad w e)
    (hstep : step casl options w e = some w') :
    Fresh w' := by
  obtain ⟨acted, hact, rfl⟩ := Option.map_eq_some_iff.mp hstep
  cases e with
  | start c input now =>
      simp only [act] at hact
      split at hact
      · cases hact
        exact h.startCall casl c input now
      · cases hact
  | read c =>
      simp only [act] at hact
      split at hact
      · next input startedAt hcall =>
          cases hact
          have hstarted : CallFresh w.invalidations w.clock (.loading input startedAt) :=
            hcall ▸ h.calls c
          refine h.setCall h.cache ⟨Nat.lt_succ_of_lt hstarted, ?_⟩
          intro time invalidation hlog _
          exact Nat.le_of_lt (h.past time invalidation hlog)
      · cases hact
  | readFails c message =>
      simp only [act] at hact
      split at hact
      · cases hact
        exact h.setCall h.cache trivial
      · cases hact
  | resume c nowIso now =>
      simp only [act] at hact
      split at hact
      · next input startedAt readAt rows hcall =>
          cases hact
          exact h.resumeCall casl options hcall nowIso now
      · cases hact
  | mutate storage =>
      cases hact
      exact
        { past := fun time invalidation hmem => Nat.lt_succ_of_lt (h.past time invalidation hmem)
          cache := h.cache
          calls := fun c => (h.calls c).later }
  | invalidate userId tenantId =>
      cases hact
      refine h.invalidated hguard (fun _ _ _ hmem => mem_of_mem_invalidate hmem) ?_
      intro key entry hmem
      cases tenantId with
      | some tenantId => exact (OrderedMap.mem_delete_iff.mp hmem).1
      | none => exact (List.mem_filter.mp hmem).1
  | invalidateAll =>
      cases hact
      refine h.invalidated hguard ?_ ?_
      · intro userId tenantId entry hmem
        cases hmem
      · intro key entry hmem
        cases hmem

/-- Runs without an invalidation during a covered load return no stale ability. -/
theorem freshAfterInvalidation_of_noStaleLoad
    (storage : String → String → List DbPermissionRow)
    (w : World)
    (hrun : Reaches (step casl options) NoStaleLoad (initialWorld storage) w) :
    FreshAfterInvalidation w := by
  have hfresh : Fresh w :=
    hrun.invariant (fresh_initialWorld storage)
      fun _ _ _ h hguard hstep => fresh_step casl options h hguard hstep
  intro c input startedAt readAt ability hreturned
  have hcall : CallFresh w.invalidations w.clock (.returned input startedAt readAt ability) :=
    hreturned ▸ hfresh.calls c
  exact hcall.2

end Runs

/-! ## A load and an invalidation -/

def noRows (_ _ : String) : List DbPermissionRow := []

def aliceInAcme : AbilityForInput where
  userId := "alice"
  tenantId := "acme"
  scopes := none

def isInvalidation : Event → Bool
  | .invalidate _ _ => true
  | .invalidateAll => true
  | _ => false

/-- Events that invalidate nothing meet the guard. -/
theorem reaches_of_no_invalidation
    {Item : Type} {casl : Casl Item} {options : PermissionServiceOptions} {w' : World}
    {events : List Event}
    (hrun :
      runEvents (checked (fun _ e => !isInvalidation e) (step casl options)) w events = some w') :
    Reaches (step casl options) NoStaleLoad w w' := by
  refine reaches_of_runEvents_checked ?_ hrun
  intro t e hcheck
  cases e with
  | invalidate => cases hcheck
  | invalidateAll => cases hcheck
  | _ => trivial

/-- A call from its start to its return. -/
def loadOnce (c : Nat) (now : Int) : List Event :=
  [.start c aliceInAcme now, .read c, .resume c "" now]

/-- A load, an invalidation after it, and a second load. -/
theorem freshAfterInvalidation_two_loads :
    ∃ w,
      (Reaches (step textCasl {}) NoStaleLoad (initialWorld noRows) w ∧
        w.calls 1 = .returned aliceInAcme 4 5 [] ∧
          w.invalidations = [(3, .user "alice" none)]) ∧
        FreshAfterInvalidation w := by
  obtain ⟨loaded, invalidated, w, hload, hquiet, hinvalidate, hrest, hcall, hlog⟩ :
      ∃ loaded invalidated w,
        runEvents (checked (fun _ e => !isInvalidation e) (step textCasl {}))
            (initialWorld noRows) (loadOnce 0 0) = some loaded ∧
          NoStaleLoad loaded (.invalidate "alice" none) ∧
            step textCasl {} loaded (.invalidate "alice" none) = some invalidated ∧
              runEvents (checked (fun _ e => !isInvalidation e) (step textCasl {})) invalidated
                  (loadOnce 1 1) = some w ∧
                w.calls 1 = .returned aliceInAcme 4 5 [] ∧
                  w.invalidations = [(3, .user "alice" none)] := by
    refine ⟨_, _, _, rfl, ?_, rfl, rfl, rfl, rfl⟩
    intro c input startedAt readAt rows hcall
    by_cases hc : c = 0
    · subst hc
      cases hcall
    · simp [World.tick, World.setCall, PermissionService.startCall, PermissionService.resumeCall,
        initialWorld, OrderedMap.get, noRows, resolveDbRules, Function.update_of_ne hc] at hcall
  have hrun : Reaches (step textCasl {}) NoStaleLoad (initialWorld noRows) w :=
    ((reaches_of_no_invalidation hload).tail hquiet hinvalidate).trans
      (reaches_of_no_invalidation hrest)
  exact ⟨w, ⟨hrun, hcall, hlog⟩, freshAfterInvalidation_of_noStaleLoad textCasl {} noRows w hrun⟩

/-- The rows are read, the entry is invalidated, and then the call caches the rows. -/
def invalidateDuringLoad : List Event :=
  [.start 0 aliceInAcme 0, .read 0, .invalidate "alice" (some "acme"), .resume 0 "" 1,
    .start 1 aliceInAcme 2]

/-- The second call returns rows read before the invalidation it started after. -/
theorem not_freshAfterInvalidation_during_load :
    ¬ ∀ w, Reaches (step textCasl {}) anyEvent (initialWorld noRows) w →
      FreshAfterInvalidation w := by
  intro hfresh
  obtain ⟨w, hrun, hcall, hlog⟩ :
      ∃ w,
        runEvents (step textCasl {}) (initialWorld noRows) invalidateDuringLoad = some w ∧
          w.calls 1 = .returned aliceInAcme 4 1 [] ∧
            w.invalidations = [(2, .user "alice" (some "acme"))] :=
    ⟨_, rfl, rfl, rfl⟩
  have hmem : (2, Invalidation.user "alice" (some "acme")) ∈ w.invalidations := by
    rw [hlog]
    exact List.mem_singleton_self _
  have hread :=
    hfresh w (reaches_of_runEvents hrun) 1 aliceInAcme 4 1 [] hcall 2 _ hmem ⟨rfl, rfl⟩ (by decide)
  omega

end PermissionService
end NestBase
