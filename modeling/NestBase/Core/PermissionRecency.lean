import NestBase.Core.PermissionService
import NestBase.Lib.RecencyMap

/-!
# The order in which the cache of abilities evicts

The cache holds at most `maxEntries` abilities.  When one more is stored, the
first entry of the map leaves.  A hit deletes its entry and sets it again, which
makes it the last one.  A loaded ability is set without a deletion, so under a
key that is still cached, such as an expired one, it keeps the old place.

`Watched` is a run with the number of the event at which each key was last used:
a call uses its key when it returns the ability, at once on a hit and after its
load otherwise.  As long as no ability is stored under a key that is cached
behind another one (`StoresNewest`), the entries stand in the order of their last
use, and what leaves is what was used least recently.
-/

namespace NestBase
namespace PermissionService

open Lib
open Permissions
open ApiKeyScopes

structure Watched where
  world : World
  /-- The number of the event at which a key was last used. -/
  lastUse : String → Nat

section Watch

variable {Item : Type}
variable (casl : Casl Item)
variable (options : PermissionServiceOptions)

/-- The key whose ability is returned at an event. -/
def used (w : World) : Event → Option String
  | .start _ input now =>
      (OrderedMap.get (cacheKey input.userId input.tenantId) w.cache).bind fun cached =>
        if cached.expiresAt > now then some (cacheKey input.userId input.tenantId) else none
  | .resume c nowIso _ =>
      match w.calls c with
      | .loaded input _ _ rows =>
          match resolveDbRules
              { userId := input.userId, now := nowIso, tenantId := some input.tenantId } rows with
          | .error _ => none
          | .ok _ => some (cacheKey input.userId input.tenantId)
      | _ => none
  | _ => none

/-- Number the use of a key. -/
def noteUse (lastUse : String → Nat) (now : Nat) : Option String → String → Nat
  | some key => Function.update lastUse key now
  | none => lastUse

def watch (s : Watched) (e : Event) : Option Watched :=
  (step casl options s.world e).map fun w =>
    { world := w, lastUse := noteUse s.lastUse s.world.clock (used s.world e) }

end Watch

def startWatch (storage : String → String → List DbPermissionRow) : Watched where
  world := initialWorld storage
  lastUse := fun _ => 0

abbrev cachedKeys (s : Watched) : List String :=
  s.world.cache.map Prod.fst

/-- Every entry that leaves without being invalidated was used before every entry that stays. -/
def EvictsOldest (s : Watched) (e : Event) (s' : Watched) : Prop :=
  isInvalidation e = false →
    ∀ gone ∈ cachedKeys s, gone ∉ cachedKeys s' →
      ∀ kept ∈ cachedKeys s', s'.lastUse gone < s'.lastUse kept

/-- A loaded ability is stored under a key that is not cached, or is the newest in the cache. -/
def StoresNewest (s : Watched) : Event → Prop
  | .resume c nowIso now =>
      ∀ key, used s.world (.resume c nowIso now) = some key →
        key ∉ cachedKeys s ∨ (cachedKeys s).getLast? = some key
  | _ => True

/-! ## What an event does to the cache -/

/-- The cache after an event. -/
inductive CacheChange (options : PermissionServiceOptions) (w : World) (e : Event) (cache : Cache) :
    Prop where
  | hit
      (key : String) (entry : CacheEntry)
      (huse : used w e = some key)
      (hget : OrderedMap.get key w.cache = some entry)
      (hcache : cache = OrderedMap.renew key entry w.cache)
  | stored
      (c : Nat) (nowIso : String) (now : Int) (key : String) (entry : CacheEntry)
      (hevent : e = .resume c nowIso now)
      (huse : used w e = some key)
      (hcache : cache = evictIfNeeded options.maxEntries (OrderedMap.set key entry w.cache))
  | kept
      (huse : used w e = none)
      (hcache : cache = w.cache)
  | invalidated
      (huse : used w e = none)
      (hevent : isInvalidation e = true)
      (hcache : cache.Sublist w.cache)

section Runs

variable {Item : Type}
variable {casl : Casl Item}
variable {options : PermissionServiceOptions}

theorem invalidate_sublist (userId : String) (tenantId : Option String) (cache : Cache) :
    (invalidate userId tenantId cache).Sublist cache := by
  cases tenantId with
  | none => exact List.filter_sublist
  | some tenantId => exact List.filter_sublist

theorem cacheChange_of_step {w w' : World} {e : Event} (hstep : step casl options w e = some w') :
    CacheChange options w e w'.cache ∧ w'.clock = w.clock + 1 := by
  obtain ⟨t, hact, rfl⟩ := Option.map_eq_some_iff.mp hstep
  cases e with
  | start c input now =>
      simp only [act] at hact
      split at hact
      · obtain rfl := Option.some.inj hact
        cases hget : OrderedMap.get (cacheKey input.userId input.tenantId) w.cache with
        | none =>
            refine ⟨.kept (by simp [used, hget]) ?_, ?_⟩
            · simp [startCall, hget, World.tick, World.setCall]
            · simp [startCall, hget, World.tick, World.setCall]
        | some cached =>
            by_cases hlive : cached.expiresAt > now
            · refine ⟨.hit _ cached (by simp [used, hget, hlive]) hget ?_, ?_⟩
              · simp [startCall, hget, hlive, World.tick, OrderedMap.set_delete]
              · simp [startCall, hget, hlive, World.tick]
            · refine ⟨.kept (by simp [used, hget, hlive]) ?_, ?_⟩
              · simp [startCall, hget, hlive, World.tick, World.setCall]
              · simp [startCall, hget, hlive, World.tick, World.setCall]
      · cases hact
  | read c =>
      simp only [act] at hact
      split at hact
      · obtain rfl := Option.some.inj hact
        exact ⟨.kept rfl rfl, rfl⟩
      · cases hact
  | readFails c message =>
      simp only [act] at hact
      split at hact
      · obtain rfl := Option.some.inj hact
        exact ⟨.kept rfl rfl, rfl⟩
      · cases hact
  | resume c nowIso now =>
      simp only [act] at hact
      split at hact
      · next input startedAt readAt rows hcall =>
        obtain rfl := Option.some.inj hact
        unfold resumeCall
        cases hrules : resolveDbRules
            { userId := input.userId, now := nowIso, tenantId := some input.tenantId } rows with
        | error message => exact ⟨.kept (by simp [used, hcall, hrules]) rfl, rfl⟩
        | ok rules =>
            exact ⟨.stored c nowIso now _ _ rfl (by simp [used, hcall, hrules]) rfl, rfl⟩
      · cases hact
  | mutate storage =>
      obtain rfl := Option.some.inj hact
      exact ⟨.kept rfl rfl, rfl⟩
  | invalidate userId tenantId =>
      obtain rfl := Option.some.inj hact
      exact ⟨.invalidated rfl rfl (invalidate_sublist userId tenantId w.cache), rfl⟩
  | invalidateAll =>
      obtain rfl := Option.some.inj hact
      exact ⟨.invalidated rfl rfl (List.nil_sublist w.cache), rfl⟩

/-! ## Eviction -/

/-- What is left are the last entries. -/
theorem evictIfNeeded_suffix (maxEntries : Int) (cache : Cache) :
    evictIfNeeded maxEntries cache <:+ cache := by
  induction cache with
  | nil => exact List.suffix_rfl
  | cons oldest rest ih =>
      rw [evictIfNeeded]
      split
      · exact ih.trans (List.suffix_cons oldest rest)
      · exact List.suffix_rfl

theorem length_evictIfNeeded {maxEntries : Int} (hmax : 0 ≤ maxEntries) (cache : Cache) :
    ((evictIfNeeded maxEntries cache).length : Int) ≤ maxEntries := by
  induction cache with
  | nil => exact hmax
  | cons oldest rest ih =>
      rw [evictIfNeeded]
      split
      · exact ih
      · next hfits =>
        rw [List.length_cons]
        push_cast
        omega

/-- What is evicted from a cache in the order of last use was used before what is left. -/
theorem lt_of_evicted
    {lastUse : String → Nat} {maxEntries : Int} {cache : Cache} {gone kept : String}
    (hsorted : OrderedMap.ByRecency lastUse cache)
    (hgone : gone ∈ cache.map Prod.fst)
    (hout : gone ∉ (evictIfNeeded maxEntries cache).map Prod.fst)
    (hkept : kept ∈ (evictIfNeeded maxEntries cache).map Prod.fst) :
    lastUse gone < lastUse kept := by
  obtain ⟨evicted, hevicted⟩ := evictIfNeeded_suffix maxEntries cache
  obtain ⟨old, hold, rfl⟩ := List.mem_map.mp hgone
  obtain ⟨stays, hstays, rfl⟩ := List.mem_map.mp hkept
  rw [← hevicted] at hsorted hold
  rcases List.mem_append.mp hold with hleaves | hremains
  · exact (List.pairwise_append.mp hsorted).2.2 old hleaves stays hstays
  · exact absurd (List.mem_map_of_mem hremains) hout

/-! ## The invariant -/

/-- The cache is within its bound, and in the order of last use. -/
structure InOrder (options : PermissionServiceOptions) (s : Watched) : Prop where
  distinct : (cachedKeys s).Nodup
  sorted : OrderedMap.ByRecency s.lastUse s.world.cache
  past : ∀ entry ∈ s.world.cache, s.lastUse entry.1 < s.world.clock
  bounded : (s.world.cache.length : Int) ≤ options.maxEntries

theorem inOrder_startWatch
    (hmax : 1 ≤ options.maxEntries)
    (storage : String → String → List DbPermissionRow) :
    InOrder options (startWatch storage) where
  distinct := List.nodup_nil
  sorted := List.Pairwise.nil
  past := by
    intro entry hentry
    cases hentry
  bounded := by
    change ((0 : Nat) : Int) ≤ options.maxEntries
    omega

/-- Renewing a key at an event gives it the newest stamp. -/
theorem InOrder.renewed {s : Watched} (h : InOrder options s) (key : String) (entry : CacheEntry) :
    OrderedMap.ByRecency (Function.update s.lastUse key s.world.clock)
      (OrderedMap.renew key entry s.world.cache) :=
  h.sorted.renew h.past entry

theorem InOrder.past_renewed
    {s : Watched} {key : String} {entry : CacheEntry}
    (h : InOrder options s)
    {other : String × CacheEntry}
    (hmem : other ∈ OrderedMap.renew key entry s.world.cache) :
    Function.update s.lastUse key s.world.clock other.1 < s.world.clock + 1 := by
  rcases List.mem_append.mp hmem with hold | hnew
  · obtain ⟨hentry, hne⟩ := OrderedMap.mem_delete_iff.mp hold
    rw [Function.update_of_ne hne]
    exact Nat.lt_succ_of_lt (h.past other hentry)
  · rw [List.mem_singleton.mp hnew, Function.update_self]
    exact Nat.lt_succ_self _

theorem inOrder_watch
    {s s' : Watched} {e : Event}
    (hmax : 1 ≤ options.maxEntries)
    (h : InOrder options s)
    (hguard : StoresNewest s e)
    (hstep : watch casl options s e = some s') :
    InOrder options s' ∧ EvictsOldest s e s' := by
  obtain ⟨w, hw, rfl⟩ := Option.map_eq_some_iff.mp hstep
  obtain ⟨hchange, hclock⟩ := cacheChange_of_step hw
  cases hchange with
  | hit key entry huse hget hcache =>
      have hmem : key ∈ cachedKeys s := by
        by_contra hfree
        rw [OrderedMap.get_eq_none_iff.mpr hfree] at hget
        cases hget
      refine ⟨⟨?_, ?_, ?_, ?_⟩, ?_⟩
      · change (w.cache.map Prod.fst).Nodup
        rw [hcache]
        exact OrderedMap.keys_renew_nodup h.distinct key entry
      · rw [huse]
        exact hcache ▸ h.renewed key entry
      · intro other hother
        change other ∈ w.cache at hother
        rw [hcache] at hother
        change noteUse _ _ (used s.world e) other.1 < w.clock
        rw [huse, hclock]
        exact h.past_renewed hother
      · have hlength := OrderedMap.length_renew_of_mem hmem entry
        have hbounded := h.bounded
        change (w.cache.length : Int) ≤ options.maxEntries
        rw [hcache]
        omega
      · intro _ gone hgone hout
        change gone ∉ w.cache.map Prod.fst at hout
        rw [hcache] at hout
        exact absurd (OrderedMap.mem_keys_renew_of_mem hgone entry) hout
  | stored c nowIso now key entry hevent huse hcache =>
      subst hevent
      have hset : OrderedMap.set key entry s.world.cache =
          OrderedMap.renew key entry s.world.cache :=
        OrderedMap.set_eq_renew h.distinct (hguard key huse) entry
      rw [hset] at hcache
      have hsuffix := (evictIfNeeded_suffix options.maxEntries
        (OrderedMap.renew key entry s.world.cache)).sublist
      refine ⟨⟨?_, ?_, ?_, ?_⟩, ?_⟩
      · change (w.cache.map Prod.fst).Nodup
        rw [hcache]
        exact (OrderedMap.keys_renew_nodup h.distinct key entry).sublist (hsuffix.map Prod.fst)
      · rw [huse]
        exact hcache ▸ (h.renewed key entry).sublist hsuffix
      · intro other hother
        change other ∈ w.cache at hother
        rw [hcache] at hother
        change noteUse _ _ (used s.world _) other.1 < w.clock
        rw [huse, hclock]
        exact h.past_renewed (hsuffix.subset hother)
      · change (w.cache.length : Int) ≤ options.maxEntries
        rw [hcache]
        exact length_evictIfNeeded (by omega) _
      · intro _ gone hgone hout kept hkept
        change gone ∉ w.cache.map Prod.fst at hout
        change kept ∈ w.cache.map Prod.fst at hkept
        change noteUse _ _ (used s.world _) gone < noteUse _ _ (used s.world _) kept
        rw [hcache] at hout hkept
        rw [huse]
        exact lt_of_evicted (h.renewed key entry)
          (OrderedMap.mem_keys_renew_of_mem hgone entry) hout hkept
  | kept huse hcache =>
      refine ⟨⟨?_, ?_, ?_, ?_⟩, ?_⟩
      · change (w.cache.map Prod.fst).Nodup
        rw [hcache]
        exact h.distinct
      · rw [huse]
        exact hcache ▸ h.sorted
      · intro other hother
        change noteUse _ _ (used s.world e) other.1 < w.clock
        rw [huse, hclock]
        exact Nat.lt_succ_of_lt (h.past other (hcache ▸ hother))
      · exact hcache ▸ h.bounded
      · intro _ gone hgone hout
        change gone ∉ w.cache.map Prod.fst at hout
        rw [hcache] at hout
        exact absurd hgone hout
  | invalidated huse hevent hcache =>
      refine ⟨⟨?_, ?_, ?_, ?_⟩, ?_⟩
      · exact h.distinct.sublist (hcache.map Prod.fst)
      · rw [huse]
        exact h.sorted.sublist hcache
      · intro other hother
        change noteUse _ _ (used s.world e) other.1 < w.clock
        rw [huse, hclock]
        exact Nat.lt_succ_of_lt (h.past other (hcache.subset hother))
      · have hlength := hcache.length_le
        have hbounded := h.bounded
        change (w.cache.length : Int) ≤ options.maxEntries
        omega
      · intro hother
        rw [hevent] at hother
        cases hother

end Runs

/--
In every run in which no loaded ability is stored under a key that is cached
behind another one, the cache stays within its bound, and every entry that is
evicted was used before every entry that stays.
-/
theorem evictsOldest_of_storesNewest
    {Item : Type}
    (casl : Casl Item)
    (options : PermissionServiceOptions)
    (storage : String → String → List DbPermissionRow)
    (s : Watched)
    (hmax : 1 ≤ options.maxEntries)
    (hrun : Reaches (watch casl options) StoresNewest (startWatch storage) s) :
    (s.world.cache.length : Int) ≤ options.maxEntries ∧
      ∀ e s', StoresNewest s e → watch casl options s e = some s' → EvictsOldest s e s' := by
  have hinOrder : InOrder options s :=
    hrun.invariant (inOrder_startWatch hmax storage)
      fun _ _ _ h hguard hstep => (inOrder_watch hmax h hguard hstep).1
  exact ⟨hinOrder.bounded, fun e s' hguard hstep => (inOrder_watch hmax hinOrder hguard hstep).2⟩

/-! ## A cache of one and a cache of two -/

/-- `StoresNewest` as a test. -/
def storesNewest (s : Watched) : Event → Bool
  | .resume c nowIso now =>
      (used s.world (.resume c nowIso now)).all fun key =>
        decide (key ∉ cachedKeys s) || decide ((cachedKeys s).getLast? = some key)
  | _ => true

theorem storesNewest_of_test (s : Watched) (e : Event) (h : storesNewest s e = true) :
    StoresNewest s e := by
  cases e with
  | resume c nowIso now =>
      intro key huse
      simp only [storesNewest, huse, Option.all_some, Bool.or_eq_true, decide_eq_true_eq] at h
      exact h
  | _ => trivial

/-- A call for a user of one tenant. -/
def inAcme (userId : String) : AbilityForInput where
  userId := userId
  tenantId := "acme"
  scopes := none

/-- A call up to the return of `findRulesForUser`, and its end. -/
def readRows (c : Nat) (userId : String) (now : Int) : List Event :=
  [.start c (inAcme userId) now, .read c]

def load (c : Nat) (userId : String) (now : Int) : List Event :=
  readRows c userId now ++ [.resume c "" now]

/-- In a cache of one the second load evicts the first. -/
theorem evictsOldest_cache_of_one :
    ∃ s s',
      (Reaches (watch textCasl { maxEntries := 1 }) StoresNewest (startWatch noRows) s ∧
        watch textCasl { maxEntries := 1 } s (.resume 1 "" 1) = some s' ∧
          cachedKeys s = ["alice|acme"] ∧ cachedKeys s' = ["bob|acme"]) ∧
        (s.world.cache.length : Int) ≤ 1 ∧ EvictsOldest s (.resume 1 "" 1) s' := by
  obtain ⟨s, s', hrun, htest, hstep, hbefore, hafter⟩ :
      ∃ s s',
        runEvents (checked storesNewest (watch textCasl { maxEntries := 1 })) (startWatch noRows)
            (load 0 "alice" 0 ++ readRows 1 "bob" 1) = some s ∧
          storesNewest s (.resume 1 "" 1) = true ∧
            watch textCasl { maxEntries := 1 } s (.resume 1 "" 1) = some s' ∧
              cachedKeys s = ["alice|acme"] ∧ cachedKeys s' = ["bob|acme"] :=
    ⟨_, _, rfl, by rfl, rfl, by rfl, by rfl⟩
  have hreaches : Reaches (watch textCasl { maxEntries := 1 }) StoresNewest (startWatch noRows) s :=
    reaches_of_runEvents_checked storesNewest_of_test hrun
  have hlaw := evictsOldest_of_storesNewest textCasl { maxEntries := 1 } noRows s (by decide) hreaches
  exact ⟨s, s', ⟨hreaches, hstep, hbefore, hafter⟩, hlaw.1,
    hlaw.2 _ s' (storesNewest_of_test s _ htest) hstep⟩

/-- The ability of alice expires and is loaded again, and then a third one is loaded. -/
def reloadExpired : List Event :=
  load 0 "alice" 0 ++ load 1 "bob" 1 ++ load 2 "alice" 60000 ++ readRows 3 "carol" 60001

/-- The third load evicts the ability just reloaded, although the other was used before it. -/
theorem not_evictsOldest_reload :
    ¬ ∀ s e s',
      Reaches (watch textCasl { maxEntries := 2 }) anyEvent (startWatch noRows) s →
        watch textCasl { maxEntries := 2 } s e = some s' → EvictsOldest s e s' := by
  intro hlaw
  obtain ⟨s, s', hrun, hstep, hgone, hout, hkept, hlater⟩ :
      ∃ s s',
        runEvents (watch textCasl { maxEntries := 2 }) (startWatch noRows) reloadExpired = some s ∧
          watch textCasl { maxEntries := 2 } s (.resume 3 "" 60001) = some s' ∧
            "alice|acme" ∈ cachedKeys s ∧ "alice|acme" ∉ cachedKeys s' ∧
              "bob|acme" ∈ cachedKeys s' ∧ s'.lastUse "bob|acme" < s'.lastUse "alice|acme" :=
    ⟨_, _, rfl, rfl, by decide, by decide, by decide, by decide⟩
  have hearlier := hlaw s _ s' (reaches_of_runEvents hrun) hstep rfl _ hgone hout _ hkept
  omega

end PermissionService
end NestBase
