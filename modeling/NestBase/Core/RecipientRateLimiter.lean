import NestBase.Lib.RecencyMap
import NestBase.Lib.SlidingWindow
import NestBase.Lib.Text

/-!
# The limiter of emails per recipient

`RecipientRateLimiter` keeps for every normalised address the times of the
messages it allowed, in a map of at most `maxEntries` addresses.  `consume`
drops the times that have left the window, and allows a message when fewer than
`limit` are left.

The lists of the map are pruned, so they are not the history of the decisions.
`Counted` says what they are after a run of calls: as long as no address is
evicted, the times that a list and the history have in a window that ends now or
later are the same.  The decision of `consume` is then a statement about the
history alone.

Clock values are rational numbers.
-/

namespace NestBase
namespace RecipientRateLimiter

open Lib
open Lib.SlidingWindow (fresh inWindow mem_fresh_iff)

/-! ## The limiter -/

structure RecipientRecord where
  timestamps : List ℚ

structure RecipientRateLimiterConfig where
  limit : ℚ
  windowMs : ℚ
  maxEntries : Option ℚ

def DEFAULT_MAX_ENTRIES : ℚ := 10000

def RecipientRateLimiterConfig.capacity (config : RecipientRateLimiterConfig) : ℚ :=
  config.maxEntries.getD DEFAULT_MAX_ENTRIES

/-- The entries of the bounded map, the one used least recently first. -/
abbrev LruMap (κ V : Type) : Type := List (κ × V)

namespace LruMap

variable {κ V : Type}
variable [DecidableEq κ]

def get (key : κ) (map : LruMap κ V) : Option V × LruMap κ V :=
  match OrderedMap.get key map with
  | none => (none, map)
  | some value => (some value, OrderedMap.set key value (OrderedMap.delete key map))

def set (maxEntries : ℚ) (key : κ) (value : V) (map : LruMap κ V) : LruMap κ V :=
  if (OrderedMap.get key map).isSome then
    OrderedMap.set key value (OrderedMap.delete key map)
  else if (map.length : ℚ) ≥ maxEntries then
    match map with
    | [] => OrderedMap.set key value map
    | oldest :: _ => OrderedMap.set key value (OrderedMap.delete oldest.1 map)
  else OrderedMap.set key value map

end LruMap

structure RecipientRateLimitDecision where
  allowed : Bool
  count : Nat
  /-- When the next slot frees up, 0 when allowed. -/
  retryAt : ℚ
  deriving DecidableEq

abbrev Records : Type := LruMap String RecipientRecord

section Limiter

variable (toLowerCase : String → String)
variable (config : RecipientRateLimiterConfig)

def normalize (email : String) : String :=
  toLowerCase (Text.trim email)

/-- `existing?.timestamps ?? []` -/
def timestamps (existing : Option RecipientRecord) : List ℚ :=
  (existing.map RecipientRecord.timestamps).getD []

def consume (email : String) (now : ℚ) (records : Records) :
    RecipientRateLimitDecision × Records :=
  if config.limit ≤ 0 then
    ({ allowed := true, count := 0, retryAt := 0 }, records)
  else
    let key := normalize toLowerCase email
    let (existing, records) := LruMap.get key records
    let kept := fresh config.windowMs now (timestamps existing)
    if (kept.length : ℚ) ≥ config.limit then
      let oldest := kept.headD now
      ({ allowed := false, count := kept.length, retryAt := oldest + config.windowMs },
        LruMap.set config.capacity key { timestamps := kept } records)
    else
      let kept := kept ++ [now]
      ({ allowed := true, count := kept.length, retryAt := 0 },
        LruMap.set config.capacity key { timestamps := kept } records)

def status (email : String) (now : ℚ) (records : Records) : (Nat × Bool) × Records :=
  if config.limit ≤ 0 then ((0, true), records)
  else
    let (existing, records) := LruMap.get (normalize toLowerCase email) records
    let kept := fresh config.windowMs now (timestamps existing)
    ((kept.length, decide ((kept.length : ℚ) < config.limit)), records)

/-! ## Runs of calls -/

inductive Call where
  | consume (email : String)
  | status (email : String)

def Call.email : Call → String
  | consume email => email
  | status email => email

/-- A call and the time its clock shows. -/
structure TimedCall where
  call : Call
  now : ℚ

def TimedCall.address (timed : TimedCall) : String :=
  normalize toLowerCase timed.call.email

/-- The map of the limiter, and the messages allowed so far with their addresses and times. -/
structure World where
  records : Records
  allowed : List (String × ℚ)

def World.initial : World where
  records := []
  allowed := []

def step (w : World) (timed : TimedCall) : World :=
  match timed.call with
  | .consume email =>
      let (decision, records) := consume toLowerCase config email timed.now w.records
      { records := records
        allowed :=
          if decision.allowed then w.allowed ++ [(normalize toLowerCase email, timed.now)]
          else w.allowed }
  | .status email =>
      { w with records := (status toLowerCase config email timed.now w.records).2 }

/-- The limiter after a run of calls. -/
def play (calls : List TimedCall) : World :=
  calls.foldl (step toLowerCase config) World.initial

end Limiter

/-- The times at which messages to an address were allowed. -/
def allowedTimes (address : String) (allowed : List (String × ℚ)) : List ℚ :=
  (allowed.filter fun entry => entry.1 = address).map Prod.snd

theorem allowedTimes_append (address : String) (xs ys : List (String × ℚ)) :
    allowedTimes address (xs ++ ys) = allowedTimes address xs ++ allowedTimes address ys := by
  simp [allowedTimes]

/-- The times the map has under an address. -/
def recorded (address : String) (records : Records) : List ℚ :=
  timestamps (OrderedMap.get address records)

/-! ## The bounded map while it has room -/

section Room

variable {κ V : Type}
variable [DecidableEq κ]

theorem LruMap.fst_get (key : κ) (map : LruMap κ V) :
    (LruMap.get key map).1 = OrderedMap.get key map := by
  unfold LruMap.get
  cases OrderedMap.get key map <;> rfl

/-- Reading an entry changes what the map holds under no key. -/
theorem LruMap.get_snd_get (key other : κ) (map : LruMap κ V) :
    OrderedMap.get other (LruMap.get key map).2 = OrderedMap.get other map := by
  unfold LruMap.get
  cases hfound : OrderedMap.get key map with
  | none => rfl
  | some value =>
      dsimp only
      rw [OrderedMap.set_delete, OrderedMap.get_renew]
      split
      · next h => rw [← h, hfound]
      · rfl

theorem LruMap.nodup_snd_get {map : LruMap κ V} (hdistinct : (map.map Prod.fst).Nodup) (key : κ) :
    ((LruMap.get key map).2.map Prod.fst).Nodup := by
  unfold LruMap.get
  cases OrderedMap.get key map with
  | none => exact hdistinct
  | some value =>
      dsimp only
      rw [OrderedMap.set_delete]
      exact OrderedMap.keys_renew_nodup hdistinct key value

/-- The map has the key, or a place for one more. -/
def LruMap.HasRoom (maxEntries : ℚ) (key : κ) (map : LruMap κ V) : Prop :=
  key ∈ map.map Prod.fst ∨ (map.length : ℚ) < maxEntries

/-- A map with room evicts nothing. -/
theorem LruMap.set_of_hasRoom
    {maxEntries : ℚ} {key : κ} {map : LruMap κ V}
    (hroom : LruMap.HasRoom maxEntries key map)
    (value : V) :
    LruMap.set maxEntries key value map = OrderedMap.renew key value map := by
  unfold LruMap.set
  split
  · exact OrderedMap.set_delete key value map
  · next hnone =>
    have hfree : OrderedMap.get key map = none := by simpa using hnone
    rw [if_neg, OrderedMap.renew, OrderedMap.delete_eq_self hfree,
      OrderedMap.set_of_get_eq_none hfree]
    rcases hroom with hmem | hlt
    · exact absurd hmem (OrderedMap.get_eq_none_iff.mp hfree)
    · exact not_le.mpr hlt

/-- A map whose keys are among few names has room for each of them. -/
theorem LruMap.hasRoom_of_subset
    {maxEntries : ℚ} {key : κ} {map : LruMap κ V} {names : Finset κ}
    (hdistinct : (map.map Prod.fst).Nodup)
    (hsub : ∀ other ∈ map.map Prod.fst, other ∈ names)
    (hkey : key ∈ names)
    (hfew : (names.card : ℚ) ≤ maxEntries) :
    LruMap.HasRoom maxEntries key map := by
  by_cases hmem : key ∈ map.map Prod.fst
  · exact Or.inl hmem
  · refine Or.inr ?_
    have hcard : (key :: map.map Prod.fst).toFinset.card = map.length + 1 := by
      rw [List.toFinset_card_of_nodup (List.nodup_cons.mpr ⟨hmem, hdistinct⟩)]
      simp
    have hle : (key :: map.map Prod.fst).toFinset.card ≤ names.card := by
      refine Finset.card_le_card ?_
      intro other hother
      rcases List.mem_cons.mp (List.mem_toFinset.mp hother) with rfl | hrest
      · exact hkey
      · exact hsub other hrest
    have hlt : map.length < names.card := by omega
    have hltq : (map.length : ℚ) < (names.card : ℚ) := by exact_mod_cast hlt
    exact lt_of_lt_of_le hltq hfew

end Room

/-! ## One call -/

section Call

variable {toLowerCase : String → String}
variable {config : RecipientRateLimiterConfig}

/-- What a call leaves of the times it kept. -/
def stored (config : RecipientRateLimiterConfig) (now : ℚ) (kept : List ℚ) : List ℚ :=
  if (kept.length : ℚ) ≥ config.limit then kept else kept ++ [now]

theorem consume_fst_allowed
    (hlimit : 0 < config.limit)
    (email : String) (now : ℚ) (records : Records) :
    (consume toLowerCase config email now records).1.allowed = true ↔
      ((fresh config.windowMs now (recorded (normalize toLowerCase email) records)).length : ℚ) <
        config.limit := by
  unfold consume recorded
  rw [if_neg (not_le.mpr hlimit)]
  dsimp only
  rw [LruMap.fst_get]
  split
  · next hfull => simpa using hfull
  · next hfree => simpa using hfree

variable {records : Records}

theorem consume_fst_retryAt
    (hlimit : 0 < config.limit)
    {email : String} {now : ℚ}
    (hdenied : (consume toLowerCase config email now records).1.allowed = false) :
    (consume toLowerCase config email now records).1.retryAt =
      (fresh config.windowMs now (recorded (normalize toLowerCase email) records)).headD now +
        config.windowMs := by
  unfold consume recorded at *
  rw [if_neg (not_le.mpr hlimit)] at hdenied ⊢
  dsimp only at hdenied ⊢
  rw [LruMap.fst_get] at hdenied ⊢
  split at hdenied
  · next hfull => rw [if_pos hfull]
  · cases hdenied

theorem consume_snd (hlimit : 0 < config.limit) (email : String) (now : ℚ) (records : Records) :
    (consume toLowerCase config email now records).2 =
      LruMap.set config.capacity (normalize toLowerCase email)
        { timestamps :=
            stored config now
              (fresh config.windowMs now (recorded (normalize toLowerCase email) records)) }
        (LruMap.get (normalize toLowerCase email) records).2 := by
  unfold consume recorded stored
  rw [if_neg (not_le.mpr hlimit)]
  dsimp only
  rw [LruMap.fst_get]
  split <;> rfl

theorem status_snd (hlimit : 0 < config.limit) (email : String) (now : ℚ) (records : Records) :
    (status toLowerCase config email now records).2 =
      (LruMap.get (normalize toLowerCase email) records).2 := by
  unfold status
  rw [if_neg (not_le.mpr hlimit)]

theorem recorded_renew (address other : String) (times : List ℚ) (records : Records) :
    recorded other (OrderedMap.renew address { timestamps := times } records) =
      if address = other then times else recorded other records := by
  unfold recorded
  rw [OrderedMap.get_renew]
  split <;> rfl

theorem recorded_snd_get (address other : String) (records : Records) :
    recorded other (LruMap.get address records).2 = recorded other records := by
  unfold recorded
  rw [LruMap.get_snd_get]

theorem mem_keys_iff_get {address : String} :
    address ∈ records.map Prod.fst ↔ OrderedMap.get address records ≠ none := by
  rw [Ne, OrderedMap.get_eq_none_iff, not_not]

theorem mem_keys_snd_get {address other : String} :
    other ∈ (LruMap.get address records).2.map Prod.fst ↔ other ∈ records.map Prod.fst := by
  rw [mem_keys_iff_get, mem_keys_iff_get, LruMap.get_snd_get]

end Call

/-! ## What the map holds after a run -/

/-- No call was made later than `t`. -/
def Until (calls : List TimedCall) (t : ℚ) : Prop :=
  ∀ timed ∈ calls, timed.now ≤ t

structure Counted
    (toLowerCase : String → String)
    (config : RecipientRateLimiterConfig)
    (calls : List TimedCall)
    (w : World) : Prop where
  distinct : (w.records.map Prod.fst).Nodup
  known :
    ∀ address ∈ w.records.map Prod.fst, address ∈ calls.map (TimedCall.address toLowerCase)
  past : ∀ t, Until calls t → ∀ entry ∈ w.allowed, entry.2 ≤ t
  recordedPast : ∀ t, Until calls t → ∀ address, ∀ s ∈ recorded address w.records, s ≤ t
  sorted : ∀ address, (recorded address w.records).Pairwise (· ≤ ·)
  few : ∀ address, ((recorded address w.records).length : ℚ) < config.limit + 1
  agrees :
    ∀ t, Until calls t → ∀ address,
      fresh config.windowMs t (recorded address w.records) =
        fresh config.windowMs t (allowedTimes address w.allowed)

section Runs

variable {toLowerCase : String → String}
variable {config : RecipientRateLimiterConfig}

theorem counted_initial (hlimit : 0 < config.limit) :
    Counted toLowerCase config [] World.initial where
  distinct := List.nodup_nil
  known := by
    intro address hmem
    cases hmem
  past := by
    intro t _ entry hmem
    cases hmem
  recordedPast := by
    intro t _ address s hmem
    cases hmem
  sorted := fun _ => List.Pairwise.nil
  few := by
    intro address
    change ((0 : Nat) : ℚ) < config.limit + 1
    push_cast
    linarith
  agrees := fun _ _ _ => rfl

theorem Until.init
    {calls : List TimedCall} {timed : TimedCall} {t : ℚ}
    (h : Until (calls ++ [timed]) t) :
    Until calls t ∧ timed.now ≤ t :=
  ⟨fun other hother => h other (List.mem_append_left _ hother),
    h timed (List.mem_append_right _ (List.mem_singleton_self timed))⟩

variable {now : ℚ}

theorem stored_pairwise
    {kept : List ℚ}
    (hsorted : kept.Pairwise (· ≤ ·))
    (hpast : ∀ s ∈ kept, s ≤ now) :
    (stored config now kept).Pairwise (· ≤ ·) := by
  unfold stored
  split
  · exact hsorted
  · refine List.pairwise_append.mpr ⟨hsorted, List.pairwise_singleton _ _, ?_⟩
    intro s hs other hother
    rw [List.mem_singleton.mp hother]
    exact hpast s hs

theorem mem_stored {s : ℚ} {kept : List ℚ} (h : s ∈ stored config now kept) :
    s ∈ kept ∨ s = now := by
  unfold stored at h
  split at h
  · exact Or.inl h
  · simpa using h

theorem stored_length_lt {kept : List ℚ} (hfew : (kept.length : ℚ) < config.limit + 1) :
    ((stored config now kept).length : ℚ) < config.limit + 1 := by
  unfold stored
  split
  · exact hfew
  · next hfree =>
    rw [List.length_append, List.length_singleton]
    push_cast
    linarith [not_le.mp hfree]

variable {w : World}

/-- The map has room for the address of a call when the addresses so far are few. -/
theorem Counted.hasRoom
    {calls : List TimedCall} {address : String}
    (h : Counted toLowerCase config calls w)
    (hfew :
      ((calls.map (TimedCall.address toLowerCase) ++ [address]).toFinset.card : ℚ) ≤
        config.capacity) :
    LruMap.HasRoom config.capacity address (LruMap.get address w.records).2 := by
  refine LruMap.hasRoom_of_subset (LruMap.nodup_snd_get h.distinct address) ?_ ?_ hfew
  · intro other hother
    have hknown := h.known other (mem_keys_snd_get.mp hother)
    exact List.mem_toFinset.mpr (List.mem_append_left _ hknown)
  · exact List.mem_toFinset.mpr (List.mem_append_right _ (List.mem_singleton_self address))

theorem recorded_consume
    {email : String} {records : Records}
    (hlimit : 0 < config.limit)
    (now : ℚ)
    (hroom :
      LruMap.HasRoom config.capacity (normalize toLowerCase email)
        (LruMap.get (normalize toLowerCase email) records).2)
    (other : String) :
    recorded other (consume toLowerCase config email now records).2 =
      if normalize toLowerCase email = other then
        stored config now
          (fresh config.windowMs now (recorded (normalize toLowerCase email) records))
      else recorded other records := by
  rw [consume_snd hlimit, LruMap.set_of_hasRoom hroom, recorded_renew, recorded_snd_get]

/-- Reading the window changes nothing that is counted. -/
theorem counted_status
    {calls : List TimedCall} {email : String}
    (hlimit : 0 < config.limit)
    (h : Counted toLowerCase config calls w) :
    Counted toLowerCase config (calls ++ [⟨.status email, now⟩])
      (step toLowerCase config w ⟨.status email, now⟩) := by
  have hsame : ∀ address,
      recorded address (status toLowerCase config email now w.records).2 =
        recorded address w.records := by
    intro address
    rw [status_snd hlimit, recorded_snd_get]
  constructor
  case distinct =>
    change ((status toLowerCase config email now w.records).2.map Prod.fst).Nodup
    rw [status_snd hlimit]
    exact LruMap.nodup_snd_get h.distinct _
  case known =>
    intro address hmem
    change address ∈ (status toLowerCase config email now w.records).2.map Prod.fst at hmem
    rw [status_snd hlimit] at hmem
    rw [List.map_append]
    exact List.mem_append_left _ (h.known address (mem_keys_snd_get.mp hmem))
  case past => exact fun t ht => h.past t ht.init.1
  case recordedPast =>
    intro t ht address s hs
    exact h.recordedPast t ht.init.1 address s (hsame address ▸ hs)
  case sorted => exact fun address => (hsame address).symm ▸ h.sorted address
  case few => exact fun address => (hsame address).symm ▸ h.few address
  case agrees =>
    intro t ht address
    exact (congrArg _ (hsame address)).trans (h.agrees t ht.init.1 address)

/-- A call of `consume` writes the times it kept, and is logged when it is allowed. -/
theorem counted_consume
    {calls : List TimedCall} {email : String}
    (hlimit : 0 < config.limit)
    (h : Counted toLowerCase config calls w)
    (hclock : Until calls now)
    (hfew :
      ((calls.map (TimedCall.address toLowerCase) ++
        [normalize toLowerCase email]).toFinset.card : ℚ) ≤ config.capacity) :
    Counted toLowerCase config (calls ++ [⟨.consume email, now⟩])
      (step toLowerCase config w ⟨.consume email, now⟩) := by
  have hroom := h.hasRoom hfew
  have hrecorded := recorded_consume hlimit now hroom
  have hkept : ∀ s ∈ fresh config.windowMs now (recorded (normalize toLowerCase email) w.records),
      s ≤ now := by
    intro s hs
    exact h.recordedPast now hclock _ s (mem_fresh_iff.mp hs).1
  constructor
  case distinct =>
    change ((consume toLowerCase config email now w.records).2.map Prod.fst).Nodup
    rw [consume_snd hlimit, LruMap.set_of_hasRoom hroom]
    exact OrderedMap.keys_renew_nodup (LruMap.nodup_snd_get h.distinct _) _ _
  case known =>
    intro address hmem
    change address ∈ (consume toLowerCase config email now w.records).2.map Prod.fst at hmem
    rw [consume_snd hlimit, LruMap.set_of_hasRoom hroom] at hmem
    rw [List.map_append]
    rcases OrderedMap.mem_keys_renew hmem with rfl | hold
    · exact List.mem_append_right _ (List.mem_singleton_self _)
    · exact List.mem_append_left _ (h.known address (mem_keys_snd_get.mp hold))
  case past =>
    intro t ht entry hentry
    change entry ∈ ite _ _ _ at hentry
    split at hentry
    · rcases List.mem_append.mp hentry with hold | hnew
      · exact h.past t ht.init.1 entry hold
      · rw [List.mem_singleton.mp hnew]
        exact ht.init.2
    · exact h.past t ht.init.1 entry hentry
  case recordedPast =>
    intro t ht address s hs
    change s ∈ recorded address (consume toLowerCase config email now w.records).2 at hs
    rw [hrecorded] at hs
    split at hs
    · rcases mem_stored hs with hold | rfl
      · exact (hkept s hold).trans ht.init.2
      · exact ht.init.2
    · exact h.recordedPast t ht.init.1 address s hs
  case sorted =>
    intro address
    change (recorded address (consume toLowerCase config email now w.records).2).Pairwise (· ≤ ·)
    rw [hrecorded]
    split
    · exact stored_pairwise ((h.sorted _).sublist List.filter_sublist) hkept
    · exact h.sorted address
  case few =>
    intro address
    change ((recorded address (consume toLowerCase config email now w.records).2).length : ℚ) < _
    rw [hrecorded]
    split
    · refine stored_length_lt (lt_of_le_of_lt ?_ (h.few (normalize toLowerCase email)))
      exact_mod_cast (SlidingWindow.fresh_sublist _ _ _).length_le
    · exact h.few address
  case agrees =>
    intro t ht address
    change
      fresh config.windowMs t
          (recorded address (consume toLowerCase config email now w.records).2) =
        fresh config.windowMs t
          (allowedTimes address
            (if (consume toLowerCase config email now w.records).1.allowed = true then
              w.allowed ++ [(normalize toLowerCase email, now)]
            else w.allowed))
    have hpruned := SlidingWindow.fresh_fresh (w := config.windowMs) ht.init.2
    have hagrees := h.agrees t ht.init.1
    have hone : allowedTimes (normalize toLowerCase email)
        [(normalize toLowerCase email, now)] = [now] := by
      simp [allowedTimes]
    have hallowed := @consume_fst_allowed toLowerCase config hlimit email now w.records
    rw [hrecorded]
    by_cases haddress : normalize toLowerCase email = address
    · subst haddress
      rw [if_pos rfl]
      by_cases hfree : ((fresh config.windowMs now
          (recorded (normalize toLowerCase email) w.records)).length : ℚ) < config.limit
      · rw [if_pos (hallowed.mpr hfree), stored, if_neg (not_le.mpr hfree),
          SlidingWindow.fresh_append, hpruned, hagrees, allowedTimes_append,
          SlidingWindow.fresh_append, hone]
      · rw [if_neg (mt hallowed.mp hfree), stored, if_pos (not_lt.mp hfree), hpruned, hagrees]
    · have hnone : allowedTimes address [(normalize toLowerCase email, now)] = [] := by
        simp [allowedTimes, haddress]
      rw [if_neg haddress, hagrees]
      split
      · rw [allowedTimes_append, hnone, List.append_nil]
      · rfl

/-- After every run that needs no more addresses than the map has places, the map is exact. -/
theorem counted_play
    {calls : List TimedCall}
    (hlimit : 0 < config.limit)
    (hclock : (calls.map TimedCall.now).Pairwise (· ≤ ·))
    (hfew :
      ((calls.map (TimedCall.address toLowerCase)).toFinset.card : ℚ) ≤ config.capacity) :
    Counted toLowerCase config calls (play toLowerCase config calls) := by
  induction calls using List.reverseRecOn with
  | nil => exact counted_initial hlimit
  | append_singleton calls timed ih =>
      rw [List.map_append, List.map_singleton] at hclock hfew
      obtain ⟨hbefore, -, hlast⟩ := List.pairwise_append.mp hclock
      have hsub : (calls.map (TimedCall.address toLowerCase)).toFinset.card ≤
          (calls.map (TimedCall.address toLowerCase) ++
            [TimedCall.address toLowerCase timed]).toFinset.card := by
        rw [List.toFinset_append]
        exact Finset.card_le_card Finset.subset_union_left
      have hsubq : ((calls.map (TimedCall.address toLowerCase)).toFinset.card : ℚ) ≤
          ((calls.map (TimedCall.address toLowerCase) ++
            [TimedCall.address toLowerCase timed]).toFinset.card : ℚ) := by
        exact_mod_cast hsub
      have hcounted := ih hbefore (hsubq.trans hfew)
      have huntil : Until calls timed.now := by
        intro other hother
        exact hlast other.now (List.mem_map_of_mem hother) timed.now (List.mem_singleton_self _)
      rw [play, List.foldl_append]
      obtain ⟨call, now⟩ := timed
      cases call with
      | consume email => exact counted_consume hlimit hcounted huntil hfew
      | status email => exact counted_status hlimit hcounted

/-- The history and the map have the same times in the window that ends now. -/
theorem Counted.inWindow_allowedTimes
    {calls : List TimedCall}
    (h : Counted toLowerCase config calls w)
    (huntil : Until calls now)
    (address : String) :
    inWindow config.windowMs now (allowedTimes address w.allowed) =
      fresh config.windowMs now (recorded address w.records) := by
  rw [h.agrees now huntil]
  refine SlidingWindow.inWindow_eq_fresh ?_
  intro s hs
  obtain ⟨entry, hentry, rfl⟩ := List.mem_map.mp hs
  exact h.past now huntil entry (List.mem_filter.mp hentry).1

/-- After a denial the next message is allowed when the oldest time leaves the window. -/
theorem Counted.isLeast_retryAt
    {calls : List TimedCall} {email email' : String}
    (h : Counted toLowerCase config calls w)
    (hlimit : 0 < config.limit)
    (hfew :
      ((calls.map (TimedCall.address toLowerCase) ++
        [normalize toLowerCase email]).toFinset.card : ℚ) ≤ config.capacity)
    (hdenied : (consume toLowerCase config email now w.records).1.allowed = false)
    (hsame : normalize toLowerCase email' = normalize toLowerCase email) :
    IsLeast
      { t |
        now ≤ t ∧
          (consume toLowerCase config email' t
            (consume toLowerCase config email now w.records).2).1.allowed = true }
      (consume toLowerCase config email now w.records).1.retryAt := by
  have hrecorded := recorded_consume hlimit now (h.hasRoom hfew)
    (normalize toLowerCase email)
  rw [consume_fst_retryAt hlimit hdenied]
  have hfull : ¬ ((fresh config.windowMs now
      (recorded (normalize toLowerCase email) w.records)).length : ℚ) < config.limit := by
    rw [← consume_fst_allowed hlimit, hdenied]
    exact Bool.false_ne_true
  have hlength : ((fresh config.windowMs now
      (recorded (normalize toLowerCase email) w.records)).length : ℚ) < config.limit + 1 := by
    refine lt_of_le_of_lt ?_ (h.few (normalize toLowerCase email))
    exact_mod_cast (SlidingWindow.fresh_sublist _ _ _).length_le
  have hsorted := (h.sorted (normalize toLowerCase email)).sublist
    (SlidingWindow.fresh_sublist config.windowMs now _)
  rw [if_pos rfl, stored, if_pos (not_lt.mp hfull)] at hrecorded
  have hallowed : ∀ t,
      (consume toLowerCase config email' t
        (consume toLowerCase config email now w.records).2).1.allowed = true ↔
      ((fresh config.windowMs t (fresh config.windowMs now
        (recorded (normalize toLowerCase email) w.records))).length : ℚ) < config.limit := by
    intro t
    rw [consume_fst_allowed hlimit, hsame, hrecorded]
  cases hkept : fresh config.windowMs now (recorded (normalize toLowerCase email) w.records) with
  | nil =>
      rw [hkept, List.length_nil] at hfull
      exact absurd hlimit (by simpa using hfull)
  | cons oldest rest =>
      rw [hkept] at hfull hlength hsorted
      have hopens : ∀ t, _ ↔ oldest + config.windowMs ≤ t := fun t =>
        SlidingWindow.fresh_length_lt_iff hsorted (not_lt.mp hfull) hlength t
      have hinside : now - config.windowMs < oldest := by
        have hmem : oldest ∈ fresh config.windowMs now
            (recorded (normalize toLowerCase email) w.records) := by
          rw [hkept]
          exact List.mem_cons_self
        exact (mem_fresh_iff.mp hmem).2
      constructor
      · refine ⟨(sub_lt_iff_lt_add.mp hinside).le, ?_⟩
        rw [hallowed, hkept]
        exact (hopens _).mpr le_rfl
      · rintro t ⟨-, ht⟩
        rw [hallowed, hkept] at ht
        exact (hopens t).mp ht

end Runs

/-! ## The law of the sliding window -/

/-- One message a minute. -/
def onePerMinute : RecipientRateLimiterConfig where
  limit := 1
  windowMs := 60000
  maxEntries := some 100

/-- One message at the start. -/
def aliceOnce : List TimedCall :=
  [{ call := .consume " Alice@Example.COM ", now := 0 },
    { call := .status "alice@example.com", now := 10000 }]

/-- A second message, half a minute later. -/
def secondMessage : RecipientRateLimitDecision × Records :=
  consume Text.asciiLowerCase onePerMinute "ALICE@example.com" 30000
    (play Text.asciiLowerCase onePerMinute aliceOnce).records

end RecipientRateLimiter
end NestBase
