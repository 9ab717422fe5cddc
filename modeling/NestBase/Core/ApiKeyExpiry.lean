import NestBase.Core.Timestamps

/-!
# Mails about API keys that expire

A tick notifies about every key that expires soon, and the mail of a notification has
an idempotency key with a day bucket.  The bucket is not the day of the tick: it is the
expiry less the whole days until then, so it is the first instant from the tick on that
has the expiry's time of day (`dayOf_bucketTime`).  The bucket turns when that time of day
has passed, not at midnight, which gives the exact condition under which the keys of two
ticks follow their days (`key_eq_iff_sameDay_iff`).
-/

namespace NestBase
namespace ApiKeyExpiry

open Lib Timestamps
open Examples (toISOString)

/-! ## Notifications -/

structure ApiKeyExpiryRecord where
  id : String
  userId : String
  expiresAt : Option Date
  lastNotifiedAt : Option Date

structure ExpiryNotifierInput where
  keys : List ApiKeyExpiryRecord
  warnWithinMs : Int
  notifyCooldownMs : Int
  /-- What `Date.now()` gives. -/
  clock : Nat

structure ExpiryNotification where
  keyId : String
  userId : String
  expiresAt : Date
  daysUntilExpiry : Int

/-- The quotient is that of two doubles. -/
def daysUntilExpiry (expiresAt : Date) (now : Nat) : Int :=
  ⌊Number.nearest (expiresAt.getTime - now).toNat ONE_DAY_MS⌋

/-- One round of the loop. -/
def planExpiryNotification
    (input : ExpiryNotifierInput) (key : ApiKeyExpiryRecord) : Option ExpiryNotification :=
  let now := input.clock
  let warnDeadline := now + input.warnWithinMs
  match key.expiresAt with
  | none => none
  | some expiresAt =>
      if expiresAt.getTime ≤ now then none
      else if warnDeadline < expiresAt.getTime then none
      else if key.lastNotifiedAt.any fun last =>
          decide (now - last.getTime < input.notifyCooldownMs) then none
      else
        some
          { keyId := key.id
            userId := key.userId
            expiresAt
            daysUntilExpiry := daysUntilExpiry expiresAt now }

def planExpiryNotifications (input : ExpiryNotifierInput) : List ExpiryNotification :=
  input.keys.filterMap (planExpiryNotification input)

/-! ## Mails -/

structure LookupRow where
  email : String
  recipientName : Option String
  keyName : String

structure ApiKeyExpiryFactoryDeps where
  /-- The row of the key, joined with its user. -/
  lookups : String → Option LookupRow
  baseUrl : String
  appName : Option String

structure ExpiryMailVars where
  recipientName : String
  appName : String
  keyName : String
  daysUntilExpiry : Int
  expiresAt : String
  manageUrl : String

inductive ExpiryMailCall where
  | warn (message : String)
  | sendTemplate
      (recipient template : String) (vars : ExpiryMailVars) (mode idempotencyKey : String)

/-- The instant whose date is the bucket; whole numbers below 2^53 are subtracted exactly. -/
def bucketTime (notification : ExpiryNotification) : Int :=
  notification.expiresAt.getTime - notification.daysUntilExpiry * 86400000

def dayBucket (notification : ExpiryNotification) : String :=
  dateText (bucketTime notification)

def idempotencyKey (notification : ExpiryNotification) : String :=
  "api-key-expiring:" ++ notification.keyId ++ ":" ++ dayBucket notification

/-- `baseUrl.replace(/\/$/, "")` -/
def withoutFinalSlash (baseUrl : String) : String :=
  if baseUrl.toList.getLast? = some '/' then String.ofList baseUrl.toList.dropLast else baseUrl

def sendExpiryEmail
    (deps : ApiKeyExpiryFactoryDeps) (notification : ExpiryNotification) : ExpiryMailCall :=
  match deps.lookups notification.keyId with
  | none =>
      .warn
        ("apiKeyExpiry: cannot resolve user/key for keyId=" ++ notification.keyId ++
          " — likely deleted between read and dispatch")
  | some row =>
      .sendTemplate row.email "api-key-expiring"
        -- A split text has a first part, so the default "there" is never taken.
        { recipientName :=
            row.recipientName.getD (String.ofList (row.email.toList.takeWhile (· ≠ '@')))
          appName := deps.appName.getD "nest-base"
          keyName := row.keyName
          daysUntilExpiry := notification.daysUntilExpiry
          expiresAt := toISOString notification.expiresAt.getTime
          manageUrl := withoutFinalSlash deps.baseUrl ++ "/api/docs" }
        "outbox" (idempotencyKey notification)

/-! ## Buckets -/

/-- The day of the first instant from `now` on that has the expiry's time of day. -/
def turnDay (expiresAt : Date) (now : Nat) : Int :=
  if timeOfDay now ≤ timeOfDay expiresAt.getTime then dayOf now else dayOf now + 1

/-- Two ticks on one UTC day. -/
def SameDay (now now' : Nat) : Prop :=
  dayOf now = dayOf now'

instance (now now' : Nat) : Decidable (SameDay now now') :=
  inferInstanceAs (Decidable (dayOf now = dayOf now'))

/-- The quotient is not rounded to a whole day. -/
theorem daysUntilExpiry_eq {expiresAt : Date} {now : Nat} (h : now < expiresAt.getTime) :
    daysUntilExpiry expiresAt now = (expiresAt.getTime - now) / 86400000 := by
  have hvalid := expiresAt.isValid
  unfold MAX_TIME at hvalid
  have hbits : ONE_DAY_MS < 2 ^ 27 := by decide
  have hquotient : (expiresAt.getTime - now).toNat < 2 ^ 27 * ONE_DAY_MS := by
    unfold ONE_DAY_MS
    omega
  unfold daysUntilExpiry
  rw [Number.floor_nearest (by decide) hbits hquotient (by omega) (by omega)]
  unfold ONE_DAY_MS
  omega

variable {input : ExpiryNotifierInput}
variable {notification : ExpiryNotification}

/-- What a notification says. -/
theorem notification_spec (h : notification ∈ planExpiryNotifications input) :
    input.clock < notification.expiresAt.getTime ∧
      notification.daysUntilExpiry =
        (notification.expiresAt.getTime - input.clock) / 86400000 := by
  obtain ⟨key, -, hkey⟩ := List.mem_filterMap.mp h
  unfold planExpiryNotification at hkey
  dsimp only at hkey
  split at hkey
  · exact absurd hkey nofun
  · split at hkey
    · exact absurd hkey nofun
    · next hlater =>
        split at hkey
        · exact absurd hkey nofun
        · split at hkey
          · exact absurd hkey nofun
          · obtain rfl := Option.some.inj hkey
            exact ⟨not_le.mp hlater, daysUntilExpiry_eq (not_le.mp hlater)⟩

theorem dayOf_bucketTime (h : notification ∈ planExpiryNotifications input) :
    dayOf (bucketTime notification) = turnDay notification.expiresAt input.clock := by
  obtain ⟨hlater, hdays⟩ := notification_spec h
  unfold bucketTime turnDay
  rw [hdays]
  unfold dayOf timeOfDay ONE_DAY_MS
  split <;> omega

theorem dayOf_bucketTime_bounds (h : notification ∈ planExpiryNotifications input) :
    0 ≤ dayOf (bucketTime notification) ∧ dayOf (bucketTime notification) ≤ 100000000 := by
  obtain ⟨hlater, hdays⟩ := notification_spec h
  have hvalid := notification.expiresAt.isValid
  unfold MAX_TIME at hvalid
  unfold bucketTime
  rw [hdays]
  unfold dayOf ONE_DAY_MS
  omega

/-- The keys of two notifications differ in the date of the bucket only. -/
theorem idempotencyKey_eq_iff {notification' : ExpiryNotification}
    (h : notification.keyId = notification'.keyId) :
    idempotencyKey notification = idempotencyKey notification' ↔
      dayBucket notification = dayBucket notification' := by
  unfold idempotencyKey
  rw [h]
  constructor
  · intro hkeys
    have hchars := congrArg String.toList hkeys
    simp only [String.toList_append, List.append_cancel_left_eq] at hchars
    exact String.toList_inj.mp hchars
  · intro hbuckets
    rw [hbuckets]

/-! ## Keys and days -/

/-- The buckets of two ticks agree with their days.  On one day the expiry's time of day
is before both ticks or before none, or the two days have one text; on two days the
days of the buckets have different texts. -/
def BucketsFollowDays (expiresAt : Date) (now now' : Nat) : Prop :=
  if SameDay now now' then
    (timeOfDay now ≤ timeOfDay expiresAt.getTime ↔ timeOfDay now' ≤ timeOfDay expiresAt.getTime) ∨
      SameDateText (dayOf now) (dayOf now + 1)
  else
    ¬ SameDateText (turnDay expiresAt now) (turnDay expiresAt now')

/-- On one day two buckets are at most one day apart. -/
theorem sameDateText_turnDay_iff {expiresAt : Date} {now now' : Nat} (h : SameDay now now') :
    SameDateText (turnDay expiresAt now) (turnDay expiresAt now') ↔
      (timeOfDay now ≤ timeOfDay expiresAt.getTime ↔
          timeOfDay now' ≤ timeOfDay expiresAt.getTime) ∨
        SameDateText (dayOf now) (dayOf now + 1) := by
  unfold SameDay at h
  unfold turnDay
  rw [← h]
  by_cases hnow : timeOfDay now ≤ timeOfDay expiresAt.getTime <;>
    by_cases hnow' : timeOfDay now' ≤ timeOfDay expiresAt.getTime
  · rw [if_pos hnow, if_pos hnow']
    exact iff_of_true (.inl rfl) (.inl (iff_of_true hnow hnow'))
  · rw [if_pos hnow, if_neg hnow']
    exact (or_iff_right fun hsides => hnow' (hsides.mp hnow)).symm
  · rw [if_neg hnow, if_pos hnow', sameDateText_comm]
    exact (or_iff_right fun hsides => hnow (hsides.mpr hnow')).symm
  · rw [if_neg hnow, if_neg hnow']
    exact iff_of_true (.inl rfl) (.inl (iff_of_false hnow hnow'))

/-- The keys of two notifications about one expiry are equal when the buckets' days have
one text. -/
theorem idempotencyKey_eq_iff_sameDateText
    {input' : ExpiryNotifierInput} {notification' : ExpiryNotification}
    (h : notification ∈ planExpiryNotifications input)
    (h' : notification' ∈ planExpiryNotifications input')
    (hkey : notification.keyId = notification'.keyId) :
    idempotencyKey notification = idempotencyKey notification' ↔
      SameDateText (turnDay notification.expiresAt input.clock)
        (turnDay notification'.expiresAt input'.clock) := by
  obtain ⟨hlow, hhigh⟩ := dayOf_bucketTime_bounds h
  obtain ⟨hlow', hhigh'⟩ := dayOf_bucketTime_bounds h'
  rw [idempotencyKey_eq_iff hkey]
  unfold dayBucket
  rw [dateText_eq_iff hlow hhigh hlow' hhigh', dayOf_bucketTime h, dayOf_bucketTime h']

/-- The key of a mail that is sent. -/
theorem idempotencyKey_of_sent
    {deps : ApiKeyExpiryFactoryDeps} {recipient template mode key : String} {vars : ExpiryMailVars}
    (h : sendExpiryEmail deps notification = .sendTemplate recipient template vars mode key) :
    key = idempotencyKey notification := by
  unfold sendExpiryEmail at h
  split at h
  · exact absurd h nofun
  · injection h with _ _ _ _ hkey
    exact hkey.symm

section TwoTicks

variable {deps deps' : ApiKeyExpiryFactoryDeps} {input input' : ExpiryNotifierInput}
variable {notification notification' : ExpiryNotification}
variable {recipient recipient' template template' mode mode' key key' : String}
variable {vars vars' : ExpiryMailVars}

/-- The keys of the mails of two ticks agree with the ticks' days exactly when the buckets
do. -/
theorem key_eq_iff_sameDay_iff
    (h : notification ∈ planExpiryNotifications input)
    (h' : notification' ∈ planExpiryNotifications input')
    (hkey : notification.keyId = notification'.keyId)
    (hexpiry : notification.expiresAt = notification'.expiresAt)
    (hsent : sendExpiryEmail deps notification = .sendTemplate recipient template vars mode key)
    (hsent' :
      sendExpiryEmail deps' notification' = .sendTemplate recipient' template' vars' mode' key') :
    (key = key' ↔ SameDay input.clock input'.clock) ↔
      BucketsFollowDays notification.expiresAt input.clock input'.clock := by
  rw [idempotencyKey_of_sent hsent, idempotencyKey_of_sent hsent',
    idempotencyKey_eq_iff_sameDateText h h' hkey, ← hexpiry]
  unfold BucketsFollowDays
  split
  · next hday =>
      rw [sameDateText_turnDay_iff hday]
      exact iff_true_right hday
  · next hday => exact iff_false_right hday

end TwoTicks

/-! ## A key that expires at noon -/

/-- 2026-01-10 at noon -/
def noon : Date where
  getTime := 1768046400000
  isValid := by decide

def noonKey : ApiKeyExpiryRecord where
  id := "k1"
  userId := "u1"
  expiresAt := some noon
  lastNotifiedAt := none

/-- A tick that warns a week before. -/
def tickAt (clock : Nat) : ExpiryNotifierInput where
  keys := [noonKey]
  warnWithinMs := 604800000
  notifyCooldownMs := 86400000
  clock

/-- What the tick says about the key. -/
def noonNotification (clock : Nat) : ExpiryNotification where
  keyId := "k1"
  userId := "u1"
  expiresAt := noon
  daysUntilExpiry := daysUntilExpiry noon clock

/-- The key is notified about in the week before the expiry. -/
theorem noonNotification_mem {clock : Nat}
    (hlow : 1767441600000 ≤ clock) (hhigh : clock < 1768046400000) :
    noonNotification clock ∈ planExpiryNotifications (tickAt clock) := by
  refine List.mem_filterMap.mpr ⟨noonKey, List.mem_singleton.mpr rfl, ?_⟩
  have htime : noon.getTime = 1768046400000 := rfl
  unfold planExpiryNotification tickAt noonKey
  dsimp only
  rw [if_neg (by omega), if_neg (by omega)]
  rfl

def noonDeps : ApiKeyExpiryFactoryDeps where
  lookups := fun _ => some { email := "a@b.c", recipientName := none, keyName := "ci" }
  baseUrl := "http://localhost:3000"
  appName := none

theorem sendExpiryEmail_noon (clock : Nat) :
    ∃ vars,
      sendExpiryEmail noonDeps (noonNotification clock) =
        .sendTemplate "a@b.c" "api-key-expiring" vars "outbox"
          (idempotencyKey (noonNotification clock)) :=
  ⟨_, rfl⟩

/-- Two ticks of 2026-01-08, an hour before noon and an hour after. -/
theorem key_eq_iff_sameDay_iff_noon :
    (idempotencyKey (noonNotification 1767870000000) =
          idempotencyKey (noonNotification 1767877200000) ↔
        SameDay 1767870000000 1767877200000) ↔
      BucketsFollowDays noon 1767870000000 1767877200000 := by
  obtain ⟨vars, hsent⟩ := sendExpiryEmail_noon 1767870000000
  obtain ⟨vars', hsent'⟩ := sendExpiryEmail_noon 1767877200000
  exact key_eq_iff_sameDay_iff (noonNotification_mem (by decide) (by decide))
    (noonNotification_mem (by decide) (by decide)) rfl rfl hsent hsent'

/-- The keys of these two ticks differ, and a second mail is sent. -/
theorem not_keys_follow_days :
    ¬ ∀ (deps : ApiKeyExpiryFactoryDeps) (input input' : ExpiryNotifierInput)
        (notification notification' : ExpiryNotification)
        (recipient recipient' template template' mode mode' key key' : String)
        (vars vars' : ExpiryMailVars),
      notification ∈ planExpiryNotifications input →
      notification' ∈ planExpiryNotifications input' →
      notification.keyId = notification'.keyId →
      notification.expiresAt = notification'.expiresAt →
      sendExpiryEmail deps notification = .sendTemplate recipient template vars mode key →
      sendExpiryEmail deps notification' = .sendTemplate recipient' template' vars' mode' key' →
      (key = key' ↔ SameDay input.clock input'.clock) := by
  intro h
  have hbefore :
      noonNotification 1767870000000 ∈ planExpiryNotifications (tickAt 1767870000000) :=
    noonNotification_mem (by decide) (by decide)
  have hafter :
      noonNotification 1767877200000 ∈ planExpiryNotifications (tickAt 1767877200000) :=
    noonNotification_mem (by decide) (by decide)
  obtain ⟨vars, hsent⟩ := sendExpiryEmail_noon 1767870000000
  obtain ⟨vars', hsent'⟩ := sendExpiryEmail_noon 1767877200000
  have hday : SameDay 1767870000000 1767877200000 := by decide
  have hkeys := (h _ _ _ _ _ _ _ _ _ _ _ _ _ _ _ hbefore hafter rfl rfl hsent hsent').mpr hday
  have hbuckets := (idempotencyKey_eq_iff_sameDateText hbefore hafter rfl).mp hkeys
  exact absurd hbuckets (by decide)

end ApiKeyExpiry
end NestBase
