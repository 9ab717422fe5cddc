import NestBase.Core.ApiKeyExpiry
import NestBase.Core.EmailOutboxTerminal

/-!
# Runs of the API key expiry notifier

`ApiKeyExpiryRunner.tick` reads the keys that expire, plans the notifications, and for
each of them sends the mail and then writes the watermark `lastNotifiedAt`.  A send or a
write that throws is logged and leaves the watermark as it is.

* One tick after the other keeps the cooldown: two notifications about a key are less
  than the cooldown apart only if the watermark of the earlier one was not written
  (`spaced_of_reaches`).
* Ticks that overlap can both notify.  The mails go through the outbox, whose column of
  idempotency keys is unique, and the bucket of a key lies on one of the eight days before
  the expiry: however ticks, workers and administrators interleave, the outbox holds at
  most eight mails for one expiry of a key (`expiryMails_length_le`).
-/

namespace NestBase
namespace ApiKeyExpiry

open Lib Timestamps

/-! ## The runner -/

def DEFAULT_WARN_WITHIN_MS : Int := 7 * 24 * 60 * 60 * 1000
def DEFAULT_COOLDOWN_MS : Int := 24 * 60 * 60 * 1000

structure ApiKeyExpiryRunnerInput where
  warnWithinMs : Option Int
  notifyCooldownMs : Option Int

def ApiKeyExpiryRunnerInput.warn (input : ApiKeyExpiryRunnerInput) : Int :=
  input.warnWithinMs.getD DEFAULT_WARN_WITHIN_MS

def ApiKeyExpiryRunnerInput.cooldown (input : ApiKeyExpiryRunnerInput) : Int :=
  input.notifyCooldownMs.getD DEFAULT_COOLDOWN_MS

/-- `buildDefaultApiKeyExpiryRunnerInput` overrides neither span. -/
def buildDefaultApiKeyExpiryRunnerInput : ApiKeyExpiryRunnerInput where
  warnWithinMs := none
  notifyCooldownMs := none

/-- The clocks that a tick reads, and which of its calls throw. -/
structure Outside where
  /-- `NOW()` in the statement that reads the keys. -/
  dbNow : Nat
  /-- The clock of the planner. -/
  planClock : Nat
  /-- The clock that is read after the plan, for the watermarks. -/
  markClock : Nat
  sends : ExpiryNotification → Bool
  marks : ExpiryNotification → Bool

def readExpiringApiKeys (dbNow : Nat) (rows : List ApiKeyExpiryRecord) :
    List ApiKeyExpiryRecord :=
  rows.filter fun row => row.expiresAt.any fun expiresAt => decide ((dbNow : Int) < expiresAt.getTime)

/-- The rows after the statement; `none` where `toISOString` throws. -/
def markApiKeyNotified (keyId : String) (atMs : Nat) (rows : List ApiKeyExpiryRecord) :
    Option (List ApiKeyExpiryRecord) :=
  if h : (atMs : Int).natAbs ≤ MAX_TIME then
    some (rows.map fun row =>
      if row.id = keyId then { row with lastNotifiedAt := some ⟨atMs, h⟩ } else row)
  else none

/-- A notification whose send did not throw. -/
structure Sent where
  notification : ExpiryNotification
  plannedAt : Nat
  /-- The watermark that was written for it. -/
  markedAt : Option Nat

/-- The table, and what was sent, the latest first. -/
structure World where
  rows : List ApiKeyExpiryRecord
  sent : List Sent

/-- One round of the loop, and whether it counts. -/
def notify (outside : Outside) (w : World) (notification : ExpiryNotification) : World × Bool :=
  if outside.sends notification then
    let marked :=
      if outside.marks notification then
        markApiKeyNotified notification.keyId outside.markClock w.rows
      else none
    match marked with
    | some rows =>
        ({ rows := rows
           sent :=
            { notification := notification
              plannedAt := outside.planClock
              markedAt := some outside.markClock } :: w.sent }, true)
    | none =>
        ({ w with
           sent :=
            { notification := notification
              plannedAt := outside.planClock
              markedAt := none } :: w.sent }, false)
  else (w, false)

def plan (input : ApiKeyExpiryRunnerInput) (outside : Outside) (w : World) :
    List ExpiryNotification :=
  planExpiryNotifications
    { keys := readExpiringApiKeys outside.dbNow w.rows
      warnWithinMs := input.warn
      notifyCooldownMs := input.cooldown
      clock := outside.planClock }

/-- The loop, with the count that `tick` returns. -/
def notifyAll (outside : Outside) : World → List ExpiryNotification → World × Nat
  | w, [] => (w, 0)
  | w, notification :: rest =>
      let (next, counted) := notify outside w notification
      let (last, notified) := notifyAll outside next rest
      (last, if counted then notified + 1 else notified)

def tick (input : ApiKeyExpiryRunnerInput) (outside : Outside) (w : World) : World × Nat :=
  notifyAll outside w (plan input outside w)

/-! ## Runs of ticks -/

inductive Event where
  | tick (outside : Outside)
  /-- Keys are created, rotated and revoked between the ticks. -/
  | change (rows : List ApiKeyExpiryRecord)

def step (input : ApiKeyExpiryRunnerInput) (w : World) : Event → Option World
  | .tick outside => some (tick input outside w).1
  | .change rows => some { w with rows := rows }

/-- Ids are unique, and a row is new or has the watermark of the row with its id. -/
structure Unmarked (w : World) (rows : List ApiKeyExpiryRecord) : Prop where
  ids : (rows.map ApiKeyExpiryRecord.id).Nodup
  watermark :
    ∀ row ∈ rows,
      (∃ old ∈ w.rows, old.id = row.id ∧ old.lastNotifiedAt = row.lastNotifiedAt) ∨
        ∀ sent ∈ w.sent, sent.notification.keyId ≠ row.id

/-- The clock does not go back inside a tick, and only ticks write watermarks. -/
def InOrder (w : World) : Event → Prop
  | .tick outside => outside.planClock ≤ outside.markClock
  | .change rows => Unmarked w rows

/-- Two notifications about a key keep the cooldown, unless the first left no watermark. -/
def Spaced (cooldown : Int) (sent : List Sent) : Prop :=
  sent.Pairwise fun later earlier =>
    later.notification.keyId = earlier.notification.keyId →
      ∀ at_ : Nat, earlier.markedAt = some at_ → (at_ : Int) + cooldown ≤ later.plannedAt

structure Inv (cooldown : Int) (w : World) : Prop where
  ids : (w.rows.map ApiKeyExpiryRecord.id).Nodup
  spaced : Spaced cooldown w.sent
  /-- The watermark of a key is at least as late as every one written for it. -/
  watermark :
    ∀ sent ∈ w.sent, ∀ at_ : Nat, sent.markedAt = some at_ →
      ∀ row ∈ w.rows, row.id = sent.notification.keyId →
        ∃ last, row.lastNotifiedAt = some last ∧ (at_ : Int) ≤ last.getTime

/-! ## One tick -/

/-- What a planned notification says about its key. -/
theorem planExpiryNotification_spec
    {input : ExpiryNotifierInput} {key : ApiKeyExpiryRecord} {notification : ExpiryNotification}
    (h : planExpiryNotification input key = some notification) :
    notification.keyId = key.id ∧
      notification.expiresAt.getTime ≤ input.clock + input.warnWithinMs ∧
      ∀ last, key.lastNotifiedAt = some last →
        last.getTime + input.notifyCooldownMs ≤ input.clock := by
  unfold planExpiryNotification at h
  dsimp only at h
  split at h
  · exact absurd h nofun
  · split at h
    · exact absurd h nofun
    · split at h
      · exact absurd h nofun
      · next hwarn =>
          split at h
          · exact absurd h nofun
          · next hlast =>
              obtain rfl := Option.some.inj h
              refine ⟨rfl, not_lt.mp hwarn, fun last hsome => ?_⟩
              rw [hsome, Option.any_some, decide_eq_true_iff] at hlast
              omega

section Tick

variable {input : ApiKeyExpiryRunnerInput} {outside : Outside} {w : World}

/-- A planned key has a row whose watermark is the cooldown old. -/
theorem exists_row_of_mem_plan
    {notification : ExpiryNotification} (h : notification ∈ plan input outside w) :
    ∃ row ∈ w.rows, row.id = notification.keyId ∧
      ∀ last, row.lastNotifiedAt = some last →
        last.getTime + input.cooldown ≤ outside.planClock := by
  obtain ⟨row, hread, hplan⟩ := List.mem_filterMap.mp h
  obtain ⟨hid, -, hlast⟩ := planExpiryNotification_spec hplan
  exact ⟨row, List.mem_of_mem_filter hread, hid.symm, hlast⟩

/-- The planned keys are those of rows, in their order. -/
theorem plan_keyIds_sublist (input : ApiKeyExpiryRunnerInput) (outside : Outside) (w : World) :
    ((plan input outside w).map ExpiryNotification.keyId).Sublist
      (w.rows.map ApiKeyExpiryRecord.id) := by
  have hplanned : ∀ (notifier : ExpiryNotifierInput) (keys : List ApiKeyExpiryRecord),
      ((keys.filterMap (planExpiryNotification notifier)).map ExpiryNotification.keyId).Sublist
        (keys.map ApiKeyExpiryRecord.id) := by
    intro notifier keys
    induction keys with
    | nil => exact .slnil
    | cons key keys ih =>
        cases hplan : planExpiryNotification notifier key with
        | none =>
            rw [List.filterMap_cons_none hplan]
            exact ih.cons _
        | some notification =>
            rw [List.filterMap_cons_some hplan, List.map_cons, List.map_cons,
              (planExpiryNotification_spec hplan).1]
            exact ih.cons_cons _
  exact (hplanned _ _).trans (List.filter_sublist.map _)

/-- The statement keeps the ids. -/
theorem ids_markApiKeyNotified
    {keyId : String} {atMs : Nat} {rows rows' : List ApiKeyExpiryRecord}
    (h : markApiKeyNotified keyId atMs rows = some rows') :
    rows'.map ApiKeyExpiryRecord.id = rows.map ApiKeyExpiryRecord.id := by
  unfold markApiKeyNotified at h
  split at h
  · obtain rfl := Option.some.inj h
    rw [List.map_map]
    refine List.map_congr_left fun row _ => ?_
    rw [Function.comp_apply]
    split <;> rfl
  · exact absurd h nofun

/-- A row after the statement has the new watermark, or is an old row of another key. -/
theorem mem_markApiKeyNotified
    {keyId : String} {atMs : Nat} {rows rows' : List ApiKeyExpiryRecord}
    (h : markApiKeyNotified keyId atMs rows = some rows')
    {row : ApiKeyExpiryRecord} (hrow : row ∈ rows') :
    (∃ last, row.lastNotifiedAt = some last ∧ last.getTime = atMs ∧ row.id = keyId) ∨
      row ∈ rows ∧ row.id ≠ keyId := by
  unfold markApiKeyNotified at h
  split at h
  · obtain rfl := Option.some.inj h
    obtain ⟨old, hold, rfl⟩ := List.mem_map.mp hrow
    split
    · next hid => exact .inl ⟨_, rfl, rfl, hid⟩
    · next hid => exact .inr ⟨hold, hid⟩
  · exact absurd h nofun

/-- The cooldown has passed since every watermark written for the key. -/
def CooledDown (cooldown : Int) (planClock : Nat) (w : World) (keyId : String) : Prop :=
  ∀ sent ∈ w.sent, sent.notification.keyId = keyId →
    ∀ at_ : Nat, sent.markedAt = some at_ → (at_ : Int) + cooldown ≤ planClock

theorem cooledDown_of_mem_plan
    (hinv : Inv input.cooldown w)
    {notification : ExpiryNotification} (h : notification ∈ plan input outside w) :
    CooledDown input.cooldown outside.planClock w notification.keyId := by
  obtain ⟨row, hrow, hid, hcool⟩ := exists_row_of_mem_plan h
  intro sent hsent hkey at_ hmarked
  obtain ⟨last, hlast, hle⟩ := hinv.watermark sent hsent at_ hmarked row hrow (hid.trans hkey.symm)
  have := hcool last hlast
  omega

/-- What was sent after a round. -/
theorem sent_notify (outside : Outside) (w : World) (notification : ExpiryNotification) :
    (notify outside w notification).1.sent = w.sent ∨
      ∃ markedAt, (notify outside w notification).1.sent =
        { notification := notification, plannedAt := outside.planClock, markedAt := markedAt } ::
          w.sent := by
  unfold notify
  split
  · dsimp only
    split
    · exact .inr ⟨_, rfl⟩
    · exact .inr ⟨_, rfl⟩
  · exact .inl rfl

/-- A round keeps the other keys cooled down. -/
theorem CooledDown.notify
    {cooldown : Int} {planClock : Nat} {keyId : String}
    (h : CooledDown cooldown planClock w keyId)
    {notification : ExpiryNotification} (hne : notification.keyId ≠ keyId) :
    CooledDown cooldown planClock (ApiKeyExpiry.notify outside w notification).1 keyId := by
  intro sent hsent hkey
  rcases sent_notify outside w notification with hsame | ⟨markedAt, hsame⟩
  · rw [hsame] at hsent
    exact h sent hsent hkey
  · rw [hsame] at hsent
    rcases List.mem_cons.mp hsent with rfl | hold
    · exact absurd hkey hne
    · exact h sent hold hkey

/-- A round whose key has cooled down keeps the invariant. -/
theorem Inv.notify
    {cooldown : Int} (hpos : 0 ≤ cooldown) (hinv : Inv cooldown w)
    (hclock : outside.planClock ≤ outside.markClock) {notification : ExpiryNotification}
    (hcool : CooledDown cooldown outside.planClock w notification.keyId) :
    Inv cooldown (ApiKeyExpiry.notify outside w notification).1 := by
  have hspaced : ∀ markedAt, Spaced cooldown
      ({ notification := notification, plannedAt := outside.planClock, markedAt := markedAt } ::
        w.sent) := by
    intro markedAt
    exact hinv.spaced.cons fun sent hsent hkey => hcool sent hsent hkey.symm
  unfold ApiKeyExpiry.notify
  split
  · dsimp only
    split
    · next hmarked =>
        obtain ⟨-, hrows⟩ := Option.ite_none_right_eq_some.mp hmarked
        refine ⟨(ids_markApiKeyNotified hrows).symm ▸ hinv.ids, hspaced _, ?_⟩
        intro sent hsent at_ hat row hrow hid
        rcases mem_markApiKeyNotified hrows hrow with ⟨last, hlast, htime, hkey⟩ | ⟨hold, hne⟩
        · refine ⟨last, hlast, ?_⟩
          rw [htime]
          rcases List.mem_cons.mp hsent with rfl | hearlier
          · rw [Option.some.inj hat]
          · have := hcool sent hearlier (hid.symm.trans hkey) at_ hat
            omega
        · rcases List.mem_cons.mp hsent with rfl | hearlier
          · exact absurd hid hne
          · exact hinv.watermark sent hearlier at_ hat row hold hid
    · refine ⟨hinv.ids, hspaced _, ?_⟩
      intro sent hsent at_ hat row hrow hid
      rcases List.mem_cons.mp hsent with rfl | hearlier
      · cases hat
      · exact hinv.watermark sent hearlier at_ hat row hrow hid
  · exact hinv

/-- The loop over keys that have cooled down keeps the invariant. -/
theorem Inv.notifyAll
    {cooldown : Int} (hpos : 0 ≤ cooldown)
    (hclock : outside.planClock ≤ outside.markClock) {notifications : List ExpiryNotification}
    (hdistinct : (notifications.map ExpiryNotification.keyId).Nodup) (hinv : Inv cooldown w)
    (hcool : ∀ notification ∈ notifications,
      CooledDown cooldown outside.planClock w notification.keyId) :
    Inv cooldown (ApiKeyExpiry.notifyAll outside w notifications).1 := by
  induction notifications generalizing w with
  | nil => exact hinv
  | cons notification rest ih =>
      rw [List.map_cons, List.nodup_cons] at hdistinct
      refine ih hdistinct.2 (hinv.notify hpos hclock (hcool _ List.mem_cons_self)) ?_
      intro other hother
      refine (hcool other (List.mem_cons_of_mem _ hother)).notify fun hkey => hdistinct.1 ?_
      rw [hkey]
      exact List.mem_map_of_mem hother

end Tick

/-! ## Ticks in turn -/

section Runs

variable {input : ApiKeyExpiryRunnerInput}

theorem inv_step
    (hpos : 0 ≤ input.cooldown) {w w' : World} {e : Event} (hinv : Inv input.cooldown w)
    (horder : InOrder w e) (hstep : step input w e = some w') :
    Inv input.cooldown w' := by
  cases e with
  | tick outside =>
      obtain rfl := Option.some.inj hstep
      exact hinv.notifyAll hpos horder (hinv.ids.sublist (plan_keyIds_sublist input outside w))
        fun _ => cooledDown_of_mem_plan hinv
  | change rows =>
      obtain rfl := Option.some.inj hstep
      refine ⟨horder.ids, hinv.spaced, ?_⟩
      intro sent hsent at_ hat row hrow hid
      rcases horder.watermark row hrow with ⟨old, hold, hsame, hlast⟩ | hnew
      · rw [← hlast]
        exact hinv.watermark sent hsent at_ hat old hold (hsame.trans hid)
      · exact absurd hid.symm (hnew sent hsent)

/-- In every run of ticks, two notifications about a key keep the cooldown unless the
watermark of the earlier one was not written. -/
theorem spaced_of_reaches
    (hpos : 0 ≤ input.cooldown) {rows : List ApiKeyExpiryRecord}
    (hids : (rows.map ApiKeyExpiryRecord.id).Nodup) {w : World}
    (hrun : Reaches (step input) InOrder { rows := rows, sent := [] } w) :
    Spaced input.cooldown w.sent := by
  have hfirst : Inv input.cooldown { rows := rows, sent := [] } :=
    ⟨hids, .nil, fun sent hsent => absurd hsent List.not_mem_nil⟩
  exact (hrun.invariant hfirst fun _ _ _ hinv horder hstep =>
    inv_step hpos hinv horder hstep).spaced

end Runs

/-- A tick at the given time whose calls succeed. -/
def quickTick (clock : Nat) : Outside where
  dbNow := clock
  planClock := clock
  markClock := clock
  sends := fun _ => true
  marks := fun _ => true

/-- The days before the expiry at noon: a tick, the same tick again, and one a day later. -/
theorem spaced_of_reaches_noon :
    ∃ w : World, Spaced DEFAULT_COOLDOWN_MS w.sent ∧ w.sent.length = 2 := by
  have hfirst : Reaches (step buildDefaultApiKeyExpiryRunnerInput) InOrder
      { rows := [noonKey], sent := [] } _ :=
    Reaches.tail (e := .tick (quickTick 1767870000000)) (Reaches.refl _) (Nat.le_refl _) rfl
  have hagain : Reaches (step buildDefaultApiKeyExpiryRunnerInput) InOrder
      { rows := [noonKey], sent := [] } _ :=
    Reaches.tail (e := .tick (quickTick 1767870000001)) hfirst (Nat.le_refl _) rfl
  have hlater : Reaches (step buildDefaultApiKeyExpiryRunnerInput) InOrder
      { rows := [noonKey], sent := [] } _ :=
    Reaches.tail (e := .tick (quickTick 1767956400000)) hagain (Nat.le_refl _) rfl
  exact ⟨_, spaced_of_reaches (by decide) (by decide) hlater, by decide⟩

/-! ## Ticks that overlap -/

open EmailOutbox (PrismaEmailOutboxRow)

section Outbox

variable {Payload : Type}

/-- The idempotency keys of the table are pairwise different. -/
def KeysUnique (rows : List (PrismaEmailOutboxRow Payload)) : Prop :=
  (rows.filterMap PrismaEmailOutboxRow.idempotencyKey).Nodup

theorem idempotencyKey_change
    (write : EmailOutbox.StorageWrite) (row : PrismaEmailOutboxRow Payload) :
    (write.change row).idempotencyKey = row.idempotencyKey := by
  cases write <;> rfl

theorem keysUnique_apply_iff
    (write : EmailOutbox.StorageWrite) (rows : List (PrismaEmailOutboxRow Payload)) :
    KeysUnique (write.apply rows) ↔ KeysUnique rows := by
  have hkeys : ∀ rows : List (PrismaEmailOutboxRow Payload),
      rows.filterMap PrismaEmailOutboxRow.idempotencyKey =
        (rows.map PrismaEmailOutboxRow.idempotencyKey).filterMap id := by
    intro rows
    rw [List.filterMap_map]
    rfl
  unfold KeysUnique EmailOutbox.StorageWrite.apply
  rw [hkeys, hkeys, map_key_updateMany write.matching (idempotencyKey_change write)]

/-- An appended row has no key, or one that no row has. -/
theorem KeysUnique.append
    {rows : List (PrismaEmailOutboxRow Payload)} {row : PrismaEmailOutboxRow Payload}
    (h : KeysUnique rows)
    (hfree : ¬ (row.idempotencyKey.isSome &&
      rows.any fun other => decide (other.idempotencyKey = row.idempotencyKey)) = true) :
    KeysUnique (rows ++ [row]) := by
  unfold KeysUnique at h ⊢
  rw [List.filterMap_append]
  cases hkey : row.idempotencyKey with
  | none =>
      rw [List.filterMap_cons_none hkey, List.filterMap_nil, List.append_nil]
      exact h
  | some key =>
      rw [List.filterMap_cons_some hkey, List.filterMap_nil]
      refine h.append (List.nodup_singleton key) ?_
      rw [List.disjoint_singleton]
      intro hmem
      obtain ⟨other, hother, hsame⟩ := List.mem_filterMap.mp hmem
      refine hfree ?_
      rw [hkey, Option.isSome_some, Bool.true_and, List.any_eq_true]
      exact ⟨other, hother, decide_eq_true hsame⟩

theorem keysUnique_step
    {options : EmailOutbox.WorkerOptions} {w w' : EmailOutbox.World Payload}
    {e : EmailOutbox.Event Payload} (h : KeysUnique w.rows)
    (hstep : EmailOutbox.step options w e = some w') :
    KeysUnique w'.rows := by
  rcases EmailOutbox.rows_step hstep with ⟨enqueue, id, happend⟩ | ⟨write, -, hrows⟩ | hrows
  · unfold EmailOutbox.append at happend
    split at happend
    · cases happend
    · next hfree =>
        obtain ⟨-, hrows⟩ := insertRow_eq_some_iff.mp happend
        rw [hrows]
        exact h.append hfree
  · rw [hrows]
    exact (keysUnique_apply_iff write w.rows).mpr h
  · rw [hrows]
    exact h

theorem keysUnique_of_reaches
    {options : EmailOutbox.WorkerOptions} {clock : Int} {w : EmailOutbox.World Payload}
    (hrun : Reaches (EmailOutbox.step options) anyEvent (EmailOutbox.initialWorld clock) w) :
    KeysUnique w.rows :=
  hrun.invariant List.nodup_nil fun _ _ _ h _ hstep => keysUnique_step h hstep

/-- Rows whose keys are on a list are at most as many as the list is long. -/
theorem KeysUnique.length_le
    {rows mails : List (PrismaEmailOutboxRow Payload)} (h : KeysUnique rows)
    (hsub : mails.Sublist rows) {keys : List String}
    (hkeys : ∀ row ∈ mails, ∃ key ∈ keys, row.idempotencyKey = some key) :
    mails.length ≤ keys.length := by
  have hsome : (mails.filterMap PrismaEmailOutboxRow.idempotencyKey).length = mails.length := by
    rw [List.filterMap_length_eq_length]
    intro row hrow
    obtain ⟨key, -, hkey⟩ := hkeys row hrow
    rw [hkey]
    rfl
  have hnodup : (mails.filterMap PrismaEmailOutboxRow.idempotencyKey).Nodup :=
    List.Nodup.sublist (hsub.filterMap _) h
  rw [← hsome]
  refine (hnodup.subperm fun key hkey => ?_).length_le
  obtain ⟨row, hrow, hkeyed⟩ := List.mem_filterMap.mp hkey
  obtain ⟨listed, hlisted, hrowkey⟩ := hkeys row hrow
  rw [hrowkey, Option.some.injEq] at hkeyed
  exact hkeyed ▸ hlisted

/-- A mail that some tick sends about the key's expiry, with the span of the default runner. -/
def IsExpiryMail (keyId : String) (expiresAt : Date) (row : PrismaEmailOutboxRow Payload) : Prop :=
  ∃ (input : ExpiryNotifierInput) (notification : ExpiryNotification)
      (deps : ApiKeyExpiryFactoryDeps) (recipient template mode key : String)
      (vars : ExpiryMailVars),
    input.warnWithinMs = buildDefaultApiKeyExpiryRunnerInput.warn ∧
      notification ∈ planExpiryNotifications input ∧
      notification.keyId = keyId ∧ notification.expiresAt = expiresAt ∧
      sendExpiryEmail deps notification = .sendTemplate recipient template vars mode key ∧
      row.idempotencyKey = some key

/-- The idempotency keys of the days before an expiry. -/
def expiryMailKeys (keyId : String) (expiresAt : Date) : List String :=
  (List.range 8).map fun (days : Nat) =>
    "api-key-expiring:" ++ keyId ++ ":" ++ dateText (expiresAt.getTime - days * 86400000)

/-- The warning comes at most seven days before. -/
theorem daysUntilExpiry_of_mem
    {input : ExpiryNotifierInput} {notification : ExpiryNotification}
    (hwarn : input.warnWithinMs = buildDefaultApiKeyExpiryRunnerInput.warn)
    (h : notification ∈ planExpiryNotifications input) :
    ∃ days < 8, notification.daysUntilExpiry = (days : Nat) := by
  obtain ⟨hlater, hdays⟩ := notification_spec h
  obtain ⟨key, -, hkey⟩ := List.mem_filterMap.mp h
  have hwithin := (planExpiryNotification_spec hkey).2.1
  rw [hwarn] at hwithin
  change notification.expiresAt.getTime ≤ input.clock + 604800000 at hwithin
  refine ⟨notification.daysUntilExpiry.toNat, ?_, ?_⟩ <;> rw [hdays] <;> omega

theorem idempotencyKey_mem_expiryMailKeys
    {input : ExpiryNotifierInput} {notification : ExpiryNotification}
    (hwarn : input.warnWithinMs = buildDefaultApiKeyExpiryRunnerInput.warn)
    (h : notification ∈ planExpiryNotifications input) :
    idempotencyKey notification ∈ expiryMailKeys notification.keyId notification.expiresAt := by
  obtain ⟨days, hlt, hdays⟩ := daysUntilExpiry_of_mem hwarn h
  refine List.mem_map.mpr ⟨days, List.mem_range.mpr hlt, ?_⟩
  unfold idempotencyKey dayBucket bucketTime
  rw [hdays]

/-- However ticks, workers and administrators interleave, the outbox has at most eight mails
about one expiry of a key. -/
theorem expiryMails_length_le
    {options : EmailOutbox.WorkerOptions} {clock : Int} {w : EmailOutbox.World Payload}
    (hrun : Reaches (EmailOutbox.step options) anyEvent (EmailOutbox.initialWorld clock) w)
    (keyId : String) (expiresAt : Date) {mails : List (PrismaEmailOutboxRow Payload)}
    (hsub : mails.Sublist w.rows) (hmails : ∀ row ∈ mails, IsExpiryMail keyId expiresAt row) :
    mails.length ≤ 8 := by
  have hlength : (expiryMailKeys keyId expiresAt).length = 8 := by
    unfold expiryMailKeys
    rw [List.length_map, List.length_range]
  rw [← hlength]
  refine (keysUnique_of_reaches hrun).length_le hsub ?_
  intro row hrow
  obtain ⟨input, notification, deps, recipient, template, mode, key, vars, hwarn, hplanned, rfl,
    rfl, hsent, hkey⟩ := hmails row hrow
  refine ⟨key, ?_, hkey⟩
  rw [idempotencyKey_of_sent hsent]
  exact idempotencyKey_mem_expiryMailKeys hwarn hplanned

end Outbox

/-- The mail of a notification as the outbox gets it. -/
def expiryMailInput (notification : ExpiryNotification) : EmailOutbox.EnqueueInput Unit where
  kind := .sendTemplate
  payload := ()
  idempotencyKey := some (idempotencyKey notification)

/-- Two ticks of 2026-01-08 that both look for their mail before either appends it, and a tick of
the next day. -/
def overlappingTicks : List (EmailOutbox.Event Unit) :=
  [.enqueueFind 0 (expiryMailInput (noonNotification 1767870000000)),
    .enqueueFind 1 (expiryMailInput (noonNotification 1767871800000)),
    .enqueueAppend 0 "m0", .enqueueAppend 1 "m1",
    .enqueueFind 2 (expiryMailInput (noonNotification 1767956400000)), .enqueueAppend 2 "m2"]

/-- The second tick of the day is refused its mail. -/
theorem expiryMails_length_le_noon :
    let options : EmailOutbox.WorkerOptions :=
      { retry := EmailOutbox.DEFAULT_EMAIL_OUTBOX_RETRY, batchSize := 25 }
    ∃ w,
      runEvents (EmailOutbox.step options) (EmailOutbox.initialWorld 0) overlappingTicks = some w ∧
        w.rows.map PrismaEmailOutboxRow.idempotencyKey =
          [some (idempotencyKey (noonNotification 1767870000000)),
            some (idempotencyKey (noonNotification 1767956400000))] ∧
        w.rows.length ≤ 8 := by
  intro options
  have hrows :
      (runEvents (EmailOutbox.step options) (EmailOutbox.initialWorld 0) overlappingTicks).map
          (fun w => w.rows.map PrismaEmailOutboxRow.idempotencyKey) =
        some
          [some (idempotencyKey (noonNotification 1767870000000)),
            some (idempotencyKey (noonNotification 1767956400000))] := by
    decide +kernel
  obtain ⟨w, hrun, hkeys⟩ := Option.map_eq_some_iff.mp hrows
  refine ⟨w, hrun, hkeys, ?_⟩
  refine expiryMails_length_le (reaches_of_runEvents hrun) "k1" noon (List.Sublist.refl _) ?_
  intro row hrow
  have hkey := List.mem_map_of_mem (f := PrismaEmailOutboxRow.idempotencyKey) hrow
  rw [hkeys] at hkey
  have hmail (clock : Nat) (hlow : 1767441600000 ≤ clock) (hhigh : clock < 1768046400000)
      (h : row.idempotencyKey = some (idempotencyKey (noonNotification clock))) :
      IsExpiryMail "k1" noon row := by
    obtain ⟨vars, hsent⟩ := sendExpiryEmail_noon clock
    exact ⟨tickAt clock, noonNotification clock, noonDeps, _, _, _, _, vars, rfl,
      noonNotification_mem hlow hhigh, rfl, rfl, hsent, h⟩
  rcases List.mem_cons.mp hkey with hfirst | hrest
  · exact hmail 1767870000000 (by decide) (by decide) hfirst
  · exact hmail 1767956400000 (by decide) (by decide) (List.mem_singleton.mp hrest)

end ApiKeyExpiry
end NestBase
