import NestBase.Core.DeviceFingerprint

/-!
# The device cap

After a sign-in `handleSessionCreated` compares the fingerprint of the new session with those
of the other sessions of the user.  A known fingerprint ends it there; a new one
revokes the oldest other session when the sessions are more than the cap.

A known device adds a session all the same.  `capKept_iff` says that the cap holds after
every sign-in of a run exactly when no known device signs in at the cap; whatever is
revoked is the oldest of the others.
-/

namespace NestBase
namespace Core
namespace DeviceHandling

open Lib
open DeviceFingerprint (FingerprintInput FingerprintMode fingerprintSession)

/-! ## The decision -/

structure KnownSession where
  id : String
  fingerprintHash : String
  lastSeenAt : Int
  createdAt : Int
deriving DecidableEq, Repr

inductive Decision where
  | firstSignIn
  | known
  | newDevice (revokeSessionId : Option String)
deriving DecidableEq, Repr

/-- The candidate was seen before the other session, or at one time with it and created
before it. -/
def isOlder (candidate oldest : KnownSession) : Bool :=
  candidate.lastSeenAt < oldest.lastSeenAt ||
    (candidate.lastSeenAt == oldest.lastSeenAt && candidate.createdAt < oldest.createdAt)

/-- The loop over the candidates, from the oldest session so far. -/
def oldestOf (oldest : KnownSession) (candidates : List KnownSession) : KnownSession :=
  candidates.foldl
    (fun oldest candidate => if isOlder candidate oldest then candidate else oldest) oldest

def selectOldestSessionForRevoke : List KnownSession → Option String
  | [] => none
  | first :: rest => some (oldestOf first rest).id

def decideDeviceHandling
    (currentFingerprint currentSessionId : String)
    (knownSessions : List KnownSession)
    (maxDevicesPerUser : Nat) : Decision :=
  let others := knownSessions.filter fun session => session.id ≠ currentSessionId
  if others = [] then .firstSignIn
  else if others.any fun session => session.fingerprintHash == currentFingerprint then .known
  else
    let totalAfter := others.length + 1
    if maxDevicesPerUser < totalAfter then
      .newDevice (selectOldestSessionForRevoke others)
    else .newDevice none

/-! ## The store -/

structure SessionRow where
  userId : String
  session : KnownSession
deriving DecidableEq

/-- The sessions that have not expired.  Their ids are distinct and not empty. -/
structure SessionStore where
  rows : List SessionRow
  nodup : (rows.map fun row => row.session.id).Nodup
  nonempty : ∀ row ∈ rows, row.session.id ≠ ""

namespace SessionStore

/-- A sign-in inserts its session; an id that is taken is refused. -/
def insert (store : SessionStore) (row : SessionRow) : Option SessionStore :=
  if h : row.session.id ≠ "" ∧ row.session.id ∉ store.rows.map fun row => row.session.id then
    some
      { rows := store.rows ++ [row]
        nodup := by
          rw [List.map_append, List.map_singleton]
          exact List.nodup_append.mpr ⟨store.nodup, List.nodup_singleton _, fun a ha b hb heq =>
            h.2 (by rwa [← List.mem_singleton.mp hb, ← heq])⟩
        nonempty := by
          intro other hother
          rcases List.mem_append.mp hother with hold | hnew
          · exact store.nonempty other hold
          · rw [List.mem_singleton.mp hnew]
            exact h.1 }
  else none

def writeFingerprint (sessionId fingerprint : String) (row : SessionRow) : SessionRow :=
  if row.session.id = sessionId then
    { row with session := { row.session with fingerprintHash := fingerprint } }
  else row

theorem id_writeFingerprint (sessionId fingerprint : String) (row : SessionRow) :
    (writeFingerprint sessionId fingerprint row).session.id = row.session.id := by
  unfold writeFingerprint
  split <;> rfl

def setFingerprint (store : SessionStore) (sessionId fingerprint : String) : SessionStore where
  rows := store.rows.map (writeFingerprint sessionId fingerprint)
  nodup := by
    rw [List.map_map]
    exact (List.map_congr_left fun row _ => id_writeFingerprint _ _ row) ▸ store.nodup
  nonempty := by
    intro row hrow
    obtain ⟨old, hold, rfl⟩ := List.mem_map.mp hrow
    rw [id_writeFingerprint]
    exact store.nonempty old hold

/-- Every session of the user. -/
def listForUser (store : SessionStore) (userId : String) : List KnownSession :=
  (store.rows.filter fun row => row.userId = userId).map SessionRow.session

def revoke (store : SessionStore) (sessionId : String) : SessionStore where
  rows := store.rows.filter fun row => row.session.id ≠ sessionId
  nodup := store.nodup.sublist (List.filter_sublist.map _)
  nonempty := fun row hrow => store.nonempty row (List.mem_of_mem_filter hrow)

end SessionStore

/-! ## The runner -/

structure DeviceHandlingConfig where
  enabled : Bool
  maxDevicesPerUser : Nat
  fingerprintMode : FingerprintMode

structure SessionCreatedInput where
  sessionId : String
  userId : String
  userAgent : Option String
  ipAddress : Option String

section Runner

variable (digest : String → String)

def fingerprintOf (config : DeviceHandlingConfig) (input : SessionCreatedInput) : String :=
  fingerprintSession digest
    { userAgent := some (input.userAgent.getD "")
      ip := some (input.ipAddress.getD "")
      mode := config.fingerprintMode }

/-- What the runner leaves in the store, and the id of the session that it revokes. -/
def handleSessionCreated
    (config : DeviceHandlingConfig)
    (input : SessionCreatedInput)
    (store : SessionStore) : SessionStore × Option String :=
  if config.enabled then
    let fingerprint := fingerprintOf digest config input
    let written := store.setFingerprint input.sessionId fingerprint
    let known := written.listForUser input.userId
    match decideDeviceHandling fingerprint input.sessionId known config.maxDevicesPerUser with
    | .firstSignIn => (written, none)
    | .known => (written, none)
    | .newDevice revokeSessionId =>
        match Text.truthy revokeSessionId with
        | none => (written, none)
        | some sessionId => (written.revoke sessionId, some sessionId)
  else (store, none)

/-- A sign-in: its session is created at a time, and then handled. -/
structure SignIn where
  input : SessionCreatedInput
  createdAt : Int

def SignIn.row (signIn : SignIn) : SessionRow where
  userId := signIn.input.userId
  session :=
    { id := signIn.input.sessionId
      fingerprintHash := ""
      lastSeenAt := signIn.createdAt
      createdAt := signIn.createdAt }

/-- `none` where the session cannot be created. -/
def signIn (config : DeviceHandlingConfig) (store : SessionStore) (event : SignIn) :
    Option (SessionStore × Option String) :=
  (store.insert event.row).map (handleSessionCreated digest config event.input)

/-! ## The cap -/

/-- No session of the list is older. -/
def IsOldest (oldest : KnownSession) (sessions : List KnownSession) : Prop :=
  oldest ∈ sessions ∧ ∀ other ∈ sessions, isOlder other oldest = false

/-- What is to hold after a sign-in, given the sessions of the user before it. -/
structure CapHolds
    (maxDevicesPerUser : Nat)
    (event : SignIn)
    (others : List KnownSession)
    (result : SessionStore × Option String) : Prop where
  within : (result.1.listForUser event.input.userId).length ≤ maxDevicesPerUser
  notOwn : result.2 ≠ some event.input.sessionId
  oldest : ∀ id, result.2 = some id → ∃ session, session.id = id ∧ IsOldest session others

/-- The cap holds after every sign-in of the run; one that cannot be created changes nothing. -/
def CapKept (config : DeviceHandlingConfig) : SessionStore → List SignIn → Prop
  | _, [] => True
  | store, event :: rest =>
      match signIn digest config store event with
      | none => CapKept config store rest
      | some result =>
          CapHolds config.maxDevicesPerUser event (store.listForUser event.input.userId) result ∧
            CapKept config result.1 rest

/-- A device that another session of the user has. -/
def isKnownDevice (config : DeviceHandlingConfig) (store : SessionStore) (event : SignIn) : Bool :=
  (store.listForUser event.input.userId).any fun session =>
    session.fingerprintHash == fingerprintOf digest config event.input

/-- No known device signs in while its user has as many sessions as the cap allows. -/
def NoKnownDeviceAtCap (config : DeviceHandlingConfig) : SessionStore → List SignIn → Prop
  | _, [] => True
  | store, event :: rest =>
      match signIn digest config store event with
      | none => NoKnownDeviceAtCap config store rest
      | some result =>
          (isKnownDevice digest config store event = true →
            (store.listForUser event.input.userId).length < config.maxDevicesPerUser) ∧
            NoKnownDeviceAtCap config result.1 rest

end Runner

/-! ## The oldest session -/

section Oldest

theorem isOlder_iff {candidate oldest : KnownSession} :
    isOlder candidate oldest = true ↔
      candidate.lastSeenAt < oldest.lastSeenAt ∨
        candidate.lastSeenAt = oldest.lastSeenAt ∧ candidate.createdAt < oldest.createdAt := by
  simp [isOlder]

theorem isOldest_oldestOf (first : KnownSession) (rest : List KnownSession) :
    IsOldest (oldestOf first rest) (first :: rest) := by
  induction rest generalizing first with
  | nil =>
      refine ⟨List.mem_singleton_self _, fun other hother => ?_⟩
      rw [List.mem_singleton.mp hother, ← Bool.not_eq_true, isOlder_iff]
      unfold oldestOf
      simp
  | cons candidate rest ih =>
      have hstep : oldestOf first (candidate :: rest) =
          oldestOf (if isOlder candidate first then candidate else first) rest := rfl
      obtain ⟨hmem, hnone⟩ := ih (if isOlder candidate first then candidate else first)
      obtain ⟨hbest, hrest⟩ := List.forall_mem_cons.mp hnone
      rw [hstep]
      generalize oldestOf (if isOlder candidate first then candidate else first) rest = oldest at *
      have holder : ∀ other, other = first ∨ other = candidate → isOlder other oldest = false := by
        intro other hother
        rw [← Bool.not_eq_true] at hbest ⊢
        split at hbest
        · next hcandidate =>
            rw [isOlder_iff] at hcandidate hbest ⊢
            rcases hother with rfl | rfl <;> omega
        · next hcandidate =>
            rw [isOlder_iff] at hcandidate hbest ⊢
            rcases hother with rfl | rfl <;> omega
      refine ⟨?_, List.forall_mem_cons.mpr ⟨holder _ (.inl rfl),
        List.forall_mem_cons.mpr ⟨holder _ (.inr rfl), hrest⟩⟩⟩
      rcases List.mem_cons.mp hmem with heq | hlater
      · rw [heq]
        split
        · exact List.mem_cons_of_mem _ List.mem_cons_self
        · exact List.mem_cons_self
      · exact List.mem_cons_of_mem _ (List.mem_cons_of_mem _ hlater)

theorem selectOldestSessionForRevoke_spec {sessions : List KnownSession} (h : sessions ≠ []) :
    ∃ session, selectOldestSessionForRevoke sessions = some session.id ∧
      IsOldest session sessions := by
  obtain ⟨first, rest, rfl⟩ := List.exists_cons_of_ne_nil h
  exact ⟨_, rfl, isOldest_oldestOf first rest⟩

end Oldest

/-! ## The sessions of a user -/

section Sessions

namespace SessionStore

variable {store inserted : SessionStore}

theorem insert_cases {row : SessionRow} (h : store.insert row = some inserted) :
    inserted.rows = store.rows ++ [row] ∧ row.session.id ≠ "" ∧
      row.session.id ∉ store.rows.map fun row => row.session.id := by
  unfold insert at h
  split at h
  · next hfresh =>
      obtain rfl := Option.some.inj h
      exact ⟨rfl, hfresh⟩
  · cases h

variable {userId : String}
variable {session : KnownSession}

theorem mem_listForUser :
    session ∈ store.listForUser userId ↔ { userId := userId, session := session } ∈ store.rows := by
  unfold listForUser
  constructor
  · intro h
    obtain ⟨row, hrow, rfl⟩ := List.mem_map.mp h
    obtain ⟨hmem, huser⟩ := List.mem_filter.mp hrow
    obtain rfl := of_decide_eq_true huser
    exact hmem
  · intro h
    exact List.mem_map_of_mem (List.mem_filter.mpr ⟨h, decide_eq_true rfl⟩)

theorem nodup_listForUser (store : SessionStore) (userId : String) :
    ((store.listForUser userId).map KnownSession.id).Nodup := by
  unfold listForUser
  rw [List.map_map]
  exact store.nodup.sublist (List.filter_sublist.map _)

/-- The fingerprint is written to the new session only. -/
theorem listForUser_written
    {row : SessionRow}
    (h : store.insert row = some inserted)
    (fingerprint userId : String) :
    (inserted.setFingerprint row.session.id fingerprint).listForUser userId =
      store.listForUser userId ++
        if row.userId = userId then [{ row.session with fingerprintHash := fingerprint }] else [] := by
  obtain ⟨hrows, -, hfresh⟩ := insert_cases h
  have hold : store.rows.map (writeFingerprint row.session.id fingerprint) = store.rows := by
    refine (List.map_congr_left fun old hmem => ?_).trans (List.map_id _)
    have hne : old.session.id ≠ row.session.id := fun heq =>
      hfresh (heq ▸ List.mem_map_of_mem hmem)
    rw [writeFingerprint, if_neg hne]
    rfl
  have hnew : writeFingerprint row.session.id fingerprint row =
      { row with session := { row.session with fingerprintHash := fingerprint } } := if_pos rfl
  unfold listForUser setFingerprint
  dsimp only
  rw [hrows, List.map_append, hold, List.map_singleton, hnew, List.filter_append, List.map_append]
  congr 1
  by_cases huser : row.userId = userId
  · rw [if_pos huser, List.filter_singleton, decide_eq_true huser]
    rfl
  · rw [if_neg huser, List.filter_singleton, decide_eq_false huser]
    rfl

theorem listForUser_revoke (store : SessionStore) (sessionId userId : String) :
    (store.revoke sessionId).listForUser userId =
      (store.listForUser userId).filter fun session => session.id ≠ sessionId := by
  unfold listForUser revoke
  dsimp only
  rw [List.filter_map, List.filter_filter, List.filter_filter]
  congr 1
  exact List.filter_congr fun row _ => Bool.and_comm _ _

/-- A revoked session is missing in the list of its user. -/
theorem length_listForUser_revoke (h : session ∈ store.listForUser userId) :
    ((store.revoke session.id).listForUser userId).length + 1 = (store.listForUser userId).length := by
  have hone : (store.listForUser userId).countP (fun other => decide (other.id = session.id)) = 1 := by
    have hcount := List.count_eq_one_of_mem (store.nodup_listForUser userId)
      (List.mem_map_of_mem (f := KnownSession.id) h)
    rw [List.count, List.countP_map] at hcount
    rw [← hcount]
    exact List.countP_congr fun other _ => by simp
  rw [listForUser_revoke, ← List.countP_eq_length_filter,
    List.length_eq_countP_add_countP (fun other => decide (other.id = session.id)), hone, Nat.add_comm]
  congr 1
  exact List.countP_congr fun other _ => by simp

/-- The sessions of other users are not touched. -/
theorem listForUser_revoke_of_ne
    {other : String}
    (h : session ∈ store.listForUser userId)
    (hne : other ≠ userId) :
    (store.revoke session.id).listForUser other = store.listForUser other := by
  rw [listForUser_revoke, List.filter_eq_self]
  intro found hfound
  refine decide_eq_true fun hid => hne ?_
  have hsame := List.inj_on_of_nodup_map store.nodup (mem_listForUser.mp hfound)
    (mem_listForUser.mp h) hid
  exact congrArg SessionRow.userId hsame

end SessionStore

end Sessions

/-! ## Sign-ins -/

section SignIns

variable {digest : String → String}
variable {config : DeviceHandlingConfig}
variable {store : SessionStore}
variable {event : SignIn}
variable {result : SessionStore × Option String}

/-- A sign-in adds its session, and revokes the oldest other one when its device is new and the
cap is reached. -/
theorem signIn_cases
    (henabled : config.enabled = true)
    (h : signIn digest config store event = some result) :
    (∀ other ≠ event.input.userId, result.1.listForUser other = store.listForUser other) ∧
      ((result.2 = none ∧
          (result.1.listForUser event.input.userId).length =
            (store.listForUser event.input.userId).length + 1 ∧
          (store.listForUser event.input.userId = [] ∨ isKnownDevice digest config store event = true ∨
            (store.listForUser event.input.userId).length < config.maxDevicesPerUser)) ∨
        (isKnownDevice digest config store event = false ∧
          (result.1.listForUser event.input.userId).length =
            (store.listForUser event.input.userId).length ∧
          ∃ session, result.2 = some session.id ∧ session.id ≠ event.input.sessionId ∧
            IsOldest session (store.listForUser event.input.userId))) := by
  obtain ⟨inserted, hinsert, rfl⟩ := Option.map_eq_some_iff.mp h
  obtain ⟨-, hidNonempty, hfresh⟩ := SessionStore.insert_cases hinsert
  set written := inserted.setFingerprint event.input.sessionId
    (fingerprintOf digest config event.input) with hwritten
  have hlist (userId : String) :
      written.listForUser userId = store.listForUser userId ++
        if event.input.userId = userId then
          [{ event.row.session with fingerprintHash := fingerprintOf digest config event.input }]
        else [] :=
    SessionStore.listForUser_written hinsert (fingerprintOf digest config event.input) userId
  have hnew {session : KnownSession} (hsession : session ∈ store.listForUser event.input.userId) :
      session.id ≠ event.input.sessionId := by
    intro heq
    refine hfresh ?_
    change event.input.sessionId ∈ _
    rw [← heq]
    exact List.mem_map_of_mem (SessionStore.mem_listForUser.mp hsession)
  have hothers : (written.listForUser event.input.userId).filter
      (fun session => decide (session.id ≠ event.input.sessionId)) =
        store.listForUser event.input.userId := by
    rw [hlist, List.filter_append, if_pos rfl,
      List.filter_eq_self.mpr fun session hsession => decide_eq_true (hnew hsession)]
    simp [SignIn.row]
  have hlength : (written.listForUser event.input.userId).length =
      (store.listForUser event.input.userId).length + 1 := by
    rw [hlist, List.length_append, if_pos rfl]
    rfl
  have hotherUsers (other : String) (hne : other ≠ event.input.userId) :
      written.listForUser other = store.listForUser other := by
    rw [hlist, if_neg (Ne.symm hne), List.append_nil]
  unfold handleSessionCreated decideDeviceHandling
  dsimp only
  rw [← hwritten, if_pos henabled, hothers]
  by_cases hempty : store.listForUser event.input.userId = []
  · rw [if_pos hempty]
    exact ⟨hotherUsers, .inl ⟨rfl, hlength, .inl hempty⟩⟩
  rw [if_neg hempty]
  cases hknown : isKnownDevice digest config store event with
  | true =>
      have hany : ((store.listForUser event.input.userId).any fun session =>
          session.fingerprintHash == fingerprintOf digest config event.input) = true := hknown
      rw [if_pos hany]
      exact ⟨hotherUsers, .inl ⟨rfl, hlength, .inr (.inl rfl)⟩⟩
  | false =>
      have hnone : ((store.listForUser event.input.userId).any fun session =>
          session.fingerprintHash == fingerprintOf digest config event.input) = false := hknown
      rw [if_neg (ne_true_of_eq_false hnone)]
      by_cases hfull : config.maxDevicesPerUser < (store.listForUser event.input.userId).length + 1
      · obtain ⟨session, hselected, holdest⟩ := selectOldestSessionForRevoke_spec hempty
        have hmem := SessionStore.mem_listForUser.mp holdest.1
        have htruthy : Text.truthy (some session.id) = some session.id :=
          Text.truthy_eq_some_iff.mpr ⟨rfl, store.nonempty _ hmem⟩
        have hlisted : session ∈ written.listForUser event.input.userId := by
          rw [← hothers] at holdest
          exact List.mem_of_mem_filter holdest.1
        rw [if_pos hfull, hselected]
        dsimp only
        rw [htruthy]
        dsimp only
        refine ⟨fun other hne => ?_, .inr ⟨rfl, ?_, session, rfl, hnew holdest.1, holdest⟩⟩
        · rw [SessionStore.listForUser_revoke_of_ne hlisted hne, hotherUsers other hne]
        · have hrevoked := SessionStore.length_listForUser_revoke hlisted
          omega
      · rw [if_neg hfull]
        exact ⟨hotherUsers, .inl ⟨rfl, hlength, .inr (.inr (by omega))⟩⟩

/-- The cap holds after a sign-in exactly when it is not one of a known device at the cap. -/
theorem capHolds_iff
    (henabled : config.enabled = true)
    (hcap : 1 ≤ config.maxDevicesPerUser)
    (hwithin : (store.listForUser event.input.userId).length ≤ config.maxDevicesPerUser)
    (h : signIn digest config store event = some result) :
    CapHolds config.maxDevicesPerUser event (store.listForUser event.input.userId) result ↔
      (isKnownDevice digest config store event = true →
        (store.listForUser event.input.userId).length < config.maxDevicesPerUser) := by
  obtain ⟨-, ⟨hnone, hlength, hcase⟩ | ⟨hnew, hlength, session, hrevoked, hown, holdest⟩⟩ :=
    signIn_cases henabled h
  · constructor
    · intro hholds _
      have hle := hholds.within
      omega
    · intro hcondition
      refine ⟨?_, ?_, fun id hid => ?_⟩
      · rcases hcase with hempty | hknown | hbelow
        · rw [hempty] at hlength
          rw [hlength]
          exact hcap
        · have hbelow := hcondition hknown
          omega
        · omega
      · rw [hnone]
        exact (Option.some_ne_none _).symm
      · rw [hnone] at hid
        cases hid
  · refine iff_of_true ⟨by omega, ?_, fun id hid => ?_⟩ fun hknown => ?_
    · rw [hrevoked]
      exact fun heq => hown (Option.some.inj heq)
    · rw [hrevoked] at hid
      exact ⟨session, Option.some.inj hid, holdest⟩
    · rw [hnew] at hknown
      cases hknown

/-- In a run that starts within the cap, the cap holds after every sign-in exactly when no known
device signs in at the cap. -/
theorem capKept_iff
    {events : List SignIn}
    (henabled : config.enabled = true)
    (hcap : 1 ≤ config.maxDevicesPerUser)
    (hwithin : ∀ event ∈ events,
      (store.listForUser event.input.userId).length ≤ config.maxDevicesPerUser) :
    CapKept digest config store events ↔ NoKnownDeviceAtCap digest config store events := by
  induction events generalizing store with
  | nil => exact Iff.rfl
  | cons event rest ih =>
      obtain ⟨hfirst, hrest⟩ := List.forall_mem_cons.mp hwithin
      rw [CapKept, NoKnownDeviceAtCap]
      cases hsign : signIn digest config store event with
      | none => exact ih hrest
      | some result =>
          dsimp only
          rw [← capHolds_iff henabled hcap hfirst hsign]
          refine and_congr_right fun hholds => ih fun later hlater => ?_
          by_cases huser : later.input.userId = event.input.userId
          · rw [huser]
            exact hholds.within
          · rw [(signIn_cases henabled hsign).1 _ huser]
            exact hrest later hlater

/-- One user, whose devices are told apart by their user agents. -/
def signInOf (sessionId userAgent : String) (createdAt : Int) : SignIn where
  input :=
    { sessionId := sessionId
      userId := "user"
      userAgent := some userAgent
      ipAddress := none }
  createdAt := createdAt

def noSessions : SessionStore where
  rows := []
  nodup := List.nodup_nil
  nonempty := fun _ h => absurd h List.not_mem_nil

def capOfOne : DeviceHandlingConfig where
  enabled := true
  maxDevicesPerUser := 1
  fingerprintMode := .userAgent

theorem capKept_twoDevices :
    CapKept id capOfOne noSessions [signInOf "1" "a" 1, signInOf "2" "b" 2] ↔
      NoKnownDeviceAtCap id capOfOne noSessions [signInOf "1" "a" 1, signInOf "2" "b" 2] :=
  capKept_iff rfl (by decide) (by decide)

/-- The second sign-in of one device leaves two sessions where one is allowed. -/
theorem not_capKept_oneDevice :
    ¬CapKept id capOfOne noSessions [signInOf "1" "a" 1, signInOf "2" "a" 2] := by
  have hfirst : ∃ result, signIn id capOfOne noSessions (signInOf "1" "a" 1) = some result ∧
      ∃ second, signIn id capOfOne result.1 (signInOf "2" "a" 2) = some second ∧
        (second.1.listForUser "user").length = 2 := ⟨_, rfl, _, rfl, by decide +kernel⟩
  obtain ⟨result, hresult, second, hsecond, hlength⟩ := hfirst
  rw [CapKept, hresult]
  rintro ⟨-, hrest⟩
  rw [CapKept, hsecond] at hrest
  have hle := hrest.1.within
  change (second.1.listForUser "user").length ≤ 1 at hle
  omega

end SignIns

end DeviceHandling
end Core
end NestBase
