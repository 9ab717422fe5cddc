import NestBase.Core.Examples
import NestBase.Lib.Transition

/-!
# The profile of a user

`getOrCreate` looks the profile of a user up and, when it finds none, creates
one in a second transaction.  `update` runs a third one.  Row level security
hides the rows of other tenants from the lookup, while `user_id` is unique in the
whole table.

So a create fails when the user has a profile of another tenant, or one that
another call has created since the lookup.  As long as a create runs only while
the user has no profile (`CreatesFirst`), every call returns a profile of its
user.
-/

namespace NestBase
namespace UserProfiles

open Lib
open Files (isUuid takesText)

/-! ## Rows -/

/-- A uuid as its column holds it. -/
structure StoredUuid where
  value : String
  valid : isUuid value = true
  stored : Text.asciiLowerCase value = value
  deriving DecidableEq

structure UserProfile where
  id : String
  userId : StoredUuid
  tenantId : StoredUuid
  displayName : Option String
  avatarUrl : Option String
  bio : Option String
  phoneNumber : Option String
  preferences : Json
  createdAt : Int
  updatedAt : Int

/-- The table `user_profiles`; it has one row for a user at most. -/
structure ProfileTable where
  rows : List UserProfile
  users_nodup : KeysNodup UserProfile.userId rows

inductive ProfileError where
  | rlsTenantMissing
  | error (message : String)
  /-- The row is not of the tenant of the transaction. -/
  | rowLevelSecurity
  /-- P2002 -/
  | uniqueConstraint (column : String)
  /-- P2025 -/
  | recordNotFound
  /-- A value that the column does not take. -/
  | invalidValue
  deriving DecidableEq

/-! ## Statements -/

mutual

/-- A `jsonb` column takes no U+0000. -/
def takesJson : Json → Bool
  | .str text => takesText text
  | .arr items => takesItems items
  | .obj entries => takesEntries entries
  | _ => true

def takesItems : List Json → Bool
  | [] => true
  | item :: rest => takesJson item && takesItems rest

def takesEntries : List (String × Json) → Bool
  | [] => true
  | (key, value) :: rest => takesText key && takesJson value && takesEntries rest

end

/-- The body of PATCH; a field that is `none` is undefined, and `some none` is null. -/
structure UpdateUserProfileDto where
  displayName : Option (Option String)
  avatarUrl : Option (Option String)
  bio : Option (Option String)
  phoneNumber : Option (Option String)
  preferences : Option Json

/-- The columns take the values of the body. -/
def UpdateUserProfileDto.taken (dto : UpdateUserProfileDto) : Bool :=
  [dto.displayName, dto.avatarUrl, dto.bio, dto.phoneNumber].all
      (fun field => field.all fun value => value.all takesText) &&
    dto.preferences.all takesJson

def UpdateUserProfileDto.apply (dto : UpdateUserProfileDto) (now : Int) (row : UserProfile) :
    UserProfile :=
  { row with
    displayName := dto.displayName.getD row.displayName
    avatarUrl := dto.avatarUrl.getD row.avatarUrl
    bio := dto.bio.getD row.bio
    phoneNumber := dto.phoneNumber.getD row.phoneNumber
    preferences := dto.preferences.getD row.preferences
    updatedAt := now }

/-- The row of a user, in a transaction whose `app.tenant_id` is `setting`. -/
def ProfileTable.find? (table : ProfileTable) (setting : String) (userId : StoredUuid) :
    Option UserProfile :=
  (findRow UserProfile.userId userId table.rows).filter fun row =>
    decide (row.tenantId.value = setting)

/-- `tx.userProfile.findUnique({ where: { userId } })` -/
def profileFindUnique (setting : String) (userId : StoredUuid) :
    Body ProfileTable ProfileError (Option UserProfile) :=
  fun table => .ok (table.find? setting userId, table)

/-- `tx.userProfile.create({ data })` -/
def profileCreate (setting : String) (row : UserProfile) :
    Body ProfileTable ProfileError UserProfile :=
  fun table =>
    if row.tenantId.value ≠ setting then .error .rowLevelSecurity
    else if row.id ∈ table.rows.map UserProfile.id then .error (.uniqueConstraint "id")
    else
      match h : insertRow UserProfile.userId row table.rows with
      | none => .error (.uniqueConstraint "user_id")
      | some rows => .ok (row, { rows := rows, users_nodup := table.users_nodup.insertRow h })

def ProfileTable.change
    (table : ProfileTable) (userId : StoredUuid) (dto : UpdateUserProfileDto) (now : Int) :
    ProfileTable where
  rows := updateMany (fun row => decide (row.userId = userId)) (dto.apply now) table.rows
  users_nodup := table.users_nodup.updateMany _ fun _ => rfl

/-- `tx.userProfile.update({ where: { userId }, data })` -/
def profileUpdate (setting : String) (userId : StoredUuid) (dto : UpdateUserProfileDto)
    (now : Int) :
    Body ProfileTable ProfileError UserProfile :=
  fun table =>
    match table.find? setting userId with
    | none => .error .recordNotFound
    | some row =>
        if dto.taken then .ok (dto.apply now row, table.change userId dto now)
        else .error .invalidValue

/-- The body sees `app.tenant_id` set to the tenant. -/
def runWithRlsTenant
    {α : Type} (fn : String → Body ProfileTable ProfileError α)
    (tenantId : String) (table : ProfileTable) :
    Except ProfileError α × ProfileTable :=
  if tenantId = "" then (.error .rlsTenantMissing, table)
  else if !isUuid tenantId then
    (.error (.error "runWithRlsTenant: invalid tenant ID format"), table)
  else transaction none (fn tenantId) table

/-! ## The service -/

structure UserProfileResponse where
  id : String
  userId : String
  displayName : Option String
  avatarUrl : Option String
  bio : Option String
  phoneNumber : Option String
  preferences : Json
  createdAt : String
  updatedAt : String

def toResponse (record : UserProfile) : UserProfileResponse where
  id := record.id
  userId := record.userId.value
  displayName := record.displayName
  avatarUrl := record.avatarUrl
  bio := record.bio
  phoneNumber := record.phoneNumber
  preferences := record.preferences
  createdAt := Examples.toISOString record.createdAt
  updatedAt := Examples.toISOString record.updatedAt

def findRaw (tenantId userId : StoredUuid) (table : ProfileTable) :
    Except ProfileError (Option UserProfile) × ProfileTable :=
  runWithRlsTenant
    (fun setting => do
      let found ← profileFindUnique setting userId
      pure (found.filter fun row => decide (row.tenantId = tenantId)))
    tenantId.value table

/-- The transaction of `getOrCreate` that creates; `id` is drawn and `now` is the time. -/
def createEmpty (tenantId userId : StoredUuid) (id : String) (now : Int) (table : ProfileTable) :
    Except ProfileError UserProfile × ProfileTable :=
  runWithRlsTenant
    (fun setting => profileCreate setting
      { id := id
        userId := userId
        tenantId := tenantId
        displayName := none
        avatarUrl := none
        bio := none
        phoneNumber := none
        preferences := .obj []
        createdAt := now
        updatedAt := now })
    tenantId.value table

/-- The transaction of `update` that writes. -/
def applyUpdate (tenantId userId : StoredUuid) (dto : UpdateUserProfileDto) (now : Int)
    (table : ProfileTable) :
    Except ProfileError UserProfile × ProfileTable :=
  runWithRlsTenant (fun setting => profileUpdate setting userId dto now) tenantId.value table

/-! ## Calls -/

/-- A call of `getOrCreate`, or of `update` with its body. -/
structure Operation where
  tenantId : StoredUuid
  userId : StoredUuid
  dto : Option UpdateUserProfileDto

/-- Where a call is: before its next transaction, or at its end. -/
inductive Call where
  | notStarted
  | finding (op : Operation)
  | creating (op : Operation)
  | updating (op : Operation) (dto : UpdateUserProfileDto)
  | returned (op : Operation) (response : UserProfileResponse)
  | failed (op : Operation) (error : ProfileError)

structure World where
  table : ProfileTable
  calls : Nat → Call

inductive Event where
  | call (c : Nat) (op : Operation)
  /-- Call `c` looks the profile up. -/
  | find (c : Nat)
  /-- Call `c` creates a profile under an id that no row has. -/
  | create (c : Nat) (id : String) (now : Int)
  | update (c : Nat) (now : Int)

def initialWorld (table : ProfileTable) : World where
  table := table
  calls := fun _ => .notStarted

/-- `getOrCreate` has its profile: it returns, or `update` goes on. -/
def afterGet (op : Operation) (record : UserProfile) : Call :=
  match op.dto with
  | none => .returned op (toResponse record)
  | some dto => .updating op dto

/-- The call after its lookup. -/
def afterFind (op : Operation) : Except ProfileError (Option UserProfile) → Call
  | .error error => .failed op error
  | .ok none => .creating op
  | .ok (some record) => afterGet op record

/-- The call after its create. -/
def afterCreate (op : Operation) : Except ProfileError UserProfile → Call
  | .error error => .failed op error
  | .ok record => afterGet op record

/-- The call after its update. -/
def afterUpdate (op : Operation) : Except ProfileError UserProfile → Call
  | .error error => .failed op error
  | .ok record => .returned op (toResponse record)

/-- A transaction of call `c` has ended. -/
def World.ended (w : World) (c : Nat) (phase : Call) (table : ProfileTable) : World where
  table := table
  calls := Function.update w.calls c phase

/-- One transaction; `none` when the call is not before it. -/
def step (w : World) : Event → Option World
  | .call c op =>
      match w.calls c with
      | .notStarted => some (w.ended c (.finding op) w.table)
      | _ => none
  | .find c =>
      match w.calls c with
      | .finding op =>
          let result := findRaw op.tenantId op.userId w.table
          some (w.ended c (afterFind op result.1) result.2)
      | _ => none
  | .create c id now =>
      match w.calls c with
      | .creating op =>
          if id ∈ w.table.rows.map UserProfile.id then none
          else
            let result := createEmpty op.tenantId op.userId id now w.table
            some (w.ended c (afterCreate op result.1) result.2)
      | _ => none
  | .update c now =>
      match w.calls c with
      | .updating op dto =>
          let result := applyUpdate op.tenantId op.userId dto now w.table
          some (w.ended c (afterUpdate op result.1) result.2)
      | _ => none

/-! ## What every call is promised -/

/-- The transactions a call still has before it at most. -/
def remaining : Call → Nat
  | .finding _ => 3
  | .creating _ => 2
  | .updating _ _ => 1
  | _ => 0

structure Served (w : World) : Prop where
  profile : ∀ c op response, w.calls c = .returned op response → response.userId = op.userId.value
  noFailure : ∀ c op error, w.calls c ≠ .failed op error
  /-- A call that has not ended can take its next transaction. -/
  progress : ∀ c, 0 < remaining (w.calls c) →
    ∃ e w', step w e = some w' ∧ remaining (w'.calls c) < remaining (w.calls c)
  unique : KeysNodup UserProfile.userId w.table.rows

/-- A create runs while its user has no profile, and an update writes what the columns take. -/
def CreatesFirst (w : World) : Event → Prop
  | .create c _ _ => ∀ op, w.calls c = .creating op → ∀ row ∈ w.table.rows, row.userId ≠ op.userId
  | .update c _ => ∀ op dto, w.calls c = .updating op dto → dto.taken = true
  | _ => True

/-! ## The transactions -/

theorem StoredUuid.ext_value {a b : StoredUuid} (h : a.value = b.value) : a = b := by
  cases a with
  | mk value valid stored =>
      cases b with
      | mk value' valid' stored' =>
          change value = value' at h
          subst h
          rfl

/-- The id of a tenant passes the checks of `runWithRlsTenant`. -/
theorem runWithRlsTenant_eq
    {α : Type} (fn : String → Body ProfileTable ProfileError α)
    (tenantId : StoredUuid) (table : ProfileTable) :
    runWithRlsTenant fn tenantId.value table = transaction none (fn tenantId.value) table := by
  have hvalid := tenantId.valid
  have hne : tenantId.value ≠ "" := by
    intro hempty
    rw [hempty] at hvalid
    exact absurd hvalid (by decide)
  unfold runWithRlsTenant
  rw [if_neg hne, hvalid]
  rfl

/-- The profile of a user, when it is one of the tenant. -/
def profileOf (table : ProfileTable) (tenantId userId : StoredUuid) : Option UserProfile :=
  (findRow UserProfile.userId userId table.rows).filter fun row =>
    decide (row.tenantId = tenantId)

theorem find?_eq_profileOf (table : ProfileTable) (tenantId userId : StoredUuid) :
    table.find? tenantId.value userId = profileOf table tenantId userId := by
  unfold ProfileTable.find? profileOf
  congr 1
  funext row
  rw [decide_eq_decide]
  exact ⟨StoredUuid.ext_value, congrArg StoredUuid.value⟩

/-- A lookup finds the profile of the tenant and changes nothing. -/
theorem findRaw_eq (tenantId userId : StoredUuid) (table : ProfileTable) :
    findRaw tenantId userId table = (.ok (profileOf table tenantId userId), table) := by
  have hfilter :
      (profileOf table tenantId userId).filter (fun row => decide (row.tenantId = tenantId)) =
        profileOf table tenantId userId := by
    unfold profileOf
    rw [Option.filter_filter]
    simp
  unfold findRaw
  rw [runWithRlsTenant_eq]
  change (Except.ok ((table.find? tenantId.value userId).filter _), table) = _
  rw [find?_eq_profileOf, hfilter]

variable {table : ProfileTable}
variable {userId : StoredUuid}

theorem createEmpty_of_free
    {id : String}
    (tenantId : StoredUuid)
    (now : Int)
    (hid : id ∉ table.rows.map UserProfile.id)
    (hfree : ∀ row ∈ table.rows, row.userId ≠ userId) :
    ∃ record table',
      createEmpty tenantId userId id now table = (.ok record, table') ∧
        record.userId = userId ∧ record.tenantId = tenantId ∧
          table'.rows = table.rows ++ [record] := by
  let record : UserProfile :=
    { id := id
      userId := userId
      tenantId := tenantId
      displayName := none
      avatarUrl := none
      bio := none
      phoneNumber := none
      preferences := .obj []
      createdAt := now
      updatedAt := now }
  have hnone : findRow UserProfile.userId record.userId table.rows = none :=
    findRow_eq_none_of_forall_ne hfree
  have hinsert : insertRow UserProfile.userId record table.rows = some (table.rows ++ [record]) :=
    insertRow_eq_some_iff.mpr ⟨hnone, rfl⟩
  refine ⟨record, ⟨table.rows ++ [record], table.users_nodup.insertRow hinsert⟩, ?_, rfl, rfl, rfl⟩
  have hcreate : profileCreate tenantId.value record table =
      .ok (record, ⟨table.rows ++ [record], table.users_nodup.insertRow hinsert⟩) := by
    unfold profileCreate
    rw [if_neg (not_not.mpr rfl), if_neg hid]
    split
    · next hnot =>
        rw [hinsert] at hnot
        cases hnot
    · next rows hrows =>
        obtain rfl := Option.some.inj (hinsert.symm.trans hrows)
        rfl
  unfold createEmpty
  rw [runWithRlsTenant_eq]
  unfold transaction
  rw [hcreate]

theorem applyUpdate_of_profile
    {tenantId : StoredUuid} {dto : UpdateUserProfileDto} {row : UserProfile}
    (now : Int)
    (hprofile : profileOf table tenantId userId = some row)
    (htaken : dto.taken = true) :
    applyUpdate tenantId userId dto now table =
      (.ok (dto.apply now row), table.change userId dto now) := by
  have hupdate : profileUpdate tenantId.value userId dto now table =
      .ok (dto.apply now row, table.change userId dto now) := by
    unfold profileUpdate
    rw [find?_eq_profileOf, hprofile]
    exact if_pos htaken
  unfold applyUpdate
  rw [runWithRlsTenant_eq]
  unfold transaction
  rw [hupdate]

/-! ## Profiles stay -/

theorem userId_of_profileOf
    {tenantId : StoredUuid} {row : UserProfile}
    (h : profileOf table tenantId userId = some row) :
    row.userId = userId := by
  obtain ⟨hfound, -⟩ := Option.filter_eq_some_iff.mp h
  exact key_of_findRow hfound

/-- The user has a profile of the tenant. -/
def HasProfile (table : ProfileTable) (op : Operation) : Prop :=
  ∃ row, profileOf table op.tenantId op.userId = some row

variable {op : Operation}

theorem HasProfile.append
    {table' : ProfileTable} {record : UserProfile}
    (h : HasProfile table op)
    (hrows : table'.rows = table.rows ++ [record]) :
    HasProfile table' op := by
  obtain ⟨row, hrow⟩ := h
  obtain ⟨hfound, htenant⟩ := Option.filter_eq_some_iff.mp hrow
  refine ⟨row, Option.filter_eq_some_iff.mpr ⟨?_, htenant⟩⟩
  unfold findRow at hfound ⊢
  rw [hrows, List.find?_append, hfound]
  rfl

theorem HasProfile.change
    (h : HasProfile table op)
    (userId : StoredUuid) (dto : UpdateUserProfileDto) (now : Int) :
    HasProfile (table.change userId dto now) op := by
  obtain ⟨row, hrow⟩ := h
  obtain ⟨hfound, htenant⟩ := Option.filter_eq_some_iff.mp hrow
  have hkey : ∀ row, (dto.apply now row).userId = row.userId := fun _ => rfl
  have hchanged : findRow UserProfile.userId op.userId (table.change userId dto now).rows =
      some (if decide (row.userId = userId) = true then dto.apply now row else row) := by
    have hmap :=
      findRow_updateMany (fun row => decide (row.userId = userId)) hkey op.userId table.rows
    rw [hfound] at hmap
    exact hmap
  refine ⟨_, Option.filter_eq_some_iff.mpr ⟨hchanged, ?_⟩⟩
  split <;> exact htenant

theorem hasProfile_of_created
    {table' : ProfileTable} {record : UserProfile}
    (hfree : ∀ row ∈ table.rows, row.userId ≠ op.userId)
    (hrows : table'.rows = table.rows ++ [record])
    (huser : record.userId = op.userId)
    (htenant : record.tenantId = op.tenantId) :
    HasProfile table' op := by
  have hnone : findRow UserProfile.userId op.userId table.rows = none :=
    findRow_eq_none_of_forall_ne hfree
  refine ⟨record, Option.filter_eq_some_iff.mpr ⟨?_, by simpa using htenant⟩⟩
  unfold findRow at hnone ⊢
  rw [hrows, List.find?_append, hnone]
  simp [huser]

/-! ## The invariant -/

/-- What the place of a call says about the table. -/
def CallTracked (table : ProfileTable) : Call → Prop
  | .updating op _ => HasProfile table op
  | .returned op response => response.userId = op.userId.value
  | .failed _ _ => False
  | _ => True

def Tracked (w : World) : Prop :=
  ∀ c, CallTracked w.table (w.calls c)

variable {w : World}

/-- The places of the other calls say the same when no profile is lost. -/
theorem Tracked.ended
    {c : Nat} {phase : Call}
    (h : Tracked w)
    (hkeep : ∀ op, HasProfile w.table op → HasProfile table op)
    (hphase : CallTracked table phase) :
    Tracked (w.ended c phase table) := by
  intro d
  by_cases hd : d = c
  · subst hd
    simpa [World.ended] using hphase
  · have hother := h d
    simp only [World.ended, Function.update_of_ne hd]
    cases hcall : w.calls d with
    | updating op dto =>
        rw [hcall] at hother
        exact hkeep op hother
    | notStarted => trivial
    | finding op => trivial
    | creating op => trivial
    | returned op response =>
        rw [hcall] at hother
        exact hother
    | failed op error =>
        rw [hcall] at hother
        exact hother

/-- A call that has its profile returns it, or goes on to update it. -/
theorem callTracked_afterGet
    {record : UserProfile}
    (hprofile : HasProfile table op)
    (huser : record.userId = op.userId) :
    CallTracked table (afterGet op record) := by
  unfold afterGet
  cases op.dto with
  | none => exact congrArg StoredUuid.value huser
  | some dto => exact hprofile

theorem tracked_step
    {w' : World} {e : Event}
    (h : Tracked w)
    (hguard : CreatesFirst w e)
    (hstep : step w e = some w') :
    Tracked w' := by
  cases e with
  | call c op =>
      simp only [step] at hstep
      split at hstep
      · obtain rfl := Option.some.inj hstep
        exact h.ended (fun _ hprofile => hprofile) trivial
      · cases hstep
  | find c =>
      simp only [step] at hstep
      split at hstep
      · next op hcall =>
        obtain rfl := Option.some.inj hstep
        rw [findRaw_eq]
        refine h.ended (fun _ hprofile => hprofile) ?_
        cases hfound : profileOf w.table op.tenantId op.userId with
        | none => trivial
        | some record =>
            exact callTracked_afterGet ⟨record, hfound⟩ (userId_of_profileOf hfound)
      · cases hstep
  | create c id now =>
      simp only [step] at hstep
      split at hstep
      · next op hcall =>
        split at hstep
        · cases hstep
        · next hid =>
          obtain rfl := Option.some.inj hstep
          have hfree := hguard op hcall
          obtain ⟨record, table', hcreate, huser, htenant, hrows⟩ :=
            createEmpty_of_free op.tenantId now hid hfree
          rw [hcreate]
          refine h.ended (fun _ hprofile => hprofile.append hrows) ?_
          exact callTracked_afterGet (hasProfile_of_created hfree hrows huser htenant) huser
      · cases hstep
  | update c now =>
      simp only [step] at hstep
      split at hstep
      · next op dto hcall =>
        obtain rfl := Option.some.inj hstep
        have hprofile : CallTracked w.table (.updating op dto) := hcall ▸ h c
        obtain ⟨row, hrow⟩ := hprofile
        rw [applyUpdate_of_profile now hrow (hguard op dto hcall)]
        refine h.ended (fun _ hother => hother.change op.userId dto now) ?_
        have huser : row.userId = op.userId := userId_of_profileOf hrow
        exact congrArg StoredUuid.value huser
      · cases hstep

/-! ## Calls end -/

theorem remaining_afterGet_le (op : Operation) (record : UserProfile) :
    remaining (afterGet op record) ≤ 1 := by
  unfold afterGet
  cases op.dto with
  | none => exact Nat.zero_le 1
  | some dto => exact le_rfl

/-- A call that has not ended can take its next transaction, and comes nearer to its end. -/
theorem exists_step_of_remaining {c : Nat} (h : 0 < remaining (w.calls c)) :
    ∃ e w', step w e = some w' ∧ remaining (w'.calls c) < remaining (w.calls c) := by
  cases hcall : w.calls c with
  | notStarted =>
      rw [hcall] at h
      cases h
  | finding op =>
      have hstep : step w (.find c) =
          some (w.ended c (afterFind op (findRaw op.tenantId op.userId w.table).1)
            (findRaw op.tenantId op.userId w.table).2) := by
        simp only [step, hcall]
      refine ⟨.find c, _, hstep, ?_⟩
      simp only [World.ended, Function.update_self]
      have hget := remaining_afterGet_le op
      unfold afterFind
      split
      · exact Nat.zero_lt_succ 2
      · exact Nat.lt_succ_self 2
      · next record _ => exact Nat.lt_succ_of_le ((hget record).trans (Nat.le_succ 1))
  | creating op =>
      obtain ⟨id, hid⟩ := Infinite.exists_notMem_finset (w.table.rows.map UserProfile.id).toFinset
      rw [List.mem_toFinset] at hid
      have hstep : step w (.create c id 0) =
          some (w.ended c (afterCreate op (createEmpty op.tenantId op.userId id 0 w.table).1)
            (createEmpty op.tenantId op.userId id 0 w.table).2) := by
        simp only [step, hcall, if_neg hid]
      refine ⟨.create c id 0, _, hstep, ?_⟩
      simp only [World.ended, Function.update_self]
      have hget := remaining_afterGet_le op
      unfold afterCreate
      split
      · exact Nat.zero_lt_succ 1
      · next record _ => exact Nat.lt_succ_of_le (hget record)
  | updating op dto =>
      have hstep : step w (.update c 0) =
          some (w.ended c (afterUpdate op (applyUpdate op.tenantId op.userId dto 0 w.table).1)
            (applyUpdate op.tenantId op.userId dto 0 w.table).2) := by
        simp only [step, hcall]
      refine ⟨.update c 0, _, hstep, ?_⟩
      simp only [World.ended, Function.update_self]
      unfold afterUpdate
      split <;> exact Nat.zero_lt_one
  | returned op response =>
      rw [hcall] at h
      cases h
  | failed op error =>
      rw [hcall] at h
      cases h

/--
In every run in which a create runs only while its user has no profile, and
updates write what their columns take, every call returns a profile of its user.
-/
theorem served_of_createsFirst
    (table : ProfileTable)
    (w : World)
    (hrun : Reaches step CreatesFirst (initialWorld table) w) :
    Served w := by
  have htracked : Tracked w :=
    hrun.invariant (fun _ => trivial) fun _ _ _ h hguard hstep => tracked_step h hguard hstep
  constructor
  case profile =>
    intro c op response hcall
    have hphase : CallTracked w.table (.returned op response) := hcall ▸ htracked c
    exact hphase
  case noFailure =>
    intro c op error hcall
    have hphase : CallTracked w.table (.failed op error) := hcall ▸ htracked c
    exact hphase
  case progress => exact fun c h => exists_step_of_remaining h
  case unique => exact w.table.users_nodup

/-- `CreatesFirst` as a test. -/
def createsFirst (w : World) : Event → Bool
  | .create c _ _ =>
      match w.calls c with
      | .creating op => w.table.rows.all fun row => decide (row.userId ≠ op.userId)
      | _ => true
  | .update c _ =>
      match w.calls c with
      | .updating _ dto => dto.taken
      | _ => true
  | _ => true

theorem createsFirst_of_test (w : World) (e : Event) (h : createsFirst w e = true) :
    CreatesFirst w e := by
  cases e with
  | create c id now =>
      intro op hcall
      simpa [createsFirst, hcall] using h
  | update c now =>
      intro op dto hcall
      simpa [createsFirst, hcall] using h
  | call c op => trivial
  | find c => trivial

theorem valid_acme : isUuid "00000000-0000-7000-8000-00000000000a" = true := by
  unfold isUuid
  rw [String.toList_ofList]
  rfl

theorem stored_acme :
    Text.asciiLowerCase "00000000-0000-7000-8000-00000000000a" =
      "00000000-0000-7000-8000-00000000000a" := by
  unfold Text.asciiLowerCase
  rw [String.toList_ofList]
  rfl

theorem valid_globex : isUuid "00000000-0000-7000-8000-00000000000b" = true := by
  unfold isUuid
  rw [String.toList_ofList]
  rfl

theorem stored_globex :
    Text.asciiLowerCase "00000000-0000-7000-8000-00000000000b" =
      "00000000-0000-7000-8000-00000000000b" := by
  unfold Text.asciiLowerCase
  rw [String.toList_ofList]
  rfl

/-- Two tenants; alice belongs to both, and her id is that of neither. -/
def acme : StoredUuid :=
  ⟨"00000000-0000-7000-8000-00000000000a", valid_acme, stored_acme⟩

def globex : StoredUuid :=
  ⟨"00000000-0000-7000-8000-00000000000b", valid_globex, stored_globex⟩

theorem valid_alice : isUuid "11111111-1111-7000-8000-111111111111" = true := by
  unfold isUuid
  rw [String.toList_ofList]
  rfl

theorem stored_alice :
    Text.asciiLowerCase "11111111-1111-7000-8000-111111111111" =
      "11111111-1111-7000-8000-111111111111" := by
  unfold Text.asciiLowerCase
  rw [String.toList_ofList]
  rfl

def alice : StoredUuid :=
  ⟨"11111111-1111-7000-8000-111111111111", valid_alice, stored_alice⟩

def noProfiles : ProfileTable where
  rows := []
  users_nodup := List.nodup_nil

/-- Alice reads her profile in a tenant, and has none yet. -/
def firstRead (c : Nat) (tenantId : StoredUuid) (id : String) : List Event :=
  [.call c { tenantId := tenantId, userId := alice, dto := none }, .find c, .create c id 0]

def Call.hasReturned : Call → Bool
  | .returned _ _ => true
  | _ => false

def Call.hasFailed : Call → Bool
  | .failed _ _ => true
  | _ => false

/-- A second read in the same tenant finds the profile. -/
theorem served_firstRead :
    ∃ w,
      (Reaches step CreatesFirst (initialWorld noProfiles) w ∧
        (w.calls 0).hasReturned = true ∧ (w.calls 1).hasReturned = true) ∧
        Served w := by
  have hruns :
      (runEvents (checked createsFirst step) (initialWorld noProfiles)
          (firstRead 0 acme "p1" ++ (firstRead 1 acme "p2").take 2)).any
        (fun w => (w.calls 0).hasReturned && (w.calls 1).hasReturned) = true := by
    rfl
  obtain ⟨w, hrun, hcalls⟩ := (Option.any_eq_true _ _).mp hruns
  rw [Bool.and_eq_true] at hcalls
  have hreaches : Reaches step CreatesFirst (initialWorld noProfiles) w :=
    reaches_of_runEvents_checked createsFirst_of_test hrun
  exact ⟨w, ⟨hreaches, hcalls⟩, served_of_createsFirst noProfiles w hreaches⟩

/-- The profile of the first tenant is hidden from the second, and its user id is taken. -/
theorem not_served_second_tenant :
    ¬ ∀ table w, Reaches step anyEvent (initialWorld table) w → Served w := by
  intro hlaw
  have hruns :
      (runEvents step (initialWorld noProfiles)
          (firstRead 0 acme "p1" ++ firstRead 1 globex "p2")).any
        (fun w => (w.calls 0).hasReturned && (w.calls 1).hasFailed) = true := by
    rfl
  obtain ⟨w, hrun, hcalls⟩ := (Option.any_eq_true _ _).mp hruns
  have hserved := hlaw noProfiles w (reaches_of_runEvents hrun)
  rw [Bool.and_eq_true] at hcalls
  cases hcall : w.calls 1 with
  | failed op error => exact hserved.noFailure 1 op error hcall
  | notStarted | finding | creating | updating | returned =>
      rw [hcall] at hcalls
      cases hcalls.2

end UserProfiles
end NestBase
