import NestBase.Lib.Table
import NestBase.Lib.Transaction

/-!
# The erasure transaction

`eraseUser` deletes the rows a user owns in five tables, overwrites the columns
of the user's own row, and marks the request as completed, all in one
transaction of raw SQL statements.

The column lists are written by hand.  They leave out `email_hash`, a value
derived from the address, so two databases that differ in the personal data of
the user end in the same state exactly when they have the same hash.
-/

namespace NestBase
namespace Gdpr

open Lib

universe u

/-! ## Rows -/

/-- A row of the table `users`. -/
structure UserRow where
  id : String
  email : String
  emailHash : Option String
  name : String
  emailVerified : Bool
  image : Option String
  twoFactorEnabled : Option Bool
  role : Option String
  banned : Bool
  banReason : Option String
  banExpires : Option Int
  createdAt : Int
  updatedAt : Int
deriving DecidableEq

/-- The other tables with rows of one user. -/
inductive Secondary where
  | twoFactors
  | passkeys
  | sessions
  | accounts
  | apiKeys
deriving DecidableEq

/-- A row of one of them; the columns no statement names are its content. -/
structure OwnedRow (κ : Type) where
  id : String
  userId : String
  content : κ
deriving DecidableEq

/-- A row of the table `pending_erasures`, its times in milliseconds. -/
structure PendingErasureRow where
  id : String
  userId : String
  requestedAt : Int
  cancelledAt : Option Int
  completedAt : Option Int
deriving DecidableEq

structure Database (κ : Type) where
  users : List UserRow
  secondary : Secondary → List (OwnedRow κ)
  pendingErasures : List PendingErasureRow

inductive DbError where
  | uniqueConstraint (column : String)
  | other (message : String)
deriving DecidableEq

structure GraceErasureCandidate where
  id : String
  userId : String
  requestedAt : Int
  graceExpiredAt : Int
deriving DecidableEq

section Erasure

variable {κ : Type}

/-! ## The statements -/

/-- `DELETE FROM table WHERE user_id = $1` -/
def deleteOwned (table : Secondary) (userId : String) (database : Database κ) : Database κ :=
  { database with
    secondary := fun other =>
      if other = table then (database.secondary other).filter fun row => row.userId ≠ userId
      else database.secondary other }

/-- The columns the UPDATE of `users` sets. -/
def anonymised (email : String) (now : Int) (row : UserRow) : UserRow :=
  { row with
    email := email
    name := "[ERASED]"
    emailVerified := false
    image := none
    twoFactorEnabled := none
    updatedAt := now }

/-- The UPDATE of `users`, under the unique constraint of `email`. -/
def updateUser (email userId : String) (now : Int) (database : Database κ) :
    Except DbError (Unit × Database κ) :=
  let users :=
    updateMany (fun row => decide (row.id = userId)) (anonymised email now) database.users
  if (users.map UserRow.email).Nodup then .ok ((), { database with users := users })
  else .error (.uniqueConstraint "email")

/-- `UPDATE pending_erasures SET completed_at = $1 WHERE id = $2` -/
def markCompleted (id : String) (atMs : Int) (database : Database κ) : Database κ :=
  { database with
    pendingErasures :=
      updateMany (fun row => decide (row.id = id)) (fun row => { row with completedAt := some atMs })
        database.pendingErasures }

/-- What a run of the transaction meets: the faults, `NOW()` and `Date.now()`. -/
structure Surroundings where
  fault : Nat → Option DbError
  now : Int
  atMs : Int

/-- A statement without a constraint of its own. -/
def execute (fault : Option DbError) (change : Database κ → Database κ) :
    Body (Database κ) DbError Unit :=
  statement fault fun database => .ok ((), change database)

def sentinelEmail (userId : String) : String :=
  s!"[ERASED]:{userId}@erased.local"

def anonymiseUserInTx (env : Surroundings) (userId : String) :
    Body (Database κ) DbError Unit := do
  execute (env.fault 0) (deleteOwned .twoFactors userId)
  execute (env.fault 1) (deleteOwned .passkeys userId)
  execute (env.fault 2) (deleteOwned .sessions userId)
  execute (env.fault 3) (deleteOwned .accounts userId)
  execute (env.fault 4) (deleteOwned .apiKeys userId)
  statement (env.fault 5) (updateUser (sentinelEmail userId) userId env.now)

def markErasureCompletedInTx (env : Surroundings) (id : String) :
    Body (Database κ) DbError Unit :=
  execute (env.fault 6) (markCompleted id env.atMs)

/-- `eraseUser` of `buildDefaultGdprErasureRunnerInput`. -/
def eraseUser (env : Surroundings) (candidate : GraceErasureCandidate) (database : Database κ) :
    Except DbError Unit × Database κ :=
  transaction (env.fault 7)
    (do
      anonymiseUserInTx env candidate.userId
      markErasureCompletedInTx env candidate.id)
    database

/-! ## What an erasure leaves -/

/-- The row of a user without the personal data of the user with the given id. -/
def withoutPersonalData (userId : String) (row : UserRow) : UserRow :=
  if row.id = userId then
    { row with
      email := ""
      emailHash := none
      name := ""
      emailVerified := false
      image := none
      twoFactorEnabled := none }
  else row

/-- The databases differ in the personal data of the user at most. -/
structure AgreeOutside (userId : String) (database database' : Database κ) : Prop where
  users :
    database.users.map (withoutPersonalData userId) =
      database'.users.map (withoutPersonalData userId)
  secondary :
    ∀ table,
      (database.secondary table).filter (fun row => row.userId ≠ userId) =
        (database'.secondary table).filter fun row => row.userId ≠ userId
  pendingErasures : database.pendingErasures = database'.pendingErasures

/-- The databases agree on all the tables with personal data, `updated_at` aside. -/
structure Traceless (database database' : Database κ) : Prop where
  users :
    database.users.map (fun row => { row with updatedAt := 0 }) =
      database'.users.map fun row => { row with updatedAt := 0 }
  secondary : database.secondary = database'.secondary

/-- The blind index stored for the user. -/
def emailHashOf (userId : String) (database : Database κ) : Option String :=
  (findRow UserRow.id userId database.users).bind UserRow.emailHash

/-! ## The committed state -/

/-- The database after the erasure of the user. -/
def erased (env : Surroundings) (candidate : GraceErasureCandidate) (database : Database κ) :
    Database κ where
  users :=
    updateMany (fun row => decide (row.id = candidate.userId))
      (anonymised (sentinelEmail candidate.userId) env.now) database.users
  secondary := fun table =>
    (database.secondary table).filter fun row => row.userId ≠ candidate.userId
  pendingErasures :=
    updateMany (fun row => decide (row.id = candidate.id))
      (fun row => { row with completedAt := some env.atMs }) database.pendingErasures

variable {env env' : Surroundings}
variable {candidate : GraceErasureCandidate}
variable {database database' after after' : Database κ}

theorem execute_eq_ok
    {fault : Option DbError} {change : Database κ → Database κ} {result : Unit × Database κ}
    (h : execute fault change database = .ok result) :
    result.2 = change database := by
  obtain ⟨-, hrun⟩ := statement_eq_ok_iff.mp h
  cases hrun
  rfl

variable {email userId : String}
variable {now : Int}

theorem updateUser_eq_ok
    {result : Unit × Database κ}
    (h : updateUser email userId now database = .ok result) :
    result.2 =
      { database with
        users :=
          updateMany (fun row => decide (row.id = userId)) (anonymised email now)
            database.users } := by
  unfold updateUser at h
  dsimp only at h
  split at h
  · cases h
    rfl
  · cases h

/-- The five DELETEs reach every table with rows of one user. -/
theorem deleteOwned_all (userId : String) (database : Database κ) :
    deleteOwned .apiKeys userId (deleteOwned .accounts userId (deleteOwned .sessions userId
        (deleteOwned .passkeys userId (deleteOwned .twoFactors userId database)))) =
      { database with
        secondary := fun table =>
          (database.secondary table).filter fun row => row.userId ≠ userId } := by
  have hsecondary :
      (deleteOwned .apiKeys userId (deleteOwned .accounts userId (deleteOwned .sessions userId
        (deleteOwned .passkeys userId (deleteOwned .twoFactors userId database))))).secondary =
      fun table => (database.secondary table).filter fun row => row.userId ≠ userId := by
    funext table
    cases table <;> rfl
  rw [← hsecondary]
  rfl

/-- An erasure that commits has run every statement. -/
theorem eraseUser_eq_ok (h : eraseUser env candidate database = (.ok (), after)) :
    after = erased env candidate database := by
  obtain ⟨-, hbody⟩ := transaction_eq_ok_iff.mp h
  obtain ⟨_, anonymisedState, hanonymise, hmark⟩ := Body.bind_eq_ok_iff.mp hbody
  unfold anonymiseUserInTx at hanonymise
  obtain ⟨_, afterFirst, hfirst, hrest⟩ := Body.bind_eq_ok_iff.mp hanonymise
  obtain ⟨_, afterSecond, hsecond, hrest⟩ := Body.bind_eq_ok_iff.mp hrest
  obtain ⟨_, afterThird, hthird, hrest⟩ := Body.bind_eq_ok_iff.mp hrest
  obtain ⟨_, afterFourth, hfourth, hrest⟩ := Body.bind_eq_ok_iff.mp hrest
  obtain ⟨_, afterFifth, hfifth, hupdate⟩ := Body.bind_eq_ok_iff.mp hrest
  have hstates :
      after = markCompleted candidate.id env.atMs anonymisedState ∧
      anonymisedState =
        { afterFifth with
          users :=
            updateMany (fun row => decide (row.id = candidate.userId))
              (anonymised (sentinelEmail candidate.userId) env.now) afterFifth.users } :=
    ⟨execute_eq_ok hmark, updateUser_eq_ok (statement_eq_ok_iff.mp hupdate).2⟩
  have hdeleted :
      afterFifth =
        deleteOwned .apiKeys candidate.userId (deleteOwned .accounts candidate.userId
          (deleteOwned .sessions candidate.userId (deleteOwned .passkeys candidate.userId
            (deleteOwned .twoFactors candidate.userId database)))) := by
    rw [← show afterFirst = _ from execute_eq_ok hfirst,
      ← show afterSecond = _ from execute_eq_ok hsecond,
      ← show afterThird = _ from execute_eq_ok hthird,
      ← show afterFourth = _ from execute_eq_ok hfourth]
    exact execute_eq_ok hfifth
  rw [hstates.1, hstates.2, hdeleted, deleteOwned_all]
  rfl

/-- Without faults an erasure commits unless the sentinel address is taken. -/
theorem eraseUser_of_unique
    (hfault : ∀ n, env.fault n = none)
    (hunique : ((erased env candidate database).users.map UserRow.email).Nodup) :
    eraseUser env candidate database = (.ok (), erased env candidate database) := by
  have hupdate :
      updateUser (sentinelEmail candidate.userId) candidate.userId env.now
          { database with
            secondary := fun table =>
              (database.secondary table).filter fun row => row.userId ≠ candidate.userId } =
        .ok ((),
          { erased env candidate database with pendingErasures := database.pendingErasures }) :=
    if_pos hunique
  rw [← deleteOwned_all] at hupdate
  have hanonymise :
      anonymiseUserInTx env candidate.userId database =
        .ok ((),
          { erased env candidate database with pendingErasures := database.pendingErasures }) := by
    unfold anonymiseUserInTx
    refine Body.bind_eq_ok_iff.mpr ⟨(), _, statement_eq_ok_iff.mpr ⟨hfault 0, rfl⟩, ?_⟩
    refine Body.bind_eq_ok_iff.mpr ⟨(), _, statement_eq_ok_iff.mpr ⟨hfault 1, rfl⟩, ?_⟩
    refine Body.bind_eq_ok_iff.mpr ⟨(), _, statement_eq_ok_iff.mpr ⟨hfault 2, rfl⟩, ?_⟩
    refine Body.bind_eq_ok_iff.mpr ⟨(), _, statement_eq_ok_iff.mpr ⟨hfault 3, rfl⟩, ?_⟩
    refine Body.bind_eq_ok_iff.mpr ⟨(), _, statement_eq_ok_iff.mpr ⟨hfault 4, rfl⟩, ?_⟩
    exact statement_eq_ok_iff.mpr ⟨hfault 5, hupdate⟩
  have hmark :
      markErasureCompletedInTx env candidate.id
          { erased env candidate database with pendingErasures := database.pendingErasures } =
        .ok ((), erased env candidate database) := by
    unfold markErasureCompletedInTx execute
    exact statement_eq_ok_iff.mpr ⟨hfault 6, rfl⟩
  exact
    transaction_eq_ok_iff.mpr ⟨hfault 7, Body.bind_eq_ok_iff.mpr ⟨(), _, hanonymise, hmark⟩⟩

/-! ## Two runs -/

/-- The erasure keeps the blind index of the user. -/
theorem emailHashOf_erased
    (env : Surroundings) (candidate : GraceErasureCandidate) (database : Database κ) :
    emailHashOf candidate.userId (erased env candidate database) =
      emailHashOf candidate.userId database := by
  have hid :
      ∀ row : UserRow,
        (anonymised (sentinelEmail candidate.userId) env.now row).id = row.id :=
    fun _ => rfl
  unfold emailHashOf erased
  dsimp only
  rw [findRow_updateMany _ hid]
  cases findRow UserRow.id candidate.userId database.users with
  | none => rfl
  | some row =>
      simp only [Option.map_some, Option.bind_some]
      split <;> rfl

/-- What is left without a trace has one blind index. -/
theorem Traceless.emailHashOf (h : Traceless database database') (userId : String) :
    emailHashOf userId database = emailHashOf userId database' := by
  have hkept :
      ∀ users : List UserRow,
        (findRow UserRow.id userId users).bind UserRow.emailHash =
          (findRow UserRow.id userId
            (users.map fun row => { row with updatedAt := 0 })).bind UserRow.emailHash := by
    intro users
    have hid : ∀ row : UserRow, ({ row with updatedAt := 0 } : UserRow).id = row.id := fun _ => rfl
    have hmap := findRow_updateMany (fun _ => true) hid userId users
    simp only [updateMany, if_true] at hmap
    rw [hmap]
    cases findRow UserRow.id userId users <;> rfl
  unfold Gdpr.emailHashOf
  rw [hkept, h.users, ← hkept]

theorem withoutPersonalData_id (userId : String) (row : UserRow) :
    (withoutPersonalData userId row).id = row.id := by
  unfold withoutPersonalData
  split <;> rfl

theorem AgreeOutside.ids (h : AgreeOutside userId database database') :
    database.users.map UserRow.id = database'.users.map UserRow.id := by
  have hmap := congrArg (List.map UserRow.id) h.users
  simpa only [List.map_map, Function.comp_def, withoutPersonalData_id] using hmap

/-- The row of a user after the erasure, `updated_at` aside. -/
def visible (email userId : String) (now : Int) (row : UserRow) : UserRow :=
  { (if row.id = userId then anonymised email now row else row) with updatedAt := 0 }

theorem map_erased
    (env : Surroundings) (candidate : GraceErasureCandidate) (database : Database κ) :
    (erased env candidate database).users.map (fun row => { row with updatedAt := 0 }) =
      database.users.map
        (visible (sentinelEmail candidate.userId) candidate.userId env.now) := by
  unfold erased updateMany
  dsimp only
  rw [List.map_map]
  refine List.map_congr_left ?_
  intro row _
  simp only [Function.comp_apply, decide_eq_true_eq]
  rfl

/-- Rows that agree outside the personal data and on the blind index end up the same. -/
theorem visible_eq
    {now' : Int} {row row' : UserRow}
    (hagree : withoutPersonalData userId row = withoutPersonalData userId row')
    (hhash : row.id = userId → row'.id = userId → row.emailHash = row'.emailHash) :
    visible email userId now row = visible email userId now' row' := by
  have hid : row.id = row'.id := by
    have hids := congrArg UserRow.id hagree
    rwa [withoutPersonalData_id, withoutPersonalData_id] at hids
  unfold withoutPersonalData at hagree
  unfold visible
  by_cases hrow : row.id = userId
  · have hrow' : row'.id = userId := hid.symm.trans hrow
    rw [if_pos hrow, if_pos hrow'] at hagree
    rw [if_pos hrow, if_pos hrow']
    obtain ⟨⟩ := row
    obtain ⟨⟩ := row'
    simp only [UserRow.mk.injEq] at hagree
    simp only [anonymised, UserRow.mk.injEq]
    have hsame := hhash hrow hrow'
    simp only at hsame
    simp only [hsame, hagree, and_self]
  · have hrow' : row'.id ≠ userId := fun h => hrow (hid.trans h)
    rw [if_neg hrow, if_neg hrow'] at hagree
    rw [if_neg hrow, if_neg hrow', hagree]

theorem map_visible_eq {now' : Int} {users users' : List UserRow}
    (hagree :
      users.map (withoutPersonalData userId) = users'.map (withoutPersonalData userId))
    (hhash :
      ∀ row ∈ users, ∀ row' ∈ users', row.id = userId → row'.id = userId →
        row.emailHash = row'.emailHash) :
    users.map (visible email userId now) = users'.map (visible email userId now') := by
  induction users generalizing users' with
  | nil =>
      rw [List.map_nil, eq_comm, List.map_eq_nil_iff] at hagree
      rw [hagree]
      rfl
  | cons row users ih =>
      cases users' with
      | nil => cases hagree
      | cons row' users' =>
          simp only [List.map_cons, List.cons.injEq] at hagree ⊢
          refine ⟨visible_eq hagree.1 ?_, ih hagree.2 ?_⟩
          · exact hhash row List.mem_cons_self row' List.mem_cons_self
          · intro other hother other' hother'
            exact hhash other (List.mem_cons_of_mem _ hother) other'
              (List.mem_cons_of_mem _ hother')

/-- The rows of the user hold the blind index of the user. -/
theorem emailHash_of_mem
    {row : UserRow}
    (hids : KeysNodup UserRow.id database.users)
    (hrow : row ∈ database.users)
    (hid : row.id = userId) :
    row.emailHash = emailHashOf userId database := by
  have hfound := findRow_of_mem hids hrow
  rw [hid] at hfound
  unfold emailHashOf
  rw [hfound]
  rfl

/-- With one blind index the two runs end without a trace. -/
theorem traceless_of_emailHashOf
    (hids : KeysNodup UserRow.id database.users)
    (hagree : AgreeOutside candidate.userId database database')
    (hhash : emailHashOf candidate.userId database = emailHashOf candidate.userId database') :
    Traceless (erased env candidate database) (erased env' candidate database') := by
  have hids' : KeysNodup UserRow.id database'.users := by
    unfold KeysNodup
    rw [← hagree.ids]
    exact hids
  constructor
  · rw [map_erased, map_erased]
    refine map_visible_eq hagree.users ?_
    intro row hrow row' hrow' hid hid'
    rw [emailHash_of_mem hids hrow hid, emailHash_of_mem hids' hrow' hid', hhash]
  · exact funext hagree.secondary

/--
Two databases that differ in the personal data of the user alone end without a
trace of it exactly when they store the same blind index; an erasure that fails
leaves the database, and so the request, as it was.
-/
theorem traceless_iff
    (hids : KeysNodup UserRow.id database.users)
    (hagree : AgreeOutside candidate.userId database database') :
    (∀ after after',
      eraseUser env candidate database = (.ok (), after) →
        eraseUser env' candidate database' = (.ok (), after') →
          (Traceless after after' ↔
            emailHashOf candidate.userId database = emailHashOf candidate.userId database')) ∧
    (∀ error after, eraseUser env candidate database = (.error error, after) →
      after = database) ∧
    (∀ error after', eraseUser env' candidate database' = (.error error, after') →
      after' = database') := by
  refine ⟨?_, fun _ _ h => transaction_of_error h, fun _ _ h => transaction_of_error h⟩
  intro after after' hrun hrun'
  rw [eraseUser_eq_ok hrun, eraseUser_eq_ok hrun']
  constructor
  · intro h
    have hhash := h.emailHashOf candidate.userId
    rwa [emailHashOf_erased, emailHashOf_erased] at hhash
  · exact traceless_of_emailHashOf hids hagree

end Erasure

/-! ## One user, two pasts -/

section Pasts

def person : String := "018f3a5c-0000-7000-8000-000000000001"

/-- The user with a name, an address and its blind index. -/
def personRow (name email : String) (emailHash : Option String) : UserRow where
  id := person
  email := email
  emailHash := emailHash
  name := name
  emailVerified := true
  image := none
  twoFactorEnabled := none
  role := some "user"
  banned := false
  banReason := none
  banExpires := none
  createdAt := 0
  updatedAt := 0

def personRequest : PendingErasureRow where
  id := "018f3a5c-0000-7000-8000-0000000000aa"
  userId := person
  requestedAt := 0
  cancelledAt := none
  completedAt := none

/-- The user with one session, and the request. -/
def past (name email : String) (emailHash : Option String) (device : String) :
    Database String where
  users := [personRow name email emailHash]
  secondary
    | .sessions => [{ id := "s", userId := person, content := device }]
    | _ => []
  pendingErasures := [personRequest]

def dueRequest : GraceErasureCandidate where
  id := personRequest.id
  userId := person
  requestedAt := 0
  graceExpiredAt := 2592000000

def quiet : Surroundings where
  fault _ := none
  now := 2592000000
  atMs := 2592000000

theorem agreeOutside_past
    (name email : String) (emailHash : Option String) (device : String)
    (name' email' : String) (emailHash' : Option String) (device' : String) :
    AgreeOutside person (past name email emailHash device)
      (past name' email' emailHash' device') where
  users := by
    simp [past, withoutPersonalData, personRow]
  secondary := by
    intro table
    cases table <;> simp [past]
  pendingErasures := rfl

theorem eraseUser_past (name email : String) (emailHash : Option String) (device : String) :
    eraseUser quiet dueRequest (past name email emailHash device) =
      (.ok (), erased quiet dueRequest (past name email emailHash device)) :=
  eraseUser_of_unique (fun _ => rfl) (List.nodup_singleton _)

theorem ids_past (name email : String) (emailHash : Option String) (device : String) :
    KeysNodup UserRow.id (past name email emailHash device).users :=
  List.nodup_singleton _

theorem emailHashOf_past (name email : String) (emailHash : Option String) (device : String) :
    emailHashOf person (past name email emailHash device) = emailHash := by
  simp [emailHashOf, past, findRow, personRow]

/-- Without a blind index nothing tells the erased users apart. -/
theorem traceless_past :
    ∃ after after',
      eraseUser quiet dueRequest (past "Ada" "ada@example.org" none "phone") = (.ok (), after) ∧
      eraseUser quiet dueRequest (past "Bob" "bob@example.org" none "laptop") =
        (.ok (), after') ∧
      Traceless after after' := by
  have hagree :
      AgreeOutside dueRequest.userId (past "Ada" "ada@example.org" none "phone")
        (past "Bob" "bob@example.org" none "laptop") :=
    agreeOutside_past _ _ _ _ _ _ _ _
  refine ⟨_, _, eraseUser_past _ _ _ _, eraseUser_past _ _ _ _, ?_⟩
  have hiff :=
    (traceless_iff (ids_past _ _ _ _) hagree).1 _ _ (eraseUser_past _ _ _ _)
      (eraseUser_past _ _ _ _)
  exact hiff.mpr ((emailHashOf_past _ _ _ _).trans (emailHashOf_past _ _ _ _).symm)

/-- The blind index of the address survives the erasure. -/
theorem not_traceless_past :
    ∃ after after',
      AgreeOutside person (past "Ada" "ada@example.org" (some "5d41") "phone")
        (past "Bob" "bob@example.org" (some "7d79") "laptop") ∧
      eraseUser quiet dueRequest (past "Ada" "ada@example.org" (some "5d41") "phone") =
        (.ok (), after) ∧
      eraseUser quiet dueRequest (past "Bob" "bob@example.org" (some "7d79") "laptop") =
        (.ok (), after') ∧
      ¬ Traceless after after' := by
  refine ⟨_, _, agreeOutside_past _ _ _ _ _ _ _ _, eraseUser_past _ _ _ _,
    eraseUser_past _ _ _ _, ?_⟩
  intro h
  have hhash := h.emailHashOf dueRequest.userId
  rw [emailHashOf_erased, emailHashOf_erased] at hhash
  have hsame := (emailHashOf_past _ _ _ _).symm.trans (hhash.trans (emailHashOf_past _ _ _ _))
  exact absurd hsame (by decide)

end Pasts

end Gdpr
end NestBase
