import NestBase.Core.ApiKeyService
import NestBase.Lib.Transition

/-!
# Revocation and rotation against verifications in flight

`verifyKey` looks the key up, checks the secret against the hash it read, and
stamps the row; `rotateKey` reads the row and replaces its lookup id and hash
in place; `revoke` deletes the row.  Each storage call is one atomic step, and
the calls interleave in any order.

The stamp finds its row by the primary key.  A revoked key has no row left, so
its stamp fails.  A rotated key keeps its row, so the stamp succeeds and the
plaintext from before the rotation is accepted: a verification accepts current
credentials if and only if no rotation replaced them between its lookup and its
stamp (`verifyKey_takesEffect_iff`).

The rotations since a lookup, and the row a stamp found, are recorded for the
statements only.
-/

namespace NestBase
namespace ApiKeys

open Lib

namespace Revocation

/-- The part of a row that a rotation replaces. -/
structure Credentials where
  lookupId : String
  hash : String
deriving DecidableEq

def credentialsOf (row : ApiKeyRow) : Credentials where
  lookupId := row.lookupId
  hash := row.hash

/-- A verification between its lookup and its stamp. -/
structure Checking where
  record : ApiKeyRecord
  secret : String
  /-- What rotations of the key have stored since the lookup. -/
  rotations : List Credentials
deriving DecidableEq

inductive Failure
  | key (error : ApiKeyError)
  | notFound (id : String)
  /-- The storage call rejected. -/
  | storage
deriving DecidableEq

/-- The row that a successful stamp found, and the rotations it came after. -/
structure Stamp where
  row : ApiKeyRow
  rotations : List Credentials
deriving DecidableEq

inductive Verification
  | called
  /-- The hash check runs. -/
  | checking (c : Checking)
  | stamping (c : Checking)
  | returned (result : Except Failure VerifyResult) (stamp : Option Stamp)
deriving DecidableEq

inductive Rotation
  | called
  | hashing (existing : ApiKeyRecord)
  | returned (result : Except Failure (String × ApiKeyRecord))
deriving DecidableEq

inductive Call
  | verifyKey (plaintext : String) (state : Verification)
  | rotateKey (id : String) (state : Rotation)
  | revoke (id : String) (result : Except Failure Unit)
deriving DecidableEq

structure World where
  table : ApiKeyTable
  calls : List Call

/-- A new call, or the next storage call of the `n`-th one. -/
inductive Event
  | verifyKey (plaintext : String)
  | rotateKey (id : String)
  | revoke (id : String)
  | revokeRejects (id : String)
  | findByLookupId (n : Nat) (now : Int)
  | argon2Verify (n : Nat)
  | updateLastUsed (n : Nat) (now : Int)
  | findById (n : Nat)
  /-- With the lookup id, secret and hash that the rotation draws. -/
  | rotate (n : Nat) (lookupId secret hash : String)
  | storageRejects (n : Nat)

section Step

variable (argon2Verify : String → String → Bool)

/-- `verifyKey` up to its hash check. -/
def afterLookup (table : ApiKeyTable) (plaintext : String) (now : Int) : Verification :=
  match parsePlaintext plaintext with
  | none => .returned (.error (.key .invalid)) none
  | some (lookupId, secret) =>
      match PrismaApiKeyStorage.findByLookupId table lookupId with
      | none => .returned (.error (.key .invalid)) none
      | some record =>
          if record.expiresAt.any fun expiresAt => decide (expiresAt ≤ now) then
            .returned (.error (.key .expired)) none
          else .checking { record := record, secret := secret, rotations := [] }

def afterCheck (c : Checking) : Verification :=
  if argon2Verify c.record.hash c.secret then .stamping c
  else .returned (.error (.key .invalid)) none

/-- What the stamp makes of the row it finds under the primary key. -/
def afterStamp (table : ApiKeyTable) (c : Checking) : Verification :=
  match findRow ApiKeyRow.id c.record.id table.rows with
  | none => .returned (.error (.key .invalid)) none
  | some row =>
      .returned (.ok { userId := c.record.userId, scopes := c.record.scopes })
        (some { row := row, rotations := c.rotations })

/-- A committed rotation, seen from a verification that has read the key. -/
def noteRotation (id : String) (credentials : Credentials) : Call → Call
  | .verifyKey plaintext (.checking c) =>
      if c.record.id = id then
        .verifyKey plaintext (.checking { c with rotations := c.rotations ++ [credentials] })
      else .verifyKey plaintext (.checking c)
  | .verifyKey plaintext (.stamping c) =>
      if c.record.id = id then
        .verifyKey plaintext (.stamping { c with rotations := c.rotations ++ [credentials] })
      else .verifyKey plaintext (.stamping c)
  | call => call

def step (w : World) : Event → Option World
  | .verifyKey plaintext => some { w with calls := w.calls ++ [.verifyKey plaintext .called] }
  | .rotateKey id => some { w with calls := w.calls ++ [.rotateKey id .called] }
  | .revoke id =>
      match PrismaApiKeyStorage.delete w.table id with
      | (true, table) => some { table := table, calls := w.calls ++ [.revoke id (.ok ())] }
      | (false, table) =>
          some { table := table, calls := w.calls ++ [.revoke id (.error (.notFound id))] }
  | .revokeRejects id => some { w with calls := w.calls ++ [.revoke id (.error .storage)] }
  | .findByLookupId n now =>
      match w.calls[n]? with
      | some (.verifyKey plaintext .called) =>
          some
            { w with
              calls := w.calls.set n (.verifyKey plaintext (afterLookup w.table plaintext now)) }
      | _ => none
  | .argon2Verify n =>
      match w.calls[n]? with
      | some (.verifyKey plaintext (.checking c)) =>
          some { w with calls := w.calls.set n (.verifyKey plaintext (afterCheck argon2Verify c)) }
      | _ => none
  | .updateLastUsed n now =>
      match w.calls[n]? with
      | some (.verifyKey plaintext (.stamping c)) =>
          some
            { table := (PrismaApiKeyStorage.updateLastUsed w.table c.record.id now).2
              calls := w.calls.set n (.verifyKey plaintext (afterStamp w.table c)) }
      | _ => none
  | .findById n =>
      match w.calls[n]? with
      | some (.rotateKey id .called) =>
          match PrismaApiKeyStorage.findById w.table id with
          | none =>
              some { w with calls := w.calls.set n (.rotateKey id (.returned (.error (.notFound id)))) }
          | some existing => some { w with calls := w.calls.set n (.rotateKey id (.hashing existing)) }
      | _ => none
  | .rotate n lookupId secret hash =>
      match w.calls[n]? with
      | some (.rotateKey id (.hashing existing)) =>
          if PrismaApiKeyStorage.lookupTaken w.table existing.id lookupId then
            some { w with calls := w.calls.set n (.rotateKey id (.returned (.error .storage))) }
          else
            match PrismaApiKeyStorage.rotate w.table existing.id lookupId hash with
            | (none, table) =>
                some
                  { table := table
                    calls :=
                      w.calls.set n
                        (.rotateKey id (.returned (.error (.notFound existing.id)))) }
            | (some updated, table) =>
                some
                  { table := table
                    calls :=
                      (w.calls.map
                          (noteRotation existing.id { lookupId := lookupId, hash := hash })).set n
                        (.rotateKey id (.returned (.ok (plaintextOf lookupId secret, updated)))) }
      | _ => none
  | .storageRejects n =>
      match w.calls[n]? with
      | some (.verifyKey plaintext .called) =>
          some { w with calls := w.calls.set n (.verifyKey plaintext (.returned (.error .storage) none)) }
      | some (.verifyKey plaintext (.stamping _)) =>
          some { w with calls := w.calls.set n (.verifyKey plaintext (.returned (.error .storage) none)) }
      | some (.rotateKey id .called) =>
          some { w with calls := w.calls.set n (.rotateKey id (.returned (.error .storage))) }
      | some (.rotateKey id (.hashing _)) =>
          some { w with calls := w.calls.set n (.rotateKey id (.returned (.error .storage))) }
      | _ => none

end Step

/-- Any table, and no call yet. -/
def start (table : ApiKeyTable) : World where
  table := table
  calls := []

/-! ## Property and condition -/

section Property

variable (argon2Verify : String → String → Bool)

/-- The plaintext is the one of these credentials. -/
def Credentials.Accept (credentials : Credentials) (plaintext : String) : Prop :=
  ∃ secret,
    parsePlaintext plaintext = some (credentials.lookupId, secret) ∧
      argon2Verify credentials.hash secret = true

/--
A verification that succeeds has stamped a key which was still there, and whose
credentials at that moment accept the plaintext: it is not the plaintext of a
revoked key, nor the one from before a rotation.
-/
def TakesEffect
    (plaintext : String)
    (result : Except Failure VerifyResult)
    (stamp : Option Stamp) : Prop :=
  ∀ verified, result = .ok verified →
    ∃ s, stamp = some s ∧ (credentialsOf s.row).Accept argon2Verify plaintext

/--
The rotations of the key between the lookup and the stamp, if there are any,
end with credentials that accept the same plaintext.
-/
def NotRotatedAway (plaintext : String) (stamp : Option Stamp) : Prop :=
  ∀ s, stamp = some s →
    ∀ last, s.rotations.getLast? = some last → last.Accept argon2Verify plaintext

end Property

/-! ## What the table says about a verification in flight -/

section Invariant

variable {argon2Verify : String → String → Bool}

/-- The key's row, if it is still there, holds the last credentials stored since the lookup. -/
def Tracked (rows : List ApiKeyRow) (c : Checking) : Prop :=
  ∀ row, findRow ApiKeyRow.id c.record.id rows = some row →
    credentialsOf row =
      c.rotations.getLast?.getD { lookupId := c.record.lookupId, hash := c.record.hash }

/-- The credentials a stamped row holds come from the lookup or from the last rotation. -/
def Stamped (argon2Verify : String → String → Bool) (plaintext : String) (s : Stamp) : Prop :=
  ∃ read : Credentials, read.Accept argon2Verify plaintext ∧
    credentialsOf s.row = s.rotations.getLast?.getD read

inductive VerificationInv
    (argon2Verify : String → String → Bool)
    (rows : List ApiKeyRow) (plaintext : String) : Verification → Prop
  | called : VerificationInv argon2Verify rows plaintext .called
  | checking
      (c : Checking)
      (hparse : parsePlaintext plaintext = some (c.record.lookupId, c.secret))
      (htracked : Tracked rows c) :
      VerificationInv argon2Verify rows plaintext (.checking c)
  | stamping
      (c : Checking)
      (hparse : parsePlaintext plaintext = some (c.record.lookupId, c.secret))
      (htracked : Tracked rows c)
      (hverified : argon2Verify c.record.hash c.secret = true) :
      VerificationInv argon2Verify rows plaintext (.stamping c)
  | failed
      (failure : Failure) :
      VerificationInv argon2Verify rows plaintext (.returned (.error failure) none)
  | verified
      (verified : VerifyResult)
      (s : Stamp)
      (hstamped : Stamped argon2Verify plaintext s) :
      VerificationInv argon2Verify rows plaintext (.returned (.ok verified) (some s))

def CallInv
    (argon2Verify : String → String → Bool)
    (rows : List ApiKeyRow) : Call → Prop
  | .verifyKey plaintext state => VerificationInv argon2Verify rows plaintext state
  | _ => True

variable {c : Checking}
variable {rows : List ApiKeyRow}

/-- Rows that keep the credentials of the rows they come from keep every verification tracked. -/
theorem Tracked.of_sameCredentials {rows' : List ApiKeyRow} (htracked : Tracked rows c)
    (hrows :
      ∀ row', findRow ApiKeyRow.id c.record.id rows' = some row' →
        ∃ row, findRow ApiKeyRow.id c.record.id rows = some row ∧
          credentialsOf row' = credentialsOf row) :
    Tracked rows' c := by
  intro row' hrow'
  obtain ⟨row, hrow, hsame⟩ := hrows row' hrow'
  rw [hsame]
  exact htracked row hrow

/-- No row gets other credentials. -/
def SameCredentials (rows rows' : List ApiKeyRow) : Prop :=
  ∀ id row', findRow ApiKeyRow.id id rows' = some row' →
    ∃ row, findRow ApiKeyRow.id id rows = some row ∧ credentialsOf row' = credentialsOf row

theorem CallInv.of_sameCredentials
    {rows' : List ApiKeyRow} {call : Call}
    (hinv : CallInv argon2Verify rows call)
    (hrows : SameCredentials rows rows') :
    CallInv argon2Verify rows' call := by
  cases call with
  | rotateKey id state => trivial
  | revoke id result => trivial
  | verifyKey plaintext state =>
      change VerificationInv argon2Verify rows plaintext state at hinv
      cases hinv with
      | called => exact VerificationInv.called
      | checking c hparse htracked =>
          exact VerificationInv.checking c hparse (htracked.of_sameCredentials (hrows _))
      | stamping c hparse htracked hverified =>
          exact VerificationInv.stamping c hparse (htracked.of_sameCredentials (hrows _)) hverified
      | failed failure => exact VerificationInv.failed failure
      | verified verified s hstamped => exact VerificationInv.verified verified s hstamped

/-- A deleted row is not found any more, and the others stay as they are. -/
theorem sameCredentials_delete (table : ApiKeyTable) (id : String) :
    SameCredentials table.rows (PrismaApiKeyStorage.delete table id).2.rows := by
  intro other row' hrow'
  have hmem := mem_of_findRow hrow'
  have hkept : row' ∈ table.rows := (List.mem_filter.mp hmem).1
  refine ⟨row', ?_, rfl⟩
  rw [← key_of_findRow hrow']
  exact findRow_of_mem table.ids_nodup hkept

variable {table : ApiKeyTable}

/-- A row found after an update was found before, changed if its key is the updated one. -/
theorem exists_of_findRow_update
    {id other : String} {row' : ApiKeyRow}
    (change : ApiKeyRow → ApiKeyRow)
    (hid : ∀ row, (change row).id = row.id)
    (hrow' :
      findRow ApiKeyRow.id other (PrismaApiKeyStorage.update table id change hid).rows =
        some row') :
    ∃ row, findRow ApiKeyRow.id other table.rows = some row ∧
      row' = if other = id then change row else row := by
  change findRow ApiKeyRow.id other (updateMany _ change table.rows) = some row' at hrow'
  rw [findRow_updateMany _ hid, Option.map_eq_some_iff] at hrow'
  obtain ⟨row, hrow, rfl⟩ := hrow'
  refine ⟨row, hrow, ?_⟩
  rw [key_of_findRow hrow]
  simp only [decide_eq_true_eq]

theorem sameCredentials_updateLastUsed (table : ApiKeyTable) (id : String) (now : Int) :
    SameCredentials table.rows (PrismaApiKeyStorage.updateLastUsed table id now).2.rows := by
  intro other row' hrow'
  obtain ⟨row, hrow, rfl⟩ :=
    exists_of_findRow_update (fun row => { row with lastUsedAt := some now }) (fun _ => rfl) hrow'
  refine ⟨row, hrow, ?_⟩
  split <;> rfl

/-- A committed rotation is what the verifications of the key take note of. -/
theorem Tracked.rotate
    {id lookupId hash : String} {updated : ApiKeyRecord} {table' : ApiKeyTable}
    (htracked : Tracked table.rows c)
    (hrotate : PrismaApiKeyStorage.rotate table id lookupId hash = (some updated, table')) :
    Tracked table'.rows
      (if c.record.id = id then
        { c with rotations := c.rotations ++ [{ lookupId := lookupId, hash := hash }] }
      else c) := by
  have hchanged :
      ∀ row', findRow ApiKeyRow.id c.record.id table'.rows = some row' →
        ∃ row, findRow ApiKeyRow.id c.record.id table.rows = some row ∧
          row' =
            if c.record.id = id then { row with lookupId := lookupId, hash := hash } else row := by
    intro row' hrow'
    unfold PrismaApiKeyStorage.rotate at hrotate
    dsimp only at hrotate
    split at hrotate
    · cases hrotate
    · obtain rfl := (Prod.mk.inj hrotate).2
      exact
        exists_of_findRow_update (fun row => { row with lookupId := lookupId, hash := hash })
          (fun _ => rfl) hrow'
  by_cases hid : c.record.id = id
  · rw [if_pos hid]
    intro row' hrow'
    obtain ⟨row, -, rfl⟩ := hchanged row' hrow'
    rw [if_pos hid]
    simp [credentialsOf]
  · rw [if_neg hid]
    refine htracked.of_sameCredentials ?_
    intro row' hrow'
    obtain ⟨row, hrow, rfl⟩ := hchanged row' hrow'
    refine ⟨row, hrow, ?_⟩
    rw [if_neg hid]

theorem CallInv.rotate
    {table' : ApiKeyTable} {id lookupId hash : String} {updated : ApiKeyRecord} {call : Call}
    (hinv : CallInv argon2Verify table.rows call)
    (hrotate : PrismaApiKeyStorage.rotate table id lookupId hash = (some updated, table')) :
    CallInv argon2Verify table'.rows
      (noteRotation id { lookupId := lookupId, hash := hash } call) := by
  cases call with
  | rotateKey id state => trivial
  | revoke id result => trivial
  | verifyKey plaintext state =>
      change VerificationInv argon2Verify table.rows plaintext state at hinv
      cases hinv with
      | called => exact VerificationInv.called
      | failed failure => exact VerificationInv.failed failure
      | verified verified s hstamped => exact VerificationInv.verified verified s hstamped
      | checking c hparse htracked =>
          have hnoted := htracked.rotate hrotate
          unfold noteRotation
          dsimp only
          split
          · next hid =>
            rw [if_pos hid] at hnoted
            exact VerificationInv.checking _ hparse hnoted
          · next hid =>
            rw [if_neg hid] at hnoted
            exact VerificationInv.checking c hparse hnoted
      | stamping c hparse htracked hverified =>
          have hnoted := htracked.rotate hrotate
          unfold noteRotation
          dsimp only
          split
          · next hid =>
            rw [if_pos hid] at hnoted
            exact VerificationInv.stamping _ hparse hnoted hverified
          · next hid =>
            rw [if_neg hid] at hnoted
            exact VerificationInv.stamping c hparse hnoted hverified

/-! ## One step -/

theorem verificationInv_afterLookup (table : ApiKeyTable) (plaintext : String) (now : Int) :
    VerificationInv argon2Verify table.rows plaintext (afterLookup table plaintext now) := by
  unfold afterLookup
  split
  · exact VerificationInv.failed _
  · next lookupId secret hparse =>
    split
    · exact VerificationInv.failed _
    · next record hfound =>
      split
      · exact VerificationInv.failed _
      · simp only [PrismaApiKeyStorage.findByLookupId, Option.map_eq_some_iff] at hfound
        obtain ⟨found, hfind, rfl⟩ := hfound
        have hlookup : found.lookupId = lookupId := by simpa using List.find?_some hfind
        have hmem : found ∈ table.rows := List.mem_of_find?_eq_some hfind
        have hrow := findRow_of_mem table.ids_nodup hmem
        refine VerificationInv.checking _ ?_ ?_
        · rw [hparse, ← hlookup]
          rfl
        · -- the row under the record's id is the one the lookup found
          intro row hrow'
          have hsame : row = found := Option.some.inj (hrow'.symm.trans hrow)
          rw [hsame]
          rfl

theorem verificationInv_afterCheck
    {plaintext : String}
    (hinv : VerificationInv argon2Verify rows plaintext (.checking c)) :
    VerificationInv argon2Verify rows plaintext (afterCheck argon2Verify c) := by
  cases hinv with
  | checking c hparse htracked =>
      unfold afterCheck
      split
      · next hverified => exact VerificationInv.stamping c hparse htracked hverified
      · exact VerificationInv.failed _

theorem verificationInv_afterStamp
    {plaintext : String}
    (hinv : VerificationInv argon2Verify table.rows plaintext (.stamping c))
    (rows : List ApiKeyRow) :
    VerificationInv argon2Verify rows plaintext (afterStamp table c) := by
  cases hinv with
  | stamping c hparse htracked hverified =>
      unfold afterStamp
      split
      · exact VerificationInv.failed _
      · next row hrow =>
        refine VerificationInv.verified _ _ ?_
        refine ⟨{ lookupId := c.record.lookupId, hash := c.record.hash }, ?_, htracked row hrow⟩
        exact ⟨c.secret, hparse, hverified⟩

def WorldInv (argon2Verify : String → String → Bool) (w : World) : Prop :=
  ∀ call ∈ w.calls, CallInv argon2Verify w.table.rows call

theorem callInv_append
    {calls : List Call} {call : Call}
    (hcalls : ∀ other ∈ calls, CallInv argon2Verify rows other)
    (hcall : CallInv argon2Verify rows call) :
    ∀ other ∈ calls ++ [call], CallInv argon2Verify rows other := by
  intro other hother
  rcases List.mem_append.mp hother with hold | hnew
  · exact hcalls other hold
  · rw [List.mem_singleton.mp hnew]
    exact hcall

theorem callInv_set
    {calls : List Call} {call : Call} {n : Nat}
    (hcalls : ∀ other ∈ calls, CallInv argon2Verify rows other)
    (hcall : CallInv argon2Verify rows call) :
    ∀ other ∈ calls.set n call, CallInv argon2Verify rows other := by
  intro other hother
  rcases List.mem_or_eq_of_mem_set hother with hold | rfl
  · exact hcalls other hold
  · exact hcall

theorem worldInv_step
    {w w' : World} {event : Event}
    (hinv : WorldInv argon2Verify w)
    (hstep : step argon2Verify w event = some w') :
    WorldInv argon2Verify w' := by
  cases event with
  | verifyKey plaintext =>
      obtain rfl := Option.some.inj hstep
      exact callInv_append hinv VerificationInv.called
  | rotateKey id =>
      obtain rfl := Option.some.inj hstep
      exact callInv_append hinv trivial
  | revokeRejects id =>
      obtain rfl := Option.some.inj hstep
      exact callInv_append hinv trivial
  | revoke id =>
      have hkept :
          ∀ call ∈ w.calls,
            CallInv argon2Verify (PrismaApiKeyStorage.delete w.table id).2.rows call :=
        fun call hcall => (hinv call hcall).of_sameCredentials (sameCredentials_delete w.table id)
      simp only [step] at hstep
      split at hstep
      · next table hdelete =>
        obtain rfl := Option.some.inj hstep
        rw [hdelete] at hkept
        exact callInv_append hkept trivial
      · next table hdelete =>
        obtain rfl := Option.some.inj hstep
        rw [hdelete] at hkept
        exact callInv_append hkept trivial
  | findByLookupId n now =>
      simp only [step] at hstep
      split at hstep
      · next plaintext hcall =>
        obtain rfl := Option.some.inj hstep
        exact callInv_set hinv (verificationInv_afterLookup w.table plaintext now)
      · cases hstep
  | argon2Verify n =>
      simp only [step] at hstep
      split at hstep
      · next plaintext c hcall =>
        obtain rfl := Option.some.inj hstep
        exact callInv_set hinv (verificationInv_afterCheck (hinv _ (List.mem_of_getElem? hcall)))
      · cases hstep
  | updateLastUsed n now =>
      simp only [step] at hstep
      split at hstep
      · next plaintext c hcall =>
        obtain rfl := Option.some.inj hstep
        refine callInv_set ?_ (verificationInv_afterStamp (hinv _ (List.mem_of_getElem? hcall)) _)
        intro call hother
        exact (hinv call hother).of_sameCredentials (sameCredentials_updateLastUsed w.table _ now)
      · cases hstep
  | findById n =>
      simp only [step] at hstep
      split at hstep
      · next id hcall =>
        split at hstep
        · obtain rfl := Option.some.inj hstep
          exact callInv_set hinv trivial
        · obtain rfl := Option.some.inj hstep
          exact callInv_set hinv trivial
      · cases hstep
  | rotate n lookupId secret hash =>
      simp only [step] at hstep
      split at hstep
      · next id existing hcall =>
        split at hstep
        · obtain rfl := Option.some.inj hstep
          exact callInv_set hinv trivial
        · split at hstep
          · next table hrotate =>
            obtain rfl := Option.some.inj hstep
            have htable : table = w.table := by
              unfold PrismaApiKeyStorage.rotate at hrotate
              dsimp only at hrotate
              split at hrotate
              · exact (Prod.mk.inj hrotate).2.symm
              · cases hrotate
            rw [htable]
            exact callInv_set hinv trivial
          · next updated table hrotate =>
            obtain rfl := Option.some.inj hstep
            refine callInv_set ?_ trivial
            intro other hother
            obtain ⟨call, hmem, rfl⟩ := List.mem_map.mp hother
            exact (hinv call hmem).rotate hrotate
      · cases hstep
  | storageRejects n =>
      simp only [step] at hstep
      split at hstep
      · obtain rfl := Option.some.inj hstep
        exact callInv_set hinv (VerificationInv.failed _)
      · obtain rfl := Option.some.inj hstep
        exact callInv_set hinv (VerificationInv.failed _)
      · obtain rfl := Option.some.inj hstep
        exact callInv_set hinv trivial
      · obtain rfl := Option.some.inj hstep
        exact callInv_set hinv trivial
      · cases hstep

theorem worldInv_of_reaches
    {w : World}
    (hrun : Reaches (step argon2Verify) anyEvent (start table) w) :
    WorldInv argon2Verify w := by
  refine Reaches.invariant hrun ?_ ?_
  · intro call hcall
    cases hcall
  · intro t event t' ht _ hstep
    exact worldInv_step ht hstep

/-! ## Revocation and rotation take effect -/

/--
In every run a verification accepts only the current plaintext of a key that is
still there, if and only if its key was not rotated away between its lookup and
its stamp.
-/
theorem verifyKey_takesEffect_iff
    {table : ApiKeyTable} {w : World}
    (hrun : Reaches (step argon2Verify) anyEvent (start table) w)
    {plaintext : String} {result : Except Failure VerifyResult} {stamp : Option Stamp}
    (hcall : Call.verifyKey plaintext (.returned result stamp) ∈ w.calls) :
    TakesEffect argon2Verify plaintext result stamp ↔
      NotRotatedAway argon2Verify plaintext stamp := by
  have hinv :
      VerificationInv argon2Verify w.table.rows plaintext (.returned result stamp) :=
    worldInv_of_reaches hrun _ hcall
  cases hinv with
  | failed failure =>
      constructor
      · rintro - s hs
        cases hs
      · rintro - verified hverified
        cases hverified
  | verified verified s hstamped =>
      obtain ⟨read, haccept, hcredentials⟩ := hstamped
      constructor
      · intro heffect s' hs last hlast
        obtain rfl := Option.some.inj hs
        obtain ⟨s', hs', hcurrent⟩ := heffect verified rfl
        obtain rfl := Option.some.inj hs'
        rw [hcredentials, hlast] at hcurrent
        exact hcurrent
      · intro hkept verified' _
        refine ⟨s, rfl, ?_⟩
        rw [hcredentials]
        cases hlast : s.rotations.getLast? with
        | none => exact haccept
        | some last => exact hkept s rfl last hlast

end Invariant

/-! ## A rotation while the hash check runs -/

def oldLookupId : String := "00000000-0000-7000-8000-000000000001"

def newLookupId : String := "00000000-0000-7000-8000-000000000002"

def secretOf (digit : Char) : String := String.ofList (List.replicate 64 digit)

def exampleTable : ApiKeyTable where
  rows :=
    [{ id := "k1", lookupId := oldLookupId, hash := secretOf 'a', name := "ci",
        scopes := ["read:users"], userId := "u1", expiresAt := none, lastUsedAt := none,
        createdAt := 0 }]
  ids_nodup := by simp [KeysNodup]

/-- A hash check for which every secret is its own hash. -/
def sameText (hash secret : String) : Bool := decide (hash = secret)

def oldPlaintext : String := plaintextOf oldLookupId (secretOf 'a')

theorem parsePlaintext_oldPlaintext :
    parsePlaintext oldPlaintext = some (oldLookupId, secretOf 'a') := by
  unfold parsePlaintext oldPlaintext plaintextOf PREFIX oldLookupId secretOf
  rw [String.toList_append, String.toList_append, String.toList_append, String.toList_ofList,
    String.toList_ofList, String.toList_ofList, String.toList_ofList]
  rfl

def rotatedRun : List Event :=
  [.verifyKey oldPlaintext, .rotateKey "k1", .findByLookupId 0 5, .argon2Verify 0, .findById 1,
    .rotate 1 newLookupId (secretOf 'b') (secretOf 'b'), .updateLastUsed 0 6]

/-- The verification of the old plaintext once its stamp found the row with these credentials. -/
def acceptedOld (lookupId hash : String) (rotations : List Credentials) : Call :=
  .verifyKey oldPlaintext
    (.returned (.ok { userId := "u1", scopes := ["read:users"] })
      (some
        { row :=
            { id := "k1", lookupId := lookupId, hash := hash, name := "ci",
              scopes := ["read:users"], userId := "u1", expiresAt := none, lastUsedAt := none,
              createdAt := 0 }
          rotations := rotations }))

theorem afterLookup_of_found
    {table : ApiKeyTable} {plaintext lookupId secret : String} {record : ApiKeyRecord} {now : Int}
    (hparse : parsePlaintext plaintext = some (lookupId, secret))
    (hfound : PrismaApiKeyStorage.findByLookupId table lookupId = some record)
    (hexpires : record.expiresAt = none) :
    afterLookup table plaintext now =
      .checking { record := record, secret := secret, rotations := [] } := by
  simp [afterLookup, hparse, hfound, hexpires]

/-- The verification of the old plaintext between its lookup and its stamp. -/
def checkingOld (rotations : List Credentials) : Checking where
  record :=
    { id := "k1", lookupId := oldLookupId, hash := secretOf 'a', name := "ci",
      scopes := ["read:users"], userId := "u1", expiresAt := none, lastUsedAt := none }
  secret := secretOf 'a'
  rotations := rotations

theorem afterLookup_oldPlaintext :
    afterLookup exampleTable oldPlaintext 5 = .checking (checkingOld []) := by
  refine afterLookup_of_found parsePlaintext_oldPlaintext ?_ rfl
  unfold exampleTable
  generalize oldLookupId = lookupId, secretOf 'a' = secret
  simp [PrismaApiKeyStorage.findByLookupId, PrismaApiKeyStorage.fromRow]

theorem afterCheck_checkingOld (rotations : List Credentials) :
    afterCheck sameText (checkingOld rotations) = .stamping (checkingOld rotations) :=
  if_pos (decide_eq_true rfl)

/-- The first two storage calls of the verification leave it at its stamp. -/
theorem runEvents_oldPlaintext (others : List Call) (rest : List Event) :
    runEvents (step sameText)
        { table := exampleTable, calls := .verifyKey oldPlaintext .called :: others }
        (.findByLookupId 0 5 :: .argon2Verify 0 :: rest) =
      runEvents (step sameText)
        { table := exampleTable
          calls := .verifyKey oldPlaintext (.stamping (checkingOld [])) :: others } rest := by
  have hlookup := afterLookup_oldPlaintext
  generalize oldPlaintext = plaintext at hlookup
  rw [runEvents, step]
  simp only [List.getElem?_cons_zero, Option.bind_some, List.set_cons_zero, hlookup]
  rw [runEvents, step]
  simp only [List.getElem?_cons_zero, Option.bind_some, List.set_cons_zero,
    afterCheck_checkingOld]

theorem rotatedRun_calls :
    (runEvents (step sameText) (start exampleTable) rotatedRun).bind (fun w => w.calls[0]?) =
      some (acceptedOld newLookupId (secretOf 'b')
        [{ lookupId := newLookupId, hash := secretOf 'b' }]) := by
  have hrun := runEvents_oldPlaintext [.rotateKey "k1" .called]
    [.findById 1, .rotate 1 newLookupId (secretOf 'b') (secretOf 'b'), .updateLastUsed 0 6]
  unfold rotatedRun acceptedOld
  rw [runEvents, step, Option.bind_some, runEvents, step, Option.bind_some]
  unfold start
  refine (congrArg (Option.bind · _) hrun).trans ?_
  generalize oldPlaintext = plaintext, newLookupId = lookupId', secretOf 'b' = secret'
  unfold exampleTable checkingOld
  generalize oldLookupId = lookupId, secretOf 'a' = secret
  simp [runEvents, step, afterStamp, noteRotation, findRow,
    PrismaApiKeyStorage.findById, PrismaApiKeyStorage.lookupTaken, PrismaApiKeyStorage.rotate,
    PrismaApiKeyStorage.updateLastUsed, PrismaApiKeyStorage.update, updateMany,
    PrismaApiKeyStorage.fromRow]

/-- The world of a run whose first call ends as given. -/
theorem exists_world_of_run {events : List Event} {call : Call}
    (hrun :
      (runEvents (step sameText) (start exampleTable) events).bind (fun w => w.calls[0]?) =
        some call) :
    ∃ w, Reaches (step sameText) anyEvent (start exampleTable) w ∧ call ∈ w.calls := by
  obtain ⟨w, hw, hcall⟩ := Option.bind_eq_some_iff.mp hrun
  exact ⟨w, reaches_of_runEvents hw, List.mem_of_getElem? hcall⟩

/-- Without the rotation the same verification accepts the key's own plaintext. -/
theorem unrotatedRun_takesEffect :
    ∃ w, Reaches (step sameText) anyEvent (start exampleTable) w ∧
      ∃ verified stamp,
        Call.verifyKey oldPlaintext (.returned (.ok verified) stamp) ∈ w.calls ∧
          TakesEffect sameText oldPlaintext (.ok verified) stamp := by
  have hcalls :
      (runEvents (step sameText) (start exampleTable)
          [.verifyKey oldPlaintext, .findByLookupId 0 5, .argon2Verify 0,
            .updateLastUsed 0 6]).bind (fun w => w.calls[0]?) =
        some (acceptedOld oldLookupId (secretOf 'a') []) := by
    rw [runEvents, step, Option.bind_some]
    unfold start acceptedOld
    refine (congrArg (Option.bind · _) (runEvents_oldPlaintext [] [.updateLastUsed 0 6])).trans ?_
    generalize oldPlaintext = plaintext
    unfold exampleTable checkingOld
    generalize oldLookupId = lookupId, secretOf 'a' = secret
    rfl
  obtain ⟨w, hrun, hmem⟩ := exists_world_of_run hcalls
  refine ⟨w, hrun, _, _, hmem, (verifyKey_takesEffect_iff hrun hmem).mpr ?_⟩
  intro s hs last hlast
  obtain rfl := Option.some.inj hs
  cases hlast

/-- The plaintext from before a committed rotation is accepted. -/
theorem rotatedRun_accepts_old :
    ¬ ∀ (argon2Verify : String → String → Bool) (table : ApiKeyTable) (w : World),
        Reaches (step argon2Verify) anyEvent (start table) w →
        ∀ plaintext result stamp,
          Call.verifyKey plaintext (.returned result stamp) ∈ w.calls →
            TakesEffect argon2Verify plaintext result stamp := by
  intro hall
  obtain ⟨w, hrun, hmem⟩ := exists_world_of_run rotatedRun_calls
  obtain ⟨s, hs, secret, hparse, -⟩ := hall sameText exampleTable w hrun _ _ _ hmem _ rfl
  obtain rfl := Option.some.inj hs
  rw [parsePlaintext_oldPlaintext] at hparse
  have hlookup : oldLookupId = newLookupId := (Prod.mk.inj (Option.some.inj hparse)).1
  exact absurd hlookup (by decide)

end Revocation
end ApiKeys
end NestBase
