import NestBase.Lib.Table
import NestBase.Lib.Text
import NestBase.Lib.Transaction
import NestBase.Lib.Transition
import Mathlib.Logic.Function.Basic

/-!
# Tenants created by their users

`createForUser` looks a tenant up by its name and then creates it together with
its first member.  The storage keeps tenants as organizations, whose unique
column is a slug derived from the name, and it looks a name up by its slug.

In every run in which a lookup finds a slug exactly when the name is taken, and
an insert runs only while the name is free (`Sound`), the names stay unique and
every call is answered as the names say.
-/

namespace NestBase
namespace TenantSelfService

open Lib

/-! ## Rows -/

structure TenantPlanRow where
  id : String
  name : String
  createdAt : Int
deriving DecidableEq

inductive TenantMemberStatus where
  | ACTIVE
  | INVITED
  | SUSPENDED
deriving DecidableEq

structure TenantMemberRecord where
  id : String
  userId : String
  tenantId : String
  role : String
  status : TenantMemberStatus
  invitedAt : Option Int
  joinedAt : Option Int
deriving DecidableEq

/-- A row of the table `organization`. -/
structure Organization where
  id : String
  name : String
  slug : Option String
  createdAt : Int
deriving DecidableEq

/-- A row of the table `member`. -/
structure Member where
  id : String
  organizationId : String
  userId : String
  role : String
  createdAt : Int
deriving DecidableEq

structure Database where
  organizations : List Organization
  members : List Member
  /-- The ids of the table `users`. -/
  users : List String

inductive DbError where
  | uniqueConstraint (column : String)
  | foreignKeyConstraint (column : String)
  | connection
deriving DecidableEq

/-! ## The storage -/

def isSlugChar (c : Char) : Bool :=
  decide ('a' ≤ c ∧ c ≤ 'z') || decide ('0' ≤ c ∧ c ≤ '9')

/-- `replace(/[^a-z0-9]+/g, "-")`, after a character that was replaced or not. -/
def replaceRuns : Bool → List Char → List Char
  | _, [] => []
  | replaced, c :: rest =>
      if isSlugChar c then c :: replaceRuns false rest
      else if replaced then replaceRuns true rest
      else '-' :: replaceRuns true rest

section Storage

variable (toLowerCase : String → String)

def nameToSlug (name : String) : String :=
  String.ofList (replaceRuns false (toLowerCase name).toList)

def findTenantByName (database : Database) (name : String) : Option TenantPlanRow :=
  (findRow Organization.slug (some (nameToSlug toLowerCase name)) database.organizations).map
    fun row => { id := row.id, name := row.name, createdAt := row.createdAt }

/-- `tx.organization.create` -/
def organizationCreate (row : Organization) (database : Database) :
    Except DbError (Organization × Database) :=
  if (findRow Organization.id row.id database.organizations).isSome then
    .error (.uniqueConstraint "id")
  else if row.slug.isSome ∧ (findRow Organization.slug row.slug database.organizations).isSome then
    .error (.uniqueConstraint "slug")
  else .ok (row, { database with organizations := database.organizations ++ [row] })

/-- `tx.member.create` -/
def memberCreate (row : Member) (database : Database) : Except DbError (Member × Database) :=
  if (findRow Member.id row.id database.members).isSome then
    .error (.uniqueConstraint "id")
  else if (findRow Organization.id row.organizationId database.organizations).isNone then
    .error (.foreignKeyConstraint "organization_id")
  else if row.userId ∉ database.users then .error (.foreignKeyConstraint "user_id")
  else .ok (row, { database with members := database.members ++ [row] })

/-- The statements of `createTenantWithMember`, each with its fault. -/
def createStatements
    (faults : Nat → Option DbError) (now : Int)
    (tenant : TenantPlanRow) (member : TenantMemberRecord) :
    Body Database DbError (TenantPlanRow × TenantMemberRecord) := do
  let insertedOrg ← statement (faults 0) (organizationCreate {
    id := tenant.id
    name := tenant.name
    slug := some (nameToSlug toLowerCase tenant.name)
    createdAt := tenant.createdAt })
  let insertedMember ← statement (faults 1) (memberCreate {
    id := member.id
    userId := member.userId
    organizationId := tenant.id
    role := member.role
    createdAt := member.joinedAt.getD now })
  pure
    ({ id := insertedOrg.id, name := insertedOrg.name, createdAt := insertedOrg.createdAt },
      { id := insertedMember.id
        userId := insertedMember.userId
        tenantId := insertedMember.organizationId
        role := insertedMember.role
        status := .ACTIVE
        invitedAt := none
        joinedAt := some insertedMember.createdAt })

def createTenantWithMember
    (faults : Nat → Option DbError) (now : Int)
    (tenant : TenantPlanRow) (member : TenantMemberRecord) (database : Database) :
    Except DbError (TenantPlanRow × TenantMemberRecord) × Database :=
  transaction (faults 2) (createStatements toLowerCase faults now tenant member) database

end Storage

/-! ## The service -/

structure CreateTenantInput where
  name : Option String
  ownerId : Option String
deriving DecidableEq

inductive CreateError where
  | error (message : String)
  /-- Its message is the name after "tenant name already taken: ". -/
  | tenantNameTaken (name : String)
  | database (error : DbError)
deriving DecidableEq

def OWNER_ROLE : String := "owner"

def trimmedName (input : CreateTenantInput) : String :=
  Text.trim (input.name.getD "")

/-- The checks before the first query: the trimmed name and the owner. -/
def validated (input : CreateTenantInput) : Except CreateError (String × String) :=
  if trimmedName input = "" then .error (.error "tenant name is required")
  else
    match Text.truthy input.ownerId with
    | none => .error (.error "ownerId is required")
    | some ownerId => .ok (trimmedName input, ownerId)

abbrev Outcome := Except CreateError (TenantPlanRow × TenantMemberRecord)

/-- How far a call is. -/
inductive Phase where
  | called
  /-- The lookup is under way. -/
  | looking (name ownerId : String)
  /-- The transaction is under way. -/
  | creating (tenant : TenantPlanRow) (member : TenantMemberRecord)
  | finished (outcome : Outcome)
deriving DecidableEq

/-- What a call is resumed with. -/
inductive Turn where
  | enter
  /-- The lookup runs; the ids and the time are those drawn after it. -/
  | lookup (tenantId memberId : String) (now : Int)
  | lookupFails (error : DbError)
  /-- The transaction runs. -/
  | create (faults : Nat → Option DbError) (now : Int)

section Service

variable (toLowerCase : String → String)

def createForUser (input : CreateTenantInput) (database : Database) :
    Phase → Turn → Option (Phase × Database)
  | .called, .enter =>
      match validated input with
      | .error error => some (.finished (.error error), database)
      | .ok (name, ownerId) => some (.looking name ownerId, database)
  | .looking name ownerId, .lookup tenantId memberId now =>
      match findTenantByName toLowerCase database name with
      | some _ => some (.finished (.error (.tenantNameTaken name)), database)
      | none =>
          some
            (.creating { id := tenantId, name := name, createdAt := now }
              { id := memberId
                userId := ownerId
                tenantId := tenantId
                role := OWNER_ROLE
                status := .ACTIVE
                invitedAt := none
                joinedAt := some now },
              database)
  | .looking _ _, .lookupFails error => some (.finished (.error (.database error)), database)
  | .creating tenant member, .create faults now =>
      match createTenantWithMember toLowerCase faults now tenant member database with
      | (.error error, database') => some (.finished (.error (.database error)), database')
      | (.ok result, database') => some (.finished (.ok result), database')
  | _, _ => none

/-! ## Overlapping calls -/

structure Call where
  input : CreateTenantInput
  phase : Phase
deriving DecidableEq

structure World where
  database : Database
  calls : Nat → Option Call

inductive Event where
  | call (c : Nat) (input : CreateTenantInput)
  | turn (c : Nat) (turn : Turn)

def initialWorld (database : Database) : World where
  database := database
  calls _ := none

def World.set (w : World) (database : Database) (c : Nat) (call : Call) : World where
  database := database
  calls := Function.update w.calls c (some call)

def step (w : World) : Event → Option World
  | .call c input =>
      if (w.calls c).isNone then some (w.set w.database c { input := input, phase := .called })
      else none
  | .turn c turn =>
      (w.calls c).bind fun call =>
        (createForUser toLowerCase call.input w.database call.phase turn).map fun next =>
          w.set next.2 c { call with phase := next.1 }

/-! ## Sound answers -/

def Database.HasName (database : Database) (name : String) : Prop :=
  ∃ row ∈ database.organizations, row.name = name

/-- Organizations have different ids, and members belong to an organization. -/
structure Database.Consistent (database : Database) : Prop where
  ids : KeysNodup Organization.id database.organizations
  references :
    ∀ row ∈ database.members,
      ∃ organization ∈ database.organizations, organization.id = row.organizationId

/-- The names say the same as what the step goes by. -/
def SoundTurn (database : Database) (input : CreateTenantInput) : Phase → Turn → Prop
  | .called, .enter =>
      (∃ checked, validated input = .ok checked) ∨ ¬ database.HasName (trimmedName input)
  | .looking name _, .lookup _ _ _ =>
      (∃ row ∈ database.organizations, row.slug = some (nameToSlug toLowerCase name)) ↔
        database.HasName name
  | .looking name _, .lookupFails _ => ¬ database.HasName name
  | .creating tenant _, .create _ _ => ¬ database.HasName tenant.name
  | _, _ => True

def Sound (w : World) : Event → Prop
  | .call _ _ => True
  | .turn c turn =>
      ∀ call, w.calls c = some call → SoundTurn toLowerCase w.database call.input call.phase turn

/-- The tenant has the trimmed name, and the caller is its one member, the owner. -/
structure Owned
    (database : Database) (input : CreateTenantInput)
    (result : TenantPlanRow × TenantMemberRecord) : Prop where
  name : result.1.name = trimmedName input
  stored : ∃ row ∈ database.organizations, row.id = result.1.id ∧ row.name = result.1.name
  owner :
    ∃ row, database.members.filter (fun m => m.organizationId = result.1.id) = [row] ∧
      row.role = OWNER_ROLE ∧ input.ownerId = some row.userId

/-- The tenants of the calls are owned, and no tenant is new but theirs. -/
structure Tenants (start w : World) : Prop where
  owned :
    ∀ c call result, w.calls c = some call → call.phase = .finished (.ok result) →
      Owned w.database call.input result
  created :
    ∀ row ∈ w.database.organizations, row ∈ start.database.organizations ∨
      ∃ c call result, w.calls c = some call ∧ call.phase = .finished (.ok result) ∧
        result.1.id = row.id

/-- The step answers a call only as the names before it say, and writes only for a tenant. -/
structure Answered (w w' : World) : Prop where
  taken :
    ∀ c call outcome, w.calls c = some call → (∀ earlier, call.phase ≠ .finished earlier) →
      w'.calls c = some { call with phase := .finished outcome } →
        ((∃ name, outcome = .error (.tenantNameTaken name)) ↔
          w.database.HasName (trimmedName call.input))
  kept :
    (∀ c call result, w.calls c = some call →
      w'.calls c = some { call with phase := .finished (.ok result) } →
        call.phase = .finished (.ok result)) →
    w'.database = w.database

/-! ## The transaction -/

variable {toLowerCase : String → String}

/-- The rows a created tenant adds. -/
structure Creates
    (tenant : TenantPlanRow) (member : TenantMemberRecord)
    (result : TenantPlanRow × TenantMemberRecord)
    (organization : Organization) (row : Member)
    (database database' : Database) : Prop where
  free : findRow Organization.id tenant.id database.organizations = none
  named : organization.id = tenant.id ∧ organization.name = tenant.name
  joined : row.organizationId = tenant.id ∧ row.userId = member.userId ∧ row.role = member.role
  answer : result.1.id = tenant.id ∧ result.1.name = tenant.name
  written :
    database' = { database with
      organizations := database.organizations ++ [organization]
      members := database.members ++ [row] }

variable {database database' : Database}

theorem organizationCreate_eq_ok
    {row inserted : Organization}
    (h : organizationCreate row database = .ok (inserted, database')) :
    findRow Organization.id row.id database.organizations = none ∧ inserted = row ∧
      database' = { database with organizations := database.organizations ++ [row] } := by
  unfold organizationCreate at h
  split at h
  · cases h
  · next hfree =>
    split at h
    · cases h
    · cases h
      exact ⟨by simpa using hfree, rfl, rfl⟩

theorem memberCreate_eq_ok
    {row inserted : Member}
    (h : memberCreate row database = .ok (inserted, database')) :
    inserted = row ∧ database' = { database with members := database.members ++ [row] } := by
  unfold memberCreate at h
  split at h
  · cases h
  · split at h
    · cases h
    · split at h
      · cases h
      · cases h
        exact ⟨rfl, rfl⟩

theorem createTenantWithMember_eq_ok
    {faults : Nat → Option DbError} {now : Int}
    {tenant : TenantPlanRow} {member : TenantMemberRecord}
    {result : TenantPlanRow × TenantMemberRecord}
    (h :
      createTenantWithMember toLowerCase faults now tenant member database =
        (.ok result, database')) :
    ∃ organization row, Creates tenant member result organization row database database' := by
  obtain ⟨-, hbody⟩ := transaction_eq_ok_iff.mp h
  unfold createStatements at hbody
  obtain ⟨inserted, between, hfirst, hrest⟩ := Body.bind_eq_ok_iff.mp hbody
  obtain ⟨insertedMember, after, hsecond, hlast⟩ := Body.bind_eq_ok_iff.mp hrest
  obtain ⟨-, hinserted⟩ := statement_eq_ok_iff.mp hfirst
  obtain ⟨-, hmember⟩ := statement_eq_ok_iff.mp hsecond
  obtain ⟨hfree, rfl, rfl⟩ := organizationCreate_eq_ok hinserted
  obtain ⟨rfl, rfl⟩ := memberCreate_eq_ok hmember
  cases Body.pure_eq_ok_iff.mp hlast
  exact
    ⟨_, _,
      { free := hfree
        named := ⟨rfl, rfl⟩
        joined := ⟨rfl, rfl, rfl⟩
        answer := ⟨rfl, rfl⟩
        written := rfl }⟩

/-- What a turn does to a call. -/
inductive Moves (toLowerCase : String → String) (input : CreateTenantInput) (database : Database) :
    Phase → Turn → Phase → Database → Prop
  | refused {error : CreateError} (hvalidated : validated input = .error error) :
      Moves toLowerCase input database .called .enter (.finished (.error error)) database
  | entered {name ownerId : String} (hvalidated : validated input = .ok (name, ownerId)) :
      Moves toLowerCase input database .called .enter (.looking name ownerId) database
  | taken {name ownerId tenantId memberId : String} {now : Int} {found : TenantPlanRow}
      (hfound : findTenantByName toLowerCase database name = some found) :
      Moves toLowerCase input database (.looking name ownerId) (.lookup tenantId memberId now)
        (.finished (.error (.tenantNameTaken name))) database
  | free {name ownerId tenantId memberId : String} {now : Int}
      (hfound : findTenantByName toLowerCase database name = none) :
      Moves toLowerCase input database (.looking name ownerId) (.lookup tenantId memberId now)
        (.creating { id := tenantId, name := name, createdAt := now }
          { id := memberId
            userId := ownerId
            tenantId := tenantId
            role := OWNER_ROLE
            status := .ACTIVE
            invitedAt := none
            joinedAt := some now })
        database
  | lookupFails {name ownerId : String} {error : DbError} :
      Moves toLowerCase input database (.looking name ownerId) (.lookupFails error)
        (.finished (.error (.database error))) database
  | createFails
      {tenant : TenantPlanRow} {member : TenantMemberRecord} {faults : Nat → Option DbError}
      {now : Int} {error : DbError} :
      Moves toLowerCase input database (.creating tenant member) (.create faults now)
        (.finished (.error (.database error))) database
  | created
      {tenant : TenantPlanRow} {member : TenantMemberRecord} {faults : Nat → Option DbError}
      {now : Int} {result : TenantPlanRow × TenantMemberRecord} {database' : Database}
      (hcreated :
        createTenantWithMember toLowerCase faults now tenant member database =
          (.ok result, database')) :
      Moves toLowerCase input database (.creating tenant member) (.create faults now)
        (.finished (.ok result)) database'

variable {input : CreateTenantInput}
variable {phase phase' : Phase}
variable {turn : Turn}

theorem moves_of_createForUser
    (h : createForUser toLowerCase input database phase turn = some (phase', database')) :
    Moves toLowerCase input database phase turn phase' database' := by
  cases phase with
  | called =>
      cases turn with
      | enter =>
          simp only [createForUser] at h
          cases hvalidated : validated input with
          | error error =>
              rw [hvalidated] at h
              cases h
              exact .refused hvalidated
          | ok checked =>
              rw [hvalidated] at h
              cases h
              exact .entered hvalidated
      | _ => cases h
  | looking name ownerId =>
      cases turn with
      | lookup tenantId memberId now =>
          simp only [createForUser] at h
          cases hfound : findTenantByName toLowerCase database name with
          | some found =>
              rw [hfound] at h
              cases h
              exact .taken hfound
          | none =>
              rw [hfound] at h
              cases h
              exact .free hfound
      | lookupFails error =>
          cases h
          exact .lookupFails
      | _ => cases h
  | creating tenant member =>
      cases turn with
      | create faults now =>
          simp only [createForUser] at h
          cases hcreated : createTenantWithMember toLowerCase faults now tenant member database with
          | mk outcome after =>
              rw [hcreated] at h
              cases outcome with
              | error error =>
                  cases h
                  cases transaction_of_error hcreated
                  exact .createFails
              | ok result =>
                  cases h
                  exact .created hcreated
      | _ => cases h
  | finished outcome => cases h

/-- A turn ends a call with a tenant, or writes nothing. -/
theorem createForUser_cases
    (h : createForUser toLowerCase input database phase turn = some (phase', database')) :
    (database' = database ∧ ∀ result, phase' ≠ .finished (.ok result)) ∨
    ∃ tenant member faults now result, phase = .creating tenant member ∧
      turn = .create faults now ∧ phase' = .finished (.ok result) ∧
      createTenantWithMember toLowerCase faults now tenant member database =
        (.ok result, database') := by
  cases moves_of_createForUser h with
  | refused hvalidated => exact Or.inl ⟨rfl, nofun⟩
  | entered hvalidated => exact Or.inl ⟨rfl, nofun⟩
  | taken hfound => exact Or.inl ⟨rfl, nofun⟩
  | free hfound => exact Or.inl ⟨rfl, nofun⟩
  | lookupFails => exact Or.inl ⟨rfl, nofun⟩
  | createFails => exact Or.inl ⟨rfl, nofun⟩
  | created hcreated => exact Or.inr ⟨_, _, _, _, _, rfl, rfl, rfl, hcreated⟩

/-! ## The invariant -/

/-- What a call has drawn from its input. -/
def PhaseOk (input : CreateTenantInput) : Phase → Prop
  | .looking name ownerId => name = trimmedName input ∧ input.ownerId = some ownerId
  | .creating tenant member =>
      tenant.name = trimmedName input ∧ member.role = OWNER_ROLE ∧
        input.ownerId = some member.userId
  | _ => True

structure Inv (start w : World) : Prop where
  consistent : w.database.Consistent
  names : KeysNodup Organization.name w.database.organizations
  phases : ∀ c call, w.calls c = some call → PhaseOk call.input call.phase
  tenants : Tenants start w

theorem validated_eq_ok {name ownerId : String} (h : validated input = .ok (name, ownerId)) :
    name = trimmedName input ∧ input.ownerId = some ownerId := by
  unfold validated at h
  split at h
  · cases h
  · cases howner : Text.truthy input.ownerId with
    | none =>
        rw [howner] at h
        cases h
    | some owner =>
        rw [howner] at h
        cases h
        exact ⟨rfl, (Text.truthy_eq_some_iff.mp howner).1⟩

/-- A turn keeps what the call has drawn from its input. -/
theorem phaseOk_createForUser
    (hphase : PhaseOk input phase)
    (h : createForUser toLowerCase input database phase turn = some (phase', database')) :
    PhaseOk input phase' := by
  cases moves_of_createForUser h with
  | refused hvalidated => trivial
  | entered hvalidated => exact validated_eq_ok hvalidated
  | taken hfound => trivial
  | free hfound => exact ⟨hphase.1, rfl, hphase.2⟩
  | lookupFails => trivial
  | createFails => trivial
  | created hcreated => trivial

/-! ## A created tenant -/

section Creates

variable {tenant : TenantPlanRow} {member : TenantMemberRecord}
variable {result : TenantPlanRow × TenantMemberRecord}
variable {organization : Organization} {row : Member}
variable {database database' : Database}

theorem Creates.id_free
    (h : Creates tenant member result organization row database database')
    {other : Organization}
    (hother : other ∈ database.organizations) :
    other.id ≠ tenant.id := by
  intro hid
  exact findRow_eq_none_iff.mp h.free (List.mem_map.mpr ⟨other, hother, hid⟩)

theorem Creates.consistent
    (h : Creates tenant member result organization row database database')
    (hconsistent : database.Consistent) :
    database'.Consistent := by
  obtain ⟨hids, hreferences⟩ := hconsistent
  rw [h.written]
  constructor
  · refine KeysNodup.insertRow hids (insertRow_eq_some_iff.mpr ⟨?_, rfl⟩)
    rw [h.named.1]
    exact h.free
  · intro other hother
    rcases List.mem_append.mp hother with hold | hnew
    · obtain ⟨parent, hparent, hid⟩ := hreferences other hold
      exact ⟨parent, List.mem_append_left _ hparent, hid⟩
    · cases List.mem_singleton.mp hnew
      exact ⟨organization, List.mem_append_right _ (List.mem_singleton_self _),
        h.named.1.trans h.joined.1.symm⟩

theorem Creates.names
    (h : Creates tenant member result organization row database database')
    (hnames : KeysNodup Organization.name database.organizations)
    (hfree : ¬ database.HasName tenant.name) :
    KeysNodup Organization.name database'.organizations := by
  rw [h.written]
  refine KeysNodup.insertRow hnames (insertRow_eq_some_iff.mpr ⟨?_, rfl⟩)
  rw [findRow_eq_none_iff, h.named.2]
  intro hmem
  obtain ⟨other, hother, hname⟩ := List.mem_map.mp hmem
  exact hfree ⟨other, hother, hname⟩

/-- The members of the other organizations stay the same. -/
theorem Creates.owned
    (h : Creates tenant member result organization row database database')
    {input : CreateTenantInput} {earlier : TenantPlanRow × TenantMemberRecord}
    (howned : Owned database input earlier) :
    Owned database' input earlier := by
  obtain ⟨hname, ⟨stored, hstored, hid, hstoredName⟩, owner, howner, hrole, hcaller⟩ := howned
  have hother : row.organizationId ≠ earlier.1.id := by
    rw [h.joined.1, ← hid]
    exact (h.id_free hstored).symm
  refine ⟨hname, ⟨stored, ?_, hid, hstoredName⟩, owner, ?_, hrole, hcaller⟩
  · rw [h.written]
    exact List.mem_append_left _ hstored
  · rw [h.written]
    simp only [List.filter_append, howner]
    rw [List.filter_singleton, decide_eq_false hother]
    rfl

/-- The new tenant had no member before. -/
theorem Creates.owned_new
    (h : Creates tenant member result organization row database database')
    (hconsistent : database.Consistent)
    {input : CreateTenantInput}
    (hphase : PhaseOk input (.creating tenant member)) :
    Owned database' input result := by
  obtain ⟨hname, hrole, hcaller⟩ := hphase
  obtain ⟨hid, hresultName⟩ := h.answer
  refine ⟨hresultName.trans hname, ⟨organization, ?_, ?_, ?_⟩, row, ?_, ?_, ?_⟩
  · rw [h.written]
    exact List.mem_append_right _ (List.mem_singleton_self _)
  · rw [h.named.1, hid]
  · rw [h.named.2, hresultName]
  · have hnone : database.members.filter (fun m => m.organizationId = result.1.id) = [] := by
      rw [List.filter_eq_nil_iff]
      intro other hother
      obtain ⟨parent, hparent, hparentId⟩ := hconsistent.references other hother
      rw [← hparentId, hid]
      exact fun hsame => h.id_free hparent (of_decide_eq_true hsame)
    rw [h.written]
    simp only [List.filter_append, hnone]
    rw [List.filter_singleton, h.joined.1, hid]
    simp
  · rw [h.joined.2.2, hrole]
  · rw [h.joined.2.1, hcaller]

end Creates

/-! ## Runs -/

variable {start w w' : World}

theorem inv_initialWorld
    (hconsistent : database.Consistent)
    (hnames : KeysNodup Organization.name database.organizations) :
    Inv (initialWorld database) (initialWorld database) where
  consistent := hconsistent
  names := hnames
  phases := by
    intro c call hcall
    cases hcall
  tenants :=
    { owned := by
        intro c call result hcall
        cases hcall
      created := fun _ hrow => Or.inl hrow }

/-- A call that writes nothing and ends without a tenant. -/
theorem Inv.set
    (h : Inv start w)
    {c : Nat} {call : Call}
    (hphase : PhaseOk call.input call.phase)
    (hopen : ∀ result, call.phase ≠ .finished (.ok result))
    (hbefore :
      ∀ old, w.calls c = some old → ∀ result, old.phase ≠ .finished (.ok result)) :
    Inv start (w.set w.database c call) := by
  refine ⟨h.consistent, h.names, ?_, ?_, ?_⟩
  · intro d other hother
    rcases update_some_cases hother with ⟨-, rfl⟩ | ⟨-, hold⟩
    · exact hphase
    · exact h.phases d other hold
  · intro d other result hother hfinished
    rcases update_some_cases hother with ⟨-, rfl⟩ | ⟨-, hold⟩
    · exact absurd hfinished (hopen result)
    · exact h.tenants.owned d other result hold hfinished
  · intro row hrow
    rcases h.tenants.created row hrow with hstart | ⟨d, other, result, hother, hfinished, hid⟩
    · exact Or.inl hstart
    · refine Or.inr ⟨d, other, result, ?_, hfinished, hid⟩
      have hd : d ≠ c := by
        rintro rfl
        exact hbefore other hother result hfinished
      exact (Function.update_of_ne hd _ _).trans hother

/-- A call that ends with its tenant. -/
theorem Inv.create
    (h : Inv start w)
    {c : Nat} {call : Call} {tenant : TenantPlanRow} {member : TenantMemberRecord}
    {result : TenantPlanRow × TenantMemberRecord} {organization : Organization} {row : Member}
    (hcall : w.calls c = some call)
    (hphase : call.phase = .creating tenant member)
    (hcreates : Creates tenant member result organization row w.database database')
    (hfree : ¬ w.database.HasName tenant.name) :
    Inv start (w.set database' c { call with phase := .finished (.ok result) }) := by
  have hdrawn : PhaseOk call.input (.creating tenant member) := by
    have hok := h.phases c call hcall
    rwa [hphase] at hok
  refine ⟨hcreates.consistent h.consistent, hcreates.names h.names hfree, ?_, ?_, ?_⟩
  · intro d other hother
    rcases update_some_cases hother with ⟨-, rfl⟩ | ⟨-, hold⟩
    · trivial
    · exact h.phases d other hold
  · intro d other earlier hother hfinished
    rcases update_some_cases hother with ⟨-, rfl⟩ | ⟨-, hold⟩
    · cases hfinished
      exact hcreates.owned_new h.consistent hdrawn
    · exact hcreates.owned (h.tenants.owned d other earlier hold hfinished)
  · intro other hother
    have hcases : other ∈ w.database.organizations ++ [organization] := by
      have hwritten : other ∈ database'.organizations := hother
      rwa [hcreates.written] at hwritten
    rcases List.mem_append.mp hcases with hold | hnew
    · rcases h.tenants.created other hold with hstart | ⟨d, earlier, found, hd, hfinished, hid⟩
      · exact Or.inl hstart
      · refine Or.inr ⟨d, earlier, found, ?_, hfinished, hid⟩
        have hne : d ≠ c := by
          rintro rfl
          rw [hcall] at hd
          cases hd
          rw [hphase] at hfinished
          cases hfinished
        exact (Function.update_of_ne hne _ _).trans hd
    · cases List.mem_singleton.mp hnew
      exact
        Or.inr ⟨c, { call with phase := .finished (.ok result) }, result,
          Function.update_self _ _ _, rfl, hcreates.answer.1.trans hcreates.named.1.symm⟩

theorem inv_step
    (h : Inv start w)
    {event : Event}
    (hguard : Sound toLowerCase w event)
    (hstep : step toLowerCase w event = some w') :
    Inv start w' := by
  cases event with
  | call c input =>
      rw [step] at hstep
      split at hstep
      · next hnone =>
        cases hstep
        refine h.set trivial nofun ?_
        intro old hold
        rw [Option.isNone_iff_eq_none.mp hnone] at hold
        cases hold
      · cases hstep
  | turn c turn =>
      rw [step, Option.bind_eq_some_iff] at hstep
      obtain ⟨call, hcall, hnext⟩ := hstep
      obtain ⟨⟨phase, database'⟩, hturn, rfl⟩ := Option.map_eq_some_iff.mp hnext
      rcases createForUser_cases hturn with
        ⟨hsame, hopen⟩ | ⟨tenant, member, faults, now, result, hphase, rfl, hphase', hcreated⟩
      · have hsame' : database' = w.database := hsame
        subst hsame'
        refine h.set (phaseOk_createForUser (h.phases c call hcall) hturn) hopen ?_
        intro old hold result hfinished
        rw [hcall] at hold
        cases hold
        rw [hfinished] at hturn
        cases hturn
      · obtain ⟨organization, row, hcreates⟩ := createTenantWithMember_eq_ok hcreated
        have hfree := hguard call hcall
        rw [hphase] at hfree
        have hphase'' : phase = .finished (.ok result) := hphase'
        subst hphase''
        exact h.create hcall hphase hcreates hfree

/-! ## The answers -/

theorem findTenantByName_isSome_iff {name : String} :
    (findTenantByName toLowerCase database name).isSome ↔
      ∃ row ∈ database.organizations, row.slug = some (nameToSlug toLowerCase name) := by
  unfold findTenantByName
  rw [Option.isSome_map, Option.isSome_iff_ne_none, ne_eq, findRow_eq_none_iff, not_not,
    List.mem_map]

/-- A turn that ends a call says that the name is taken exactly when it is. -/
theorem taken_iff
    {input : CreateTenantInput} {database database' : Database} {phase : Phase} {turn : Turn}
    {outcome : Outcome}
    (hphase : PhaseOk input phase)
    (hsound : SoundTurn toLowerCase database input phase turn)
    (h :
      createForUser toLowerCase input database phase turn =
        some (.finished outcome, database')) :
    (∃ name, outcome = .error (.tenantNameTaken name)) ↔
      database.HasName (trimmedName input) := by
  cases moves_of_createForUser h with
  | refused hvalidated =>
      have hfree : ¬ database.HasName (trimmedName input) := by
        rcases hsound with ⟨checked, hchecked⟩ | hfree
        · rw [hvalidated] at hchecked
          cases hchecked
        · exact hfree
      refine iff_of_false ?_ hfree
      rintro ⟨name, hname⟩
      cases hname
      unfold validated at hvalidated
      split at hvalidated
      · cases hvalidated
      · cases howner : Text.truthy input.ownerId with
        | none =>
            rw [howner] at hvalidated
            cases hvalidated
        | some owner =>
            rw [howner] at hvalidated
            cases hvalidated
  | taken hfound =>
      have hslug := findTenantByName_isSome_iff.mp (Option.isSome_of_eq_some hfound)
      rw [← hphase.1]
      exact iff_of_true ⟨_, rfl⟩ (hsound.mp hslug)
  | lookupFails =>
      rw [← hphase.1]
      refine iff_of_false ?_ hsound
      rintro ⟨other, hother⟩
      cases hother
  | createFails =>
      rw [← hphase.1]
      refine iff_of_false ?_ hsound
      rintro ⟨name, hname⟩
      cases hname
  | created hcreated =>
      rw [← hphase.1]
      refine iff_of_false ?_ hsound
      rintro ⟨name, hname⟩
      cases hname

theorem answered_step
    (h : Inv start w)
    {event : Event}
    (hguard : Sound toLowerCase w event)
    (hstep : step toLowerCase w event = some w') :
    Answered w w' := by
  cases event with
  | call c input =>
      rw [step] at hstep
      split at hstep
      · next hnone =>
        cases hstep
        refine ⟨?_, fun _ => rfl⟩
        intro d call outcome hcall hopen hafter
        rcases update_some_cases hafter with ⟨rfl, -⟩ | ⟨-, hsame⟩
        · rw [Option.isNone_iff_eq_none.mp hnone] at hcall
          cases hcall
        · rw [hcall] at hsame
          cases call
          cases hsame
          exact absurd rfl (hopen outcome)
      · cases hstep
  | turn c turn =>
      rw [step, Option.bind_eq_some_iff] at hstep
      obtain ⟨call, hcall, hnext⟩ := hstep
      obtain ⟨⟨phase, database'⟩, hturn, rfl⟩ := Option.map_eq_some_iff.mp hnext
      constructor
      · intro d other outcome hother hopen hafter
        rcases update_some_cases hafter with ⟨rfl, hfinished⟩ | ⟨-, hsame⟩
        · rw [hcall] at hother
          cases hother
          have hphase : phase = .finished outcome := (congrArg Call.phase hfinished).symm
          subst hphase
          exact taken_iff (h.phases d call hcall) (hguard call hcall) hturn
        · rw [hother] at hsame
          cases other
          cases hsame
          exact absurd rfl (hopen outcome)
      · intro hnone
        rcases createForUser_cases hturn with
          ⟨hsame, -⟩ | ⟨tenant, member, faults, now, result, hphase, -, hphase', -⟩
        · exact hsame
        · have hfinished : phase = .finished (.ok result) := hphase'
          subst hfinished
          have hearlier := hnone c call result hcall (Function.update_self _ _ _)
          rw [hphase] at hearlier
          cases hearlier

/--
The names of the tenants stay unique, every tenant that is created belongs to
its caller alone, and the next step answers as the names before it say.
-/
theorem answered_of_reaches
    {database : Database}
    (hconsistent : database.Consistent)
    (hnames : KeysNodup Organization.name database.organizations)
    (hrun : Reaches (step toLowerCase) (Sound toLowerCase) (initialWorld database) w) :
    KeysNodup Organization.name w.database.organizations ∧
    Tenants (initialWorld database) w ∧
    ∀ event w', Sound toLowerCase w event → step toLowerCase w event = some w' →
      Answered w w' := by
  have h : Inv (initialWorld database) w :=
    hrun.invariant (inv_initialWorld hconsistent hnames)
      fun _ _ _ hinv hguard hstep => inv_step hinv hguard hstep
  exact ⟨h.names, h.tenants, fun event w' hguard hstep => answered_step h hguard hstep⟩

end Service

/-! ## Two users -/

section Users

/-- Lower case of the letters of ASCII. -/
def lower (s : String) : String :=
  String.ofList (s.toList.map Char.toLower)

def usersOnly : Database where
  organizations := []
  members := []
  users := ["ada", "bob"]

def named (name ownerId : String) : CreateTenantInput where
  name := some name
  ownerId := some ownerId

theorem consistent_usersOnly : usersOnly.Consistent where
  ids := List.nodup_nil
  references := nofun

/-- No statement fails for a reason outside the database. -/
def noFaults (_ : Nat) : Option DbError := none

/-- The first user creates a tenant. -/
def adaCreates (name : String) : List Event :=
  [.call 0 (named name "ada"), .turn 0 .enter, .turn 0 (.lookup "t0" "m0" 5),
    .turn 0 (.create noFaults 5)]

/-- While no tenant is there, every step is sound. -/
theorem sound_of_isEmpty
    (w : World) (event : Event)
    (hempty : w.database.organizations.isEmpty = true) :
    Sound lower w event := by
  have hnone : ∀ row, row ∉ w.database.organizations := by
    rw [List.isEmpty_iff.mp hempty]
    exact fun _ => List.not_mem_nil
  have hfree : ∀ name, ¬ w.database.HasName name := by
    rintro name ⟨row, hrow, -⟩
    exact hnone row hrow
  cases event with
  | call c input => trivial
  | turn c turn =>
      rintro ⟨input, phase⟩ -
      cases phase <;> cases turn <;> try trivial
      case called.enter => exact Or.inr (hfree _)
      case looking.lookup name _ _ _ _ =>
        refine iff_of_false ?_ (hfree name)
        rintro ⟨row, hrow, -⟩
        exact hnone row hrow
      case looking.lookupFails => exact hfree _
      case creating.create => exact hfree _

/-- A tenant is created while its name is free. -/
theorem answered_acme :
    ∃ w, Reaches (step lower) (Sound lower) (initialWorld usersOnly) w ∧
      w.database.organizations.map Organization.name = ["Acme"] ∧
      Tenants (initialWorld usersOnly) w := by
  have hrun :
      (runEvents (checked (fun w _ => w.database.organizations.isEmpty) (step lower))
          (initialWorld usersOnly) (adaCreates "Acme")).map
        (fun w => w.database.organizations.map Organization.name) = some ["Acme"] := by
    decide
  obtain ⟨w, hw, hnames⟩ := Option.map_eq_some_iff.mp hrun
  have hreaches := reaches_of_runEvents_checked sound_of_isEmpty hw
  exact ⟨w, hreaches, hnames,
    (answered_of_reaches consistent_usersOnly List.nodup_nil hreaches).2.1⟩

/-- A step after a run that ends the second call, where the names were others. -/
def answersOf (events : List Event) (event : Event) :
    Option (Option Call × Option Call × List String) :=
  (runEvents (step lower) (initialWorld usersOnly) events).bind fun w =>
    (step lower w event).map fun w' =>
      (w.calls 1, w'.calls 1, w.database.organizations.map Organization.name)

theorem exists_of_answersOf
    {events : List Event} {event : Event} {before after : Option Call} {names : List String}
    (h : answersOf events event = some (before, after, names)) :
    ∃ w w', Reaches (step lower) anyEvent (initialWorld usersOnly) w ∧
      step lower w event = some w' ∧ w.calls 1 = before ∧ w'.calls 1 = after ∧
      w.database.organizations.map Organization.name = names := by
  obtain ⟨w, hw, hnext⟩ := Option.bind_eq_some_iff.mp h
  obtain ⟨w', hstep, hanswer⟩ := Option.map_eq_some_iff.mp hnext
  cases hanswer
  exact ⟨w, w', reaches_of_runEvents hw, hstep, rfl, rfl, rfl⟩

/--
A free name is refused, since another name has its slug; and of two calls that
look one name up before either inserts, the second fails on the unique slug.
-/
theorem not_answered_acme :
    (∃ w event w', Reaches (step lower) anyEvent (initialWorld usersOnly) w ∧
      step lower w event = some w' ∧ ¬ w.database.HasName "Acme-GmbH" ∧
      w'.calls 1 = some
        { input := named "Acme-GmbH" "bob"
          phase := .finished (.error (.tenantNameTaken "Acme-GmbH")) } ∧
      ¬ Answered w w') ∧
    (∃ w event w', Reaches (step lower) anyEvent (initialWorld usersOnly) w ∧
      step lower w event = some w' ∧ w.database.HasName "Acme" ∧
      w'.calls 1 = some
        { input := named "Acme" "bob"
          phase := .finished (.error (.database (.uniqueConstraint "slug"))) } ∧
      ¬ Answered w w') := by
  constructor
  · have hanswer :
        answersOf
            (adaCreates "Acme GmbH" ++ [.call 1 (named "Acme-GmbH" "bob"), .turn 1 .enter])
            (.turn 1 (.lookup "t1" "m1" 6)) =
          some
            (some { input := named "Acme-GmbH" "bob", phase := .looking "Acme-GmbH" "bob" },
              some
                { input := named "Acme-GmbH" "bob"
                  phase := .finished (.error (.tenantNameTaken "Acme-GmbH")) },
              ["Acme GmbH"]) := by
      decide +kernel
    obtain ⟨w, w', hrun, hstep, hbefore, hafter, hnames⟩ := exists_of_answersOf hanswer
    have hfree : ¬ w.database.HasName "Acme-GmbH" := by
      rintro ⟨row, hrow, hname⟩
      have hmem := List.mem_map_of_mem (f := Organization.name) hrow
      rw [hnames, hname] at hmem
      exact absurd hmem (by decide)
    refine ⟨w, _, w', hrun, hstep, hfree, hafter, fun h => hfree ?_⟩
    have htaken := (h.taken 1 _ _ hbefore nofun hafter).mp ⟨_, rfl⟩
    have htrimmed : trimmedName (named "Acme-GmbH" "bob") = "Acme-GmbH" := by decide
    rwa [htrimmed] at htaken
  · have hanswer :
        answersOf
            (.call 1 (named "Acme" "bob") :: .turn 1 .enter ::
              .turn 1 (.lookup "t1" "m1" 6) :: adaCreates "Acme")
            (.turn 1 (.create noFaults 6)) =
          some
            (some
                { input := named "Acme" "bob"
                  phase :=
                    .creating { id := "t1", name := "Acme", createdAt := 6 }
                      { id := "m1"
                        userId := "bob"
                        tenantId := "t1"
                        role := OWNER_ROLE
                        status := .ACTIVE
                        invitedAt := none
                        joinedAt := some 6 } },
              some
                { input := named "Acme" "bob"
                  phase := .finished (.error (.database (.uniqueConstraint "slug"))) },
              ["Acme"]) := by
      decide +kernel
    obtain ⟨w, w', hrun, hstep, hbefore, hafter, hnames⟩ := exists_of_answersOf hanswer
    have htaken : w.database.HasName "Acme" := by
      have hmem : "Acme" ∈ w.database.organizations.map Organization.name := by
        rw [hnames]
        decide
      obtain ⟨row, hrow, hname⟩ := List.mem_map.mp hmem
      exact ⟨row, hrow, hname⟩
    refine ⟨w, _, w', hrun, hstep, htaken, hafter, fun h => ?_⟩
    have htrimmed : trimmedName (named "Acme" "bob") = "Acme" := by decide
    obtain ⟨name, hname⟩ := (h.taken 1 _ _ hbefore nofun hafter).mpr (by rwa [htrimmed])
    cases hname

end Users

end TenantSelfService
end NestBase
