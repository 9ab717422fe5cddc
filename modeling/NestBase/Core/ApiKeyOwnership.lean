import NestBase.Core.ApiKeyService

/-!
# Who may manage which API key

A tenant member has one rule on `ApiKey`, with the condition that the key's
`userId` is the member's own.  The guard checks the subject type, where CASL
does not look at conditions, and the handlers take the user id and the key id
from the request.  So the member's requests reach every key: the result below
says for each of the four routes exactly when a request stays within the
caller's own keys.
-/

namespace NestBase
namespace ApiKeys

open Lib
open Permissions

/-! ## Property and condition -/

/-- The keys a response shows. -/
def ApiKeyResponse.reveals : ApiKeyResponse → List ApiKeyRecord
  | keys records => records
  | issued _ record => [record]
  | removed => []

/-- Keys shown, added, replaced or removed all belong to the user. -/
def ManagesOnlyOwn (u : String) (table : ApiKeyTable) (handled : Handled) : Prop :=
  (∀ response, handled.1 = .ok response → ∀ record ∈ response.reveals, record.userId = u) ∧
  (∀ row ∈ handled.2.rows, row ∉ table.rows → row.userId = u) ∧
  (∀ row ∈ table.rows, row ∉ handled.2.rows → row.userId = u)

/-- The rules that apply to keys are the synthesized member rule. -/
def OnlyMemberRules (u : String) (ability : Ability) : Prop :=
  ability.filter (fun rule => rule.subject.contains "ApiKey" || rule.subject.contains "all") =
    [ownRule u "ApiKey"]

/-- The body passes every check and the database takes the row. -/
structure CreateAccepted
    (env : RequestEnv)
    (table : ApiKeyTable)
    (body : Json)
    (userId : String) : Prop where
  userId_field : body.field? "userId" = some (.str userId)
  userId_present : userId ≠ ""
  name_field : ∃ name, body.field? "name" = some (.str name) ∧ name ≠ ""
  scopes_field :
    ∃ items scopes,
      body.field? "scopes" = some (.arr items) ∧ validateApiKeyScopes items = .ok scopes
  expiry : ∃ expiresAt, expiryOf env body = some expiresAt
  taken : env.insertRejects = false
  id_free : findRow ApiKeyRow.id env.id table.rows = none
  lookup_free : PrismaApiKeyStorage.lookupTaken table env.id env.lookupId = false

/-- The request addresses the caller's own keys, or is refused. -/
def AddressesOwn (env : RequestEnv) (table : ApiKeyTable) (u : String) : ApiKeyRequest → Prop
  | .list userId =>
      env.listByUserRejects = false →
      ∀ row ∈ table.rows, row.userId = userId → row.userId = u
  | .create body => ∀ userId, CreateAccepted env table body userId → userId = u
  | .rotate id =>
      env.findByIdRejects = false →
      env.rotateRejects = false →
      PrismaApiKeyStorage.lookupTaken table id env.lookupId = false →
      ∀ row ∈ table.rows, row.id = id → row.userId = u
  | .remove id =>
      env.deleteRejects = false →
      ∀ row ∈ table.rows, row.id = id → row.userId = u

/-! ## The guard lets every member through -/

/-- The ability of a user whose only rows are the synthesized ones of a tenant member. -/
def memberAbility (userId tenantId : String) : Ability :=
  match
    resolveDbRules { userId := userId, now := "", tenantId := some tenantId }
      (buildMemberRoleRules DEFAULT_MEMBER_RESOURCES DEFAULT_MEMBER_PER_USER_RESOURCES)
  with
  | .ok rules => buildAbility rules
  | .error _ => buildAbility []

theorem onlyMemberRules_memberAbility (userId tenantId : String) :
    OnlyMemberRules userId (memberAbility userId tenantId) := by
  rfl

section Guard

variable {can : Ability → String → String → Bool}

theorem serve_eq_dispatch
    (hcan : ChecksTypesOnly can)
    {u : String} {ability : Ability}
    (hrules : OnlyMemberRules u ability)
    (env : RequestEnv) (table : ApiKeyTable) (request : ApiKeyRequest) :
    serve can env (some ability) table request =
      ApiKeyController.dispatch env table request := by
  have hmem : ownRule u "ApiKey" ∈ ability := by
    have hfilter : ownRule u "ApiKey" ∈
        ability.filter fun rule =>
          rule.subject.contains "ApiKey" || rule.subject.contains "all" := by
      rw [hrules]
      exact List.mem_singleton.mpr rfl
    exact (List.mem_filter.mp hfilter).1
  have hplain :
      ∀ other ∈ ability,
        "ApiKey" ∈ other.subject ∨ "all" ∈ other.subject → other.inverted = false := by
    intro other hother hsubject
    have hfilter : other ∈
        ability.filter fun rule =>
          rule.subject.contains "ApiKey" || rule.subject.contains "all" := by
      refine List.mem_filter.mpr ⟨hother, ?_⟩
      simpa using hsubject
    rw [hrules, List.mem_singleton] at hfilter
    rw [hfilter]
    rfl
  have hguard :
      ∀ action, CanGuard.canActivate can (some (action, "ApiKey")) (some ability) = .ok () := by
    intro action
    exact canActivate_of_rule hcan hmem (List.mem_singleton.mpr rfl)
      (List.mem_singleton.mpr rfl) hplain
  unfold serve
  cases request <;> simp only [ApiKeyRequest.required, hguard]

end Guard

/-! ## Nothing happens -/

/-- A handler that throws and leaves the table alone shows and changes nothing. -/
theorem managesOnlyOwn_error (u : String) (table : ApiKeyTable) (exception : HttpException) :
    ManagesOnlyOwn u table (.error exception, table) := by
  refine ⟨?_, ?_, ?_⟩
  · intro response hresponse
    cases hresponse
  · intro row hrow hnot
    exact absurd hrow hnot
  · intro row hrow hnot
    exact absurd hrow hnot

/-! ## List -/

variable {table : ApiKeyTable}

theorem mem_listByUser {userId : String} {record : ApiKeyRecord} :
    record ∈ PrismaApiKeyStorage.listByUser table userId ↔
      ∃ row ∈ table.rows, row.userId = userId ∧ PrismaApiKeyStorage.fromRow row = record := by
  unfold PrismaApiKeyStorage.listByUser
  simp only [List.mem_map, List.mem_insertionSort, List.mem_filter, decide_eq_true_eq, and_assoc]

theorem listByUser_iff (env : RequestEnv) (table : ApiKeyTable) (u userId : String) :
    ManagesOnlyOwn u table (ApiKeyService.listByUser env table userId) ↔
      AddressesOwn env table u (.list userId) := by
  unfold ApiKeyService.listByUser AddressesOwn
  cases hrejects : env.listByUserRejects with
  | true =>
      simp only [if_true, Bool.true_eq_false, false_implies, iff_true]
      exact managesOnlyOwn_error u table internalError
  | false =>
      simp only [Bool.false_eq_true, if_false, true_implies]
      constructor
      · rintro ⟨hreveals, -, -⟩ row hrow huser
        exact hreveals _ rfl (PrismaApiKeyStorage.fromRow row)
          (mem_listByUser.mpr ⟨row, hrow, huser, rfl⟩)
      · intro hown
        refine ⟨?_, ?_, ?_⟩
        · intro response hresponse record hrecord
          cases hresponse
          obtain ⟨row, hrow, huser, rfl⟩ := mem_listByUser.mp hrecord
          exact hown row hrow huser
        · intro row hrow hnot
          exact absurd hrow hnot
        · intro row hrow hnot
          exact absurd hrow hnot

/-! ## Remove -/

variable {env : RequestEnv}

/-- A delete that is not rejected reveals nothing and removes the rows with the id. -/
theorem revoke_of_accepted (hrejects : env.deleteRejects = false) (id : String) :
    (∀ response, (ApiKeyService.revoke env table id).1 = .ok response → response = .removed) ∧
    (ApiKeyService.revoke env table id).2.rows =
      table.rows.filter fun row => decide (row.id ≠ id) := by
  unfold ApiKeyService.revoke PrismaApiKeyStorage.delete
  rw [hrejects]
  cases (findRow ApiKeyRow.id id table.rows).isSome with
  | true =>
      refine ⟨?_, rfl⟩
      intro response hresponse
      cases hresponse
      rfl
  | false =>
      refine ⟨?_, rfl⟩
      intro response hresponse
      cases hresponse

theorem revoke_iff (env : RequestEnv) (table : ApiKeyTable) (u id : String) :
    ManagesOnlyOwn u table (ApiKeyService.revoke env table id) ↔
      AddressesOwn env table u (.remove id) := by
  unfold AddressesOwn
  cases hrejects : env.deleteRejects with
  | true =>
      simp only [Bool.true_eq_false, false_implies, iff_true]
      unfold ApiKeyService.revoke
      rw [hrejects]
      exact managesOnlyOwn_error u table internalError
  | false =>
      obtain ⟨hremoved, hfilter⟩ := @revoke_of_accepted table env hrejects id
      simp only [true_implies]
      constructor
      · rintro ⟨-, -, hgone⟩ row hrow hid
        refine hgone row hrow ?_
        rw [hfilter]
        simp [hid]
      · intro hown
        refine ⟨?_, ?_, ?_⟩
        · intro response hresponse record hrecord
          rw [hremoved response hresponse] at hrecord
          cases hrecord
        · intro row hrow hnot
          rw [hfilter] at hrow
          exact absurd (List.mem_filter.mp hrow).1 hnot
        · intro row hrow hnot
          rw [hfilter] at hnot
          refine hown row hrow ?_
          by_contra hne
          exact hnot (List.mem_filter.mpr ⟨hrow, by simpa using hne⟩)

/-! ## Rotate -/

variable {row : ApiKeyRow}

theorem rotateKey_of_found
    {id : String}
    (hfind : env.findByIdRejects = false)
    (hrotate : env.rotateRejects = false)
    (hlookup : PrismaApiKeyStorage.lookupTaken table id env.lookupId = false)
    (hrow : findRow ApiKeyRow.id id table.rows = some row) :
    (ApiKeyService.rotateKey env table id).1 =
      .ok (.issued (plaintextOf env.lookupId env.secret)
        (PrismaApiKeyStorage.fromRow { row with lookupId := env.lookupId, hash := env.hash })) ∧
    (ApiKeyService.rotateKey env table id).2.rows =
      updateMany (fun row => decide (row.id = id))
        (fun row => { row with lookupId := env.lookupId, hash := env.hash }) table.rows := by
  have hid : row.id = id := key_of_findRow hrow
  have hexisting :
      PrismaApiKeyStorage.findById table id = some (PrismaApiKeyStorage.fromRow row) := by
    unfold PrismaApiKeyStorage.findById
    rw [hrow]
    rfl
  have hexistingId : (PrismaApiKeyStorage.fromRow row).id = id := hid
  unfold ApiKeyService.rotateKey
  simp only [hfind, hexisting, hexistingId, hrotate, hlookup, PrismaApiKeyStorage.rotate, hrow,
    Bool.false_eq_true, if_false, Bool.or_self]
  exact ⟨trivial, rfl⟩

theorem rotateKey_refused {id : String}
    (hrefused :
      env.findByIdRejects = true ∨ env.rotateRejects = true ∨
      PrismaApiKeyStorage.lookupTaken table id env.lookupId = true ∨
      findRow ApiKeyRow.id id table.rows = none) :
    ∃ exception, ApiKeyService.rotateKey env table id = (.error exception, table) := by
  unfold ApiKeyService.rotateKey
  cases hfind : env.findByIdRejects with
  | true => exact ⟨internalError, rfl⟩
  | false =>
      cases hrow : findRow ApiKeyRow.id id table.rows with
      | none =>
          refine ⟨notFound id, ?_⟩
          simp [PrismaApiKeyStorage.findById, hrow]
      | some row =>
          have hid : row.id = id := key_of_findRow hrow
          refine ⟨internalError, ?_⟩
          have hstop :
              (env.rotateRejects ||
                PrismaApiKeyStorage.lookupTaken table id env.lookupId) = true := by
            rcases hrefused with h | h | h | h
            · rw [hfind] at h
              cases h
            · simp [h]
            · simp [h]
            · rw [hrow] at h
              cases h
          simp only [PrismaApiKeyStorage.findById, hrow, Option.map_some,
            PrismaApiKeyStorage.fromRow, hid, hstop, if_true, Bool.false_eq_true, if_false]

theorem rotateKey_iff (env : RequestEnv) (table : ApiKeyTable) (u id : String) :
    ManagesOnlyOwn u table (ApiKeyService.rotateKey env table id) ↔
      AddressesOwn env table u (.rotate id) := by
  by_cases hrefused :
      env.findByIdRejects = true ∨ env.rotateRejects = true ∨
      PrismaApiKeyStorage.lookupTaken table id env.lookupId = true ∨
      findRow ApiKeyRow.id id table.rows = none
  · obtain ⟨exception, herror⟩ := rotateKey_refused hrefused
    rw [herror]
    refine iff_of_true (managesOnlyOwn_error u table exception) ?_
    intro hfind hrotate hlookup row hrow hid
    rcases hrefused with h | h | h | h
    · rw [hfind] at h
      cases h
    · rw [hrotate] at h
      cases h
    · rw [hlookup] at h
      cases h
    · have habsent := findRow_eq_none_iff.mp h
      exact absurd (List.mem_map.mpr ⟨row, hrow, hid⟩) habsent
  · simp only [not_or, Bool.not_eq_true] at hrefused
    obtain ⟨hfind, hrotate, hlookup, hfound⟩ := hrefused
    obtain ⟨row, hrow⟩ := Option.ne_none_iff_exists'.mp hfound
    obtain ⟨hresponse, hrows⟩ := rotateKey_of_found hfind hrotate hlookup hrow
    constructor
    · rintro ⟨hreveals, -, -⟩ - - - other hother hid
      have hsame : other = row := by
        have hotherRow := findRow_of_mem table.ids_nodup hother
        rw [hid, hrow] at hotherRow
        exact (Option.some.inj hotherRow).symm
      rw [hsame]
      exact hreveals _ hresponse _ (List.mem_singleton.mpr rfl)
    · intro hown
      have howner : ∀ other ∈ table.rows, other.id = id → other.userId = u :=
        hown hfind hrotate hlookup
      refine ⟨?_, ?_, ?_⟩
      · intro response hok record hrecord
        rw [hresponse] at hok
        cases hok
        rw [List.mem_singleton.mp hrecord]
        exact howner row (mem_of_findRow hrow) (key_of_findRow hrow)
      · intro changed hchanged hnew
        rw [hrows] at hchanged
        obtain ⟨old, hold, rfl⟩ := List.mem_map.mp hchanged
        by_cases hid : old.id = id
        · simp only [hid, decide_true, if_true]
          exact howner old hold hid
        · simp only [hid, decide_false, Bool.false_eq_true, if_false] at hnew
          exact absurd hold hnew
      · intro old hold hgone
        refine howner old hold ?_
        by_contra hid
        refine hgone ?_
        rw [hrows]
        refine List.mem_map.mpr ⟨old, hold, ?_⟩
        simp [hid]

/-! ## Create -/

theorem insert_eq_some
    {table' : ApiKeyTable}
    (h : PrismaApiKeyStorage.insert table row = some table') :
    PrismaApiKeyStorage.lookupTaken table row.id row.lookupId = false ∧
    findRow ApiKeyRow.id row.id table.rows = none ∧
    table'.rows = table.rows ++ [row] := by
  unfold PrismaApiKeyStorage.insert at h
  split at h
  · cases h
  · next hlookup =>
    split at h
    · cases h
    · next rows hinsert =>
      cases h
      obtain ⟨hfree, hrows⟩ := insertRow_eq_some_iff.mp hinsert
      exact ⟨by simpa using hlookup, hfree, hrows⟩

theorem insert_eq_none
    (h : PrismaApiKeyStorage.insert table row = none)
    (hlookup : PrismaApiKeyStorage.lookupTaken table row.id row.lookupId = false) :
    findRow ApiKeyRow.id row.id table.rows ≠ none := by
  intro hfree
  have hinsert : insertRow ApiKeyRow.id row table.rows = some (table.rows ++ [row]) :=
    insertRow_eq_some_iff.mpr ⟨hfree, rfl⟩
  unfold PrismaApiKeyStorage.insert at h
  rw [if_neg (by simp [hlookup])] at h
  split at h
  · next hnone =>
    rw [hinsert] at hnone
    cases hnone
  · cases h

/-- `create` stores a key for the user of the body, or refuses and stores nothing. -/
theorem create_spec (env : RequestEnv) (table : ApiKeyTable) (body : Json) :
    (∃ exception,
      ApiKeyController.create env table body = (.error exception, table) ∧
      ∀ userId, ¬ CreateAccepted env table body userId) ∨
    (∃ userId plaintext row table',
      ApiKeyController.create env table body =
        (.ok (.issued plaintext (PrismaApiKeyStorage.fromRow row)), table') ∧
      CreateAccepted env table body userId ∧
      row.userId = userId ∧
      table'.rows = table.rows ++ [row]) := by
  unfold ApiKeyController.create
  dsimp only
  split
  · next items huserId hname hitems =>
    unfold ApiKeyService.createKey
    split
    · next message hscopes =>
      refine Or.inl ⟨_, rfl, ?_⟩
      intro userId haccepted
      obtain ⟨items', scopes, hitems', hvalid⟩ := haccepted.scopes_field
      rw [hitems] at hitems'
      cases hitems'
      rw [hscopes] at hvalid
      cases hvalid
    · next scopes hscopes =>
      split
      · next userId name expiresAt huser hnameField hexpiry =>
        have huserNe : userId ≠ "" := by
          intro hempty
          simp [huser, hempty, Json.truthy] at huserId
        have hnameNe : name ≠ "" := by
          intro hempty
          simp [hnameField, hempty, Json.truthy] at hname
        unfold ApiKeyService.insertKey
        dsimp only
        split
        · next hrejects =>
          refine Or.inl ⟨_, rfl, ?_⟩
          intro userId' haccepted
          rw [haccepted.taken] at hrejects
          cases hrejects
        · next haccepts =>
          split
          · next hnone =>
            refine Or.inl ⟨_, rfl, ?_⟩
            intro userId' haccepted
            exact insert_eq_none hnone haccepted.lookup_free haccepted.id_free
          · next table' hsome =>
            obtain ⟨hlookup, hfree, hrows⟩ := insert_eq_some hsome
            refine Or.inr ⟨userId, _, _, table', rfl, ?_, rfl, hrows⟩
            exact
              { userId_field := huser
                userId_present := huserNe
                name_field := ⟨name, hnameField, hnameNe⟩
                scopes_field := ⟨items, scopes, hitems, hscopes⟩
                expiry := ⟨expiresAt, hexpiry⟩
                taken := by simpa using haccepts
                id_free := hfree
                lookup_free := hlookup }
      · next hother =>
        refine Or.inl ⟨_, rfl, ?_⟩
        intro userId haccepted
        obtain ⟨name, hnameField, -⟩ := haccepted.name_field
        obtain ⟨expiresAt, hexpiry⟩ := haccepted.expiry
        exact hother userId name expiresAt haccepted.userId_field hnameField hexpiry
  · next hother =>
    refine Or.inl ⟨_, rfl, ?_⟩
    intro userId haccepted
    obtain ⟨name, hnameField, hnameNe⟩ := haccepted.name_field
    obtain ⟨items, -, hitems, -⟩ := haccepted.scopes_field
    refine hother items ?_ ?_ hitems
    · simp [haccepted.userId_field, haccepted.userId_present, Json.truthy]
    · simp [hnameField, hnameNe, Json.truthy]

theorem create_iff (env : RequestEnv) (table : ApiKeyTable) (u : String) (body : Json) :
    ManagesOnlyOwn u table (ApiKeyController.create env table body) ↔
      AddressesOwn env table u (.create body) := by
  rcases create_spec env table body with
    ⟨exception, herror, hrefused⟩ | ⟨userId, plaintext, row, table', hok, haccepted, hrow, hrows⟩
  · rw [herror]
    refine iff_of_true (managesOnlyOwn_error u table exception) ?_
    intro userId haccepted
    exact absurd haccepted (hrefused userId)
  · rw [hok]
    constructor
    · rintro ⟨hreveals, -, -⟩ userId' haccepted'
      have hsame : userId' = userId := by
        have hfield := haccepted'.userId_field
        rw [haccepted.userId_field] at hfield
        cases hfield
        rfl
      rw [hsame, ← hrow]
      exact hreveals _ rfl (PrismaApiKeyStorage.fromRow row) (List.mem_singleton.mpr rfl)
    · intro hown
      have howner : row.userId = u := hrow.trans (hown userId haccepted)
      refine ⟨?_, ?_, ?_⟩
      · intro response hresponse record hrecord
        cases hresponse
        rw [List.mem_singleton.mp hrecord]
        exact howner
      · intro added hadded hnew
        rw [hrows] at hadded
        rcases List.mem_append.mp hadded with hold | hlast
        · exact absurd hold hnew
        · rw [List.mem_singleton.mp hlast]
          exact howner
      · intro old hold hgone
        rw [hrows] at hgone
        exact absurd (List.mem_append_left _ hold) hgone

/-! ## All four routes -/

theorem serve_managesOnlyOwn_iff
    {can : Ability → String → String → Bool}
    (hcan : ChecksTypesOnly can)
    {u : String} {ability : Ability}
    (hrules : OnlyMemberRules u ability)
    (env : RequestEnv) (table : ApiKeyTable) (request : ApiKeyRequest) :
    ManagesOnlyOwn u table (serve can env (some ability) table request) ↔
      AddressesOwn env table u request := by
  rw [serve_eq_dispatch hcan hrules]
  cases request with
  | list userId => exact listByUser_iff env table u userId
  | create body => exact create_iff env table u body
  | rotate id => exact rotateKey_iff env table u id
  | remove id => exact revoke_iff env table u id

/-! ## A member rotates a colleague's key -/

/-- CASL's check on a type: the last relevant rule decides. -/
def caslCan (ability : Ability) (action subject : String) : Bool :=
  let relevant :=
    ability.filter fun rule =>
      (rule.subject.contains subject || rule.subject.contains "all") &&
        (rule.action.contains action || rule.action.contains "manage") &&
        (rule.conditions.isNone || !rule.inverted)
  match relevant.getLast? with
  | none => false
  | some rule => !rule.inverted

theorem caslCan_checksTypesOnly : ChecksTypesOnly caslCan := by
  constructor
  intro ability action subject rule hrule hsubject haction hplain
  unfold caslCan
  dsimp only
  split
  · next hnone =>
    have hinverted := hplain rule hrule (Or.inl hsubject)
    rw [List.getLast?_eq_none_iff, List.filter_eq_nil_iff] at hnone
    have hnot := hnone rule hrule
    rcases haction with haction | haction <;> simp [hsubject, haction, hinverted] at hnot
  · next last hlast =>
    have hmem := List.mem_of_getLast? hlast
    obtain ⟨hability, hrelevant⟩ := List.mem_filter.mp hmem
    simp only [Bool.and_eq_true, Bool.or_eq_true, List.contains_eq_mem, decide_eq_true_eq]
      at hrelevant
    rw [hplain last hability hrelevant.1.1]
    rfl

def colleagueKey : ApiKeyRow where
  id := "k"
  lookupId := "l"
  hash := "h"
  name := "deploy"
  scopes := ["read:file"]
  userId := "bob"
  expiresAt := none
  lastUsedAt := none
  createdAt := 0

def colleagueTable : ApiKeyTable where
  rows := [colleagueKey]
  ids_nodup := List.nodup_singleton _

def quietEnv : RequestEnv where
  id := "k2"
  lookupId := "l2"
  secret := "s2"
  hash := "h2"
  now := 1
  dateTime := fun _ => none
  insertRejects := false
  findByIdRejects := false
  listByUserRejects := false
  deleteRejects := false
  rotateRejects := false

theorem serve_managesOnlyOwn_iff_rotate :
    ManagesOnlyOwn "alice" colleagueTable
        (serve caslCan quietEnv (some (memberAbility "alice" "t")) colleagueTable
          (.rotate "k")) ↔
      AddressesOwn quietEnv colleagueTable "alice" (.rotate "k") :=
  serve_managesOnlyOwn_iff caslCan_checksTypesOnly (onlyMemberRules_memberAbility "alice" "t")
    quietEnv colleagueTable (.rotate "k")

theorem not_managesOnlyOwn_rotate :
    OnlyMemberRules "alice" (memberAbility "alice" "t") ∧
    ¬ ManagesOnlyOwn "alice" colleagueTable
      (serve caslCan quietEnv (some (memberAbility "alice" "t")) colleagueTable
        (.rotate "k")) := by
  refine ⟨rfl, ?_⟩
  rintro ⟨hreveals, -, -⟩
  have howner := hreveals _ rfl _ (List.mem_singleton.mpr rfl)
  exact absurd howner (by decide)

end ApiKeys
end NestBase
