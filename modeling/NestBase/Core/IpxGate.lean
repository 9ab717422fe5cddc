import NestBase.Core.PermissionService
import NestBase.Core.RequestChain

/-!
# The gate in front of IPX

`bootstrap` mounts the IPX server under `/_ipx` as a raw Express handler, in
front of the Nest chain.  The handler looks up the session itself, asks
`resolveRequestTenantId` for the tenant and `PermissionService` for the
ability, and hands the request to the IPX server or answers 401 or 403.

`resolveRequestTenantId` reads `req.user`, which only the middleware of the
Nest chain sets.
-/

namespace NestBase
namespace Http
namespace Ipx

open Lib
open Permissions

/-! ## Requests and sessions -/

/-- A request before any middleware has run. -/
structure IncomingMessage where
  method : Option String
  originalUrl : Option String
  url : Option String
  accept : Option HeaderValue
  authorization : Option HeaderValue
  /-- `req.headers["x-test-ability"]` -/
  testAbility : Option String
deriving DecidableEq, Repr

/-- Nobody has set `req.user` or `req.ability`. -/
def IncomingMessage.toRequest (msg : IncomingMessage) : Request where
  method := msg.method
  originalUrl := msg.originalUrl
  url := msg.url
  accept := msg.accept
  authorization := msg.authorization
  user := none
  ability := none

structure SessionUser where
  id : String
  scopes : Option (List String)
deriving DecidableEq, Repr

/-- What `auth.api.getSession` returns; the user may be missing. -/
structure Session where
  user : Option SessionUser
  /-- `session.session.activeOrganizationId` -/
  activeOrganizationId : Option String
deriving DecidableEq, Repr

/-- What the handler closes over; a service that is not bound is `none`. -/
structure Bindings where
  NODE_ENV : Option String
  /-- `betterAuthInstance.api.getSession` -/
  getSession : Option (IncomingMessage → Except String (Option Session))
  /-- `permissionService.abilityFor` -/
  abilityFor : Option (String → String → Option (List String) → Except String Ability)
  /-- Whether `PrismaService` is bound. -/
  prisma : Bool
  /-- The IPX modifiers of a preset of the registry. -/
  resolvePreset : String → Option String

/-- How the handler ends. -/
inductive Answer where
  | unauthorized
  | forbidden
  /-- IPX serves the URL. -/
  | ipx (url : String)
  /-- The IPX server answers 404 itself. -/
  | assetPresetNotFound (name : String)
  | next
deriving DecidableEq, Repr

/-! ## The IPX server -/

/-- `/preset_<name>/<source>` with the modifiers of the preset; the name when there is none. -/
def rewritePresetUrl
    (resolvePreset : String → Option String)
    (pathWithQuery : String) : Except String String :=
  let path := pathWithQuery.toList.takeWhile fun c => c ≠ '?'
  let query := pathWithQuery.toList.dropWhile fun c => c ≠ '?'
  let trimmed :=
    match path with
    | '/' :: tail => tail
    | _ => path
  let modifierSegment := trimmed.takeWhile fun c => c ≠ '/'
  match trimmed.dropWhile fun c => c ≠ '/' with
  | [] => .ok pathWithQuery
  | _ :: sourcePath =>
      if !"preset_".toList.isPrefixOf modifierSegment then .ok pathWithQuery
      else
        let name := String.ofList (modifierSegment.drop "preset_".toList.length)
        if name = "" then .ok pathWithQuery
        else
          match resolvePreset name with
          | none => .error name
          | some expanded =>
              .ok ("/" ++ expanded ++ "/" ++ String.ofList sourcePath ++ String.ofList query)

/-- `req.method ?? "GET"` is tested for `GET` and `HEAD`, which arrive in capitals. -/
def reads (method : Option String) : Bool :=
  decide (method.getD "GET" = "GET") || decide (method.getD "GET" = "HEAD")

/-- `ipxServer.handle`, mounted with a `next`. -/
def handle (bindings : Bindings) (msg : IncomingMessage) : Answer :=
  if !reads msg.method then .next
  else
    match rewritePresetUrl bindings.resolvePreset (msg.url.getD "/") with
    | .ok rewritten => .ipx rewritten
    | .error name => .assetPresetNotFound name

/-! ## The gate -/

section Gate

variable {Item : Type}
variable (casl : Casl Item)

def readsAssets (ability : Ability) : Bool :=
  casl.canType ability "read" "Asset" || casl.canType ability "read" "File"

/-- Asked after a session with a user was found. -/
def checkAssetAccess
    (bindings : Bindings) (req : Request) (sessionUser : SessionUser) : Except String Bool :=
  match bindings.abilityFor with
  | none => .ok true
  | some abilityFor =>
      if !bindings.prisma then .ok true
      else
        match Text.truthy (req.user.bind resolveRequestTenantId) with
        | none => .ok false
        | some tenantId =>
            (abilityFor sessionUser.id tenantId sessionUser.scopes).map (readsAssets casl)

/-- The handler under `/_ipx`. -/
def gate (bindings : Bindings) (msg : IncomingMessage) : Answer :=
  match bindings.getSession with
  | none => .next
  | some getSession =>
      match getSession msg with
      | .error _ => .unauthorized
      | .ok session =>
          match session.bind Session.user with
          | none => .unauthorized
          | some sessionUser =>
              if bindings.NODE_ENV = some "test" ∧ (Text.truthy msg.testAbility).isSome then
                handle bindings msg
              else
                match checkAssetAccess casl bindings msg.toRequest sessionUser with
                | .ok true => handle bindings msg
                | .ok false => .forbidden
                | .error _ => .forbidden

end Gate

/-! ## Who is served -/

/-- The request went to the IPX server. -/
def Answer.Handed : Answer → Prop
  | ipx _ => True
  | assetPresetNotFound _ => True
  | _ => False

section Served

variable {Item : Type}
variable {casl : Casl Item}
variable {bindings : Bindings}
variable {msg : IncomingMessage}

/-- The user of the session may read assets or files in the active organization. -/
def Permitted
    (casl : Casl Item)
    (getSession : IncomingMessage → Except String (Option Session))
    (abilityFor : String → String → Option (List String) → Except String Ability)
    (msg : IncomingMessage) : Prop :=
  ∃ session user tenantId ability,
    getSession msg = .ok (some session) ∧ session.user = some user ∧
      session.activeOrganizationId = some tenantId ∧
        abilityFor user.id tenantId user.scopes = .ok ability ∧
          (casl.canType ability "read" "Asset" = true ∨ casl.canType ability "read" "File" = true)

/-- Exactly the permitted requests are handed on, the others end in 401 or 403. -/
structure ServesPermitted
    (casl : Casl Item)
    (bindings : Bindings)
    (getSession : IncomingMessage → Except String (Option Session))
    (abilityFor : String → String → Option (List String) → Except String Ability)
    (msg : IncomingMessage) : Prop where
  handed : (gate casl bindings msg).Handed ↔ Permitted casl getSession abilityFor msg
  refused :
    ¬ (gate casl bindings msg).Handed →
      gate casl bindings msg = .unauthorized ∨ gate casl bindings msg = .forbidden

/-- A request no middleware has seen has no tenant, so nobody has access. -/
theorem checkAssetAccess_incoming
    {abilityFor : String → String → Option (List String) → Except String Ability}
    (habilityFor : bindings.abilityFor = some abilityFor)
    (hprisma : bindings.prisma = true)
    (sessionUser : SessionUser) :
    checkAssetAccess casl bindings msg.toRequest sessionUser = .ok false := by
  have htenant : Text.truthy (msg.toRequest.user.bind resolveRequestTenantId) = none := rfl
  unfold checkAssetAccess
  rw [habilityFor, hprisma]
  simp only [Bool.not_true, Bool.false_eq_true, if_false, htenant]

/-- With all services bound and outside tests every request is refused. -/
theorem gate_refuses
    {getSession : IncomingMessage → Except String (Option Session)}
    {abilityFor : String → String → Option (List String) → Except String Ability}
    (hgetSession : bindings.getSession = some getSession)
    (habilityFor : bindings.abilityFor = some abilityFor)
    (hprisma : bindings.prisma = true)
    (henv : bindings.NODE_ENV ≠ some "test") :
    gate casl bindings msg = .unauthorized ∨ gate casl bindings msg = .forbidden := by
  simp only [gate, hgetSession]
  cases getSession msg with
  | error message => exact Or.inl rfl
  | ok session =>
      cases huser : session.bind Session.user with
      | none =>
          simp only [huser]
          exact Or.inl trivial
      | some sessionUser =>
          simp only [huser, henv, false_and, if_false,
            checkAssetAccess_incoming habilityFor hprisma sessionUser]
          exact Or.inr trivial

/-- The gate does what it is for exactly on the requests that are not permitted. -/
theorem servesPermitted_iff
    (casl : Casl Item)
    (bindings : Bindings)
    (getSession : IncomingMessage → Except String (Option Session))
    (abilityFor : String → String → Option (List String) → Except String Ability)
    (hgetSession : bindings.getSession = some getSession)
    (habilityFor : bindings.abilityFor = some abilityFor)
    (hprisma : bindings.prisma = true)
    (henv : bindings.NODE_ENV ≠ some "test")
    (msg : IncomingMessage) :
    ServesPermitted casl bindings getSession abilityFor msg ↔
      ¬ Permitted casl getSession abilityFor msg := by
  have hrefuses : gate casl bindings msg = .unauthorized ∨ gate casl bindings msg = .forbidden :=
    gate_refuses hgetSession habilityFor hprisma henv
  have hnot : ¬ (gate casl bindings msg).Handed := by
    rcases hrefuses with h | h
    · rw [h]
      exact not_false
    · rw [h]
      exact not_false
  constructor
  · intro hserves hpermitted
    exact hnot (hserves.handed.mpr hpermitted)
  · intro hdenied
    exact ⟨iff_of_false hnot hdenied, fun _ => hrefuses⟩

end Served

/-! ## A member and a stranger -/

open ApiKeyScopes in
/-- `PermissionService.abilityFor` with an empty cache over the given rows. -/
def abilityForRows
    (rows : String → String → List DbPermissionRow)
    (userId tenantId : String)
    (scopes : Option (List String)) : Except String Ability :=
  let ctx : ResolveContext :=
    { userId := userId, now := "2026-01-01T00:00:00.000Z", tenantId := some tenantId }
  (resolveDbRules ctx (rows userId tenantId)).map fun rules =>
    scopedAbility textCasl (buildAbility rules) scopes

/-- `member-1` has the rows every member has. -/
def memberRows (userId _tenantId : String) : List DbPermissionRow :=
  if userId = "member-1" then
    buildMemberRoleRules DEFAULT_MEMBER_RESOURCES DEFAULT_MEMBER_PER_USER_RESOURCES
  else []

def signedIn (userId : String) (_msg : IncomingMessage) : Except String (Option Session) :=
  .ok
    (some
      { user := some { id := userId, scopes := none }
        activeOrganizationId := some "org-1" })

def productionBindings (userId : String) : Bindings where
  NODE_ENV := some "production"
  getSession := some (signedIn userId)
  abilityFor := some (abilityForRows memberRows)
  prisma := true
  resolvePreset _ := none

def avatarRequest : IncomingMessage where
  method := some "GET"
  originalUrl := some "/_ipx/w_64/avatars/1.png"
  url := some "/w_64/avatars/1.png"
  accept := none
  authorization := none
  testAbility := none

/-- A user without rows is refused, as it should be. -/
theorem servesPermitted_stranger :
    (productionBindings "user-2").NODE_ENV ≠ some "test" ∧
      ServesPermitted textCasl (productionBindings "user-2") (signedIn "user-2")
        (abilityForRows memberRows) avatarRequest := by
  have henv : (productionBindings "user-2").NODE_ENV ≠ some "test" := by
    decide
  refine ⟨henv, ?_⟩
  refine
    (servesPermitted_iff textCasl (productionBindings "user-2") (signedIn "user-2")
      (abilityForRows memberRows) rfl rfl rfl henv avatarRequest).mpr ?_
  rintro ⟨session, user, tenantId, ability, hsession, huser, htenant, hability, hread⟩
  cases hsession
  cases huser
  cases htenant
  cases hability
  exact absurd hread (by decide)

/-- A member may read files and gets a 403. -/
theorem not_servesPermitted_member :
    Permitted textCasl (signedIn "member-1") (abilityForRows memberRows) avatarRequest ∧
      gate textCasl (productionBindings "member-1") avatarRequest = .forbidden ∧
        ¬ ServesPermitted textCasl (productionBindings "member-1") (signedIn "member-1")
          (abilityForRows memberRows) avatarRequest := by
  have hpermitted :
      Permitted textCasl (signedIn "member-1") (abilityForRows memberRows) avatarRequest := by
    refine ⟨_, _, _, _, rfl, rfl, rfl, rfl, Or.inr ?_⟩
    decide
  have hforbidden :
      gate textCasl (productionBindings "member-1") avatarRequest = .forbidden := by
    rfl
  refine ⟨hpermitted, hforbidden, fun hserves => ?_⟩
  have hhanded := hserves.handed.mpr hpermitted
  rw [hforbidden] at hhanded
  exact hhanded

end Ipx
end Http
end NestBase
