import NestBase.Core.TenantAgreement

/-!
# Bearer tokens without a session

What the chain does with a request that Better-Auth finds no session for.
The session middleware comes first: it answers every such request on a
protected path by itself, with a 401 or, for a browser that opens a Hub
page, with a redirect to the login page.

`ApiKeySessionMiddleware` comes behind it, so a key in place of a session is
refused as any other token (`authenticatesByKey_iff`).
-/

namespace NestBase
namespace Http

open Lib
open Permissions
open ApiKeys

/-! ## The paths of the chain -/

/-- Whether a path is at or under a mount; letters of either case are the same. -/
def mountMatches (mount path : String) : Bool :=
  let mount := Text.asciiLowerCase mount
  let path := Text.asciiLowerCase path
  decide (path = mount) || Text.startsWith path (mount ++ "/")

/-- The `exclude` of `setGlobalPrefix`, where paths under a mount are excluded too. -/
def excludedMounts : List String :=
  ["/hub", "/admin", "/errors", "/health", "/_ipx/cache"]

/-- Nest registers the middleware under its prefix and for the paths excluded from it. -/
def chainRegistered (path : String) : Bool :=
  Text.startsWith (Text.asciiLowerCase path) "/api/" ||
    Text.asciiLowerCase path = "/openapi" || excludedMounts.any fun mount => mountMatches mount path

/-- What Nest does with a request; `none` where the chain is not registered for its path. -/
def serveNest (services : Services) (table : ApiKeyTable) (req : Request) : Option Served :=
  if chainRegistered (stripQuery req.path) then some (serveRequest services table req) else none

section BearerTokens

variable {services : Services}
variable {table : ApiKeyTable}
variable {req : Request}
variable {token : String}

/-! ## Anonymous requests -/

/-- Better-Auth is configured and finds no session in the headers of the request. -/
def Anonymous (services : Services) (req : Request) : Prop :=
  ∃ getSession,
    services.getSession = some getSession ∧
      ∀ ability session,
        getSession { req with ability := ability } ≠ .ok (some session)

/-- What an anonymous request on a protected path is answered with. -/
def refusal (req : Request) : Outcome :=
  if prefersHubPortalLoginRedirect (stripQuery req.path) req.method (firstHeader req.accept) then
    .redirected 302 "/"
  else .failed authenticationRequired

theorem refuse_of_protected
    (table : ApiKeyTable)
    (rest : Request → Served)
    (hprotected : isPathProtected services.env (stripQuery req.path) = .ok true) :
    (BetterAuthSessionMiddleware.refuse services req).andThen table rest =
      { outcome := refusal req, request := req, keys := table } := by
  simp only [BetterAuthSessionMiddleware.refuse, hprotected, refusal]
  split <;> rfl

theorem preSeedAbility_eq (services : Services) (req : Request) :
    ∃ ability,
      BetterAuthSessionMiddleware.preSeedAbility services req = { req with ability := ability } := by
  unfold BetterAuthSessionMiddleware.preSeedAbility
  split
  · exact ⟨_, rfl⟩
  · exact ⟨req.ability, rfl⟩

/-- The session middleware ends an anonymous request on a protected path. -/
theorem sessionMiddleware_of_anonymous
    (table : ApiKeyTable)
    (rest : Request → Served)
    (hanonymous : Anonymous services req)
    (hprotected : isPathProtected services.env (stripQuery req.path) = .ok true) :
    ∃ ability,
      (BetterAuthSessionMiddleware.use services req).andThen table rest =
        { outcome := refusal req, request := { req with ability := ability }, keys := table } := by
  obtain ⟨getSession, hget, hnone⟩ := hanonymous
  obtain ⟨ability, hseed⟩ := preSeedAbility_eq services req
  have hrefused :=
    @refuse_of_protected services { req with ability := ability } table rest hprotected
  -- Only the ability may differ after the test header, so the path is the same.
  have hsame :
      isPathProtected services.env (stripQuery { req with ability := ability }.path) = .ok true :=
    hprotected
  refine ⟨ability, ?_⟩
  simp only [BetterAuthSessionMiddleware.use, hseed, hsame, hget]
  split
  · next session hsession =>
    exact absurd hsession (hnone ability session)
  · exact hrefused
  · exact hrefused

/-- Nothing behind the session middleware sees an anonymous request on a protected path. -/
theorem serveRequest_of_anonymous
    (table : ApiKeyTable)
    (hanonymous : Anonymous services req)
    (hprotected : isPathProtected services.env (stripQuery req.path) = .ok true) :
    (serveRequest services table req).outcome = refusal req ∧
      (serveRequest services table req).request.user = req.user ∧
        (serveRequest services table req).keys = table := by
  obtain ⟨ability, hserved⟩ :=
    sessionMiddleware_of_anonymous table _ hanonymous hprotected
  unfold serveRequest
  rw [hserved]
  simp only [and_self]

/-! ## Keys -/

/-- The token is the plaintext of a stored key that has not expired. -/
def ValidKey
    (services : Services)
    (table : ApiKeyTable)
    (token : String)
    (record : ApiKeyRecord) : Prop :=
  ∃ lookupId secret,
    parsePlaintext token = some (lookupId, secret) ∧
      PrismaApiKeyStorage.findByLookupId table lookupId = some record ∧
        (∀ expiresAt, record.expiresAt = some expiresAt → services.now < expiresAt) ∧
          services.argon2Verify record.hash secret = true

/-! ## The chain -/

/-- A key authenticates the request of its owner; any other token gets a 401. -/
def AuthenticatesByKey
    (services : Services)
    (table : ApiKeyTable)
    (req : Request)
    (token : String) : Prop :=
  ∃ served,
    serveNest services table req = some served ∧
      (∀ record tenantId,
        ValidKey services table token record →
          services.firstMembership record.userId = .ok (some tenantId) →
            served.outcome = .handled (some tenantId) ∧
              (∃ user, served.request.user = some user ∧ user.id = record.userId) ∧
                ∃ ability,
                  services.abilityFor record.userId tenantId (some record.scopes) = .ok ability ∧
                    served.request.ability = some ability) ∧
        ((∀ record, ¬ ValidKey services table token record) →
          served.request.user = none ∧
            ∃ exception, served.outcome = .failed exception ∧ exception.status = 401)

/-- A key of a member authenticates nothing, and any other token gets its 401 except where the
browser is sent to the login page. -/
theorem authenticatesByKey_iff
    (services : Services)
    (table : ApiKeyTable)
    (req : Request)
    (token : String)
    (hanonymous : Anonymous services req)
    (huser : req.user = none)
    (hprotected : isPathProtected services.env (stripQuery req.path) = .ok true)
    (hregistered : chainRegistered (stripQuery req.path) = true) :
    AuthenticatesByKey services table req token ↔
      (∀ record tenantId,
        ValidKey services table token record →
          services.firstMembership record.userId ≠ .ok (some tenantId)) ∧
        ((∀ record, ¬ ValidKey services table token record) →
          prefersHubPortalLoginRedirect (stripQuery req.path) req.method
            (firstHeader req.accept) = false) := by
  obtain ⟨houtcome, hrequest, -⟩ := serveRequest_of_anonymous table hanonymous hprotected
  rw [refusal] at houtcome
  have hserved : serveNest services table req = some (serveRequest services table req) :=
    if_pos hregistered
  constructor
  · rintro ⟨served, hrun, hkeys, hothers⟩
    obtain rfl := Option.some.inj (hserved.symm.trans hrun)
    constructor
    · intro record tenantId hvalid hmember
      have hhandled := (hkeys record tenantId hvalid hmember).1
      rw [houtcome] at hhandled
      split at hhandled <;> cases hhandled
    · intro hinvalid
      obtain ⟨-, exception, hfailed, -⟩ := hothers hinvalid
      rw [houtcome] at hfailed
      split at hfailed
      · cases hfailed
      · next hstays => exact Bool.eq_false_iff.mpr hstays
  · rintro ⟨hkeys, hothers⟩
    refine ⟨_, hserved, fun record tenantId hvalid hmember => ?_, fun hinvalid => ?_⟩
    · exact absurd hmember (hkeys record tenantId hvalid)
    · rw [hothers hinvalid, if_neg Bool.false_ne_true] at houtcome
      exact ⟨hrequest.trans huser, _, houtcome, rfl⟩

/-- Better-Auth without a session for anybody, and no key stored. -/
def anonymousServices : Services :=
  { memberServices with getSession := some fun _ => .ok none }

theorem anonymous_anonymousServices (req : Request) : Anonymous anonymousServices req := by
  refine ⟨fun _ => .ok none, rfl, ?_⟩
  intro ability session hsession
  cases hsession

theorem not_validKey_noKeys (services : Services) (token : String) (record : ApiKeyRecord) :
    ¬ ValidKey services noKeys token record := by
  rintro ⟨lookupId, secret, -, hfound, -⟩
  cases hfound

/-- A script that lists files with a token that is no key. -/
def scriptRequest : Request where
  method := some "GET"
  originalUrl := some "/api/files"
  url := some "/api/files"
  accept := some (.single "application/json")
  authorization := some (.single "Bearer nst_pk_garbled")
  user := none
  ability := none

/-- The script gets a 401, as it should. -/
theorem authenticatesByKey_script :
    AuthenticatesByKey anonymousServices noKeys scriptRequest "nst_pk_garbled" := by
  have hinvalid := not_validKey_noKeys anonymousServices "nst_pk_garbled"
  exact
    (authenticatesByKey_iff anonymousServices noKeys scriptRequest "nst_pk_garbled"
      (anonymous_anonymousServices scriptRequest) rfl (by decide) (by decide)).mpr
      ⟨fun record _ hvalid => absurd hvalid (hinvalid record), fun _ => by decide⟩

/-- A key of `u1`, who is a member of `t1`. -/
def keyTable : ApiKeyTable where
  rows :=
    [{ id := "k1"
       lookupId := "00000000-0000-7000-8000-000000000001"
       hash := "$argon2id$"
       name := "ci"
       scopes := ["files:read"]
       userId := "u1"
       expiresAt := none
       lastUsedAt := none
       createdAt := 0 }]
  ids_nodup := List.nodup_singleton _

def keySecret : String :=
  String.ofList (List.replicate 64 'a')

def keyToken : String :=
  "nst_pk_00000000-0000-7000-8000-000000000001_" ++ keySecret

/-- The hash of the key is that of its secret. -/
def keyServices : Services :=
  { anonymousServices with argon2Verify := fun _ secret => decide (secret = keySecret) }

/-- The script with the key of a member is refused on a path that keys are for. -/
theorem not_authenticatesByKey_script :
    let req := { scriptRequest with authorization := some (.single ("Bearer " ++ keyToken)) }
    Anonymous keyServices req ∧
      req.user = none ∧
        ApiKeySessionMiddleware.extractBearerToken req.authorization = some keyToken ∧
          isPathProtected keyServices.env (stripQuery req.path) = .ok true ∧
            isTenantExempt keyServices.env req.path = .ok false ∧
              chainRegistered (stripQuery req.path) = true ∧
                (∃ record,
                  ValidKey keyServices keyTable keyToken record ∧
                    keyServices.firstMembership record.userId = .ok (some "t1")) ∧
                  ¬ AuthenticatesByKey keyServices keyTable req keyToken := by
  intro req
  have hvalid :
      ∃ record,
        ValidKey keyServices keyTable keyToken record ∧
          keyServices.firstMembership record.userId = .ok (some "t1") := by
    have hparse :
        parsePlaintext keyToken = some ("00000000-0000-7000-8000-000000000001", keySecret) := by
      decide +kernel
    have hverify : keyServices.argon2Verify "$argon2id$" keySecret = true :=
      decide_eq_true (rfl : keySecret = keySecret)
    refine ⟨_, ⟨_, keySecret, hparse, rfl, fun expiresAt hexpiry => ?_, hverify⟩, rfl⟩
    cases hexpiry
  have hanonymous : Anonymous keyServices req := ⟨_, rfl, nofun⟩
  have hprotected : isPathProtected keyServices.env (stripQuery req.path) = .ok true := by decide
  refine ⟨hanonymous, rfl, by decide +kernel, hprotected, by decide, by decide, hvalid, ?_⟩
  rintro ⟨served, hserved, hkeys, -⟩
  obtain ⟨record, hkey, hmember⟩ := hvalid
  have hhandled := (hkeys record "t1" hkey hmember).1
  obtain rfl := Option.some.inj ((if_pos (by decide)).symm.trans hserved)
  rw [(serveRequest_of_anonymous keyTable hanonymous hprotected).1, refusal] at hhandled
  split at hhandled <;> cases hhandled

end BearerTokens

end Http
end NestBase
