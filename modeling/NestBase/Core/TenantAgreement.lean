import NestBase.Core.RequestChain

/-!
# Agreement of the row tenant and the ability tenant

`AbilityMiddleware` and `TenantInterceptor` resolve the tenant of a request
independently, each with its own exemption test and its own fallback to the
user's first membership: the middleware falls back on every Hub path, the
interceptor only for browser navigation.

The interceptor's choice is therefore always one the middleware has made
before it.  A handler that runs inside a tenant sees the ability of exactly
that tenant, or the empty one when `abilityFor` threw.
-/

namespace NestBase
namespace Http

open Lib
open Permissions
open ApiKeys

section TenantAgreement

variable {services : Services}
variable {req req' : Request}
variable {user : User}
variable {tenantId : String}

/-- The ability of a request is the user's in the tenant, or the empty one. -/
def AbilityOfTenant
    (services : Services)
    (user : User)
    (tenantId : String)
    (ability : Option Ability) : Prop :=
  (∃ resolved,
    services.abilityFor user.id tenantId user.scopes = .ok resolved ∧
      ability = some resolved) ∨
    ability = some (buildAbility [])

/-! ## The middleware -/

namespace AbilityMiddleware

/-- Requests that agree on everything but the ability. -/
def SameButAbility (req req' : Request) : Prop :=
  req' = { req with ability := req'.ability }

theorem installEmptyOrFallbackAbility_same :
    SameButAbility req (installEmptyOrFallbackAbility services req user) := by
  unfold installEmptyOrFallbackAbility SameButAbility
  split
  · rfl
  · split <;> rfl

theorem attachAbilityForUser_same (resolved : Except String (Option String)) :
    SameButAbility req (attachAbilityForUser services req user resolved) := by
  unfold attachAbilityForUser
  split
  · rfl
  · split
    · exact installEmptyOrFallbackAbility_same
    · split <;> rfl

/-- A middleware that goes on has changed the ability at most. -/
theorem use_same (huse : use services req = .next req') :
    SameButAbility req req' := by
  unfold use at huse
  split at huse
  · cases huse
    rfl
  · split at huse
    · cases huse
      rfl
    · split at huse
      · cases huse
      · split at huse
        · cases huse
          exact attachAbilityForUser_same _
        · cases huse
          exact installEmptyOrFallbackAbility_same
      · cases huse
        exact attachAbilityForUser_same _

/-- Attached for a tenant, the ability is the one of that tenant. -/
theorem attachAbilityForUser_abilityOfTenant
    {resolved : Except String (Option String)}
    (hresolved : resolved = .ok (some tenantId))
    (htenant : tenantId ≠ "") :
    AbilityOfTenant services user tenantId
      (attachAbilityForUser services req user resolved).ability := by
  have htruthy : Text.truthy (some tenantId) = some tenantId :=
    Text.truthy_eq_some_iff.mpr ⟨rfl, htenant⟩
  subst hresolved
  unfold attachAbilityForUser
  simp only [htruthy]
  cases hability : services.abilityFor user.id tenantId user.scopes with
  | ok resolved =>
      exact Or.inl ⟨resolved, hability, rfl⟩
  | error _ =>
      exact Or.inr rfl

/-- On a path that needs a tenant the middleware attaches the ability of the tenant it resolves. -/
theorem use_eq_attach
    (hability : req.ability = none)
    (huser : req.user = some user)
    (hexempt : exempt services req.path? = .ok false) :
    use services req =
      .next (attachAbilityForUser services req user
        (resolveTenantId services req.path? user)) := by
  simp only [use, hability, huser, hexempt, Option.isSome_none, Bool.false_eq_true, if_false]

end AbilityMiddleware

/-! ## The interceptor -/

namespace TenantInterceptor

/-- What it takes for the handler to run inside a tenant. -/
theorem runWithTenant_cases (hrun : intercept services req = .runWithTenant tenantId) :
    isTenantExempt services.env req.path = .ok false ∧
      tenantId ≠ "" ∧
        ∃ user,
          req.user = some user ∧
            resolveTenantId services req user = .ok (some tenantId) := by
  unfold intercept at hrun
  split at hrun
  · cases hrun
  · cases hrun
  · next hexempt =>
    split at hrun
    · cases hrun
    · next user huser =>
      split at hrun
      · cases hrun
      · next resolved hresolved =>
        split at hrun
        · next found htruthy =>
          cases hrun
          obtain ⟨hfound, hnonempty⟩ := Text.truthy_eq_some_iff.mp htruthy
          exact ⟨hexempt, hnonempty, user, huser, hfound ▸ hresolved⟩
        · cases hrun

end TenantInterceptor

/-! ## Agreement -/

/-- A path the interceptor does not exempt is not exempt for the middleware either. -/
theorem exempt_eq_false (hexempt : isTenantExempt services.env req.path = .ok false) :
    AbilityMiddleware.exempt services req.path? = .ok false := by
  unfold AbilityMiddleware.exempt
  cases htruthy : Text.truthy req.path? with
  | none =>
      rfl
  | some path =>
      obtain ⟨hpath, -⟩ := Text.truthy_eq_some_iff.mp htruthy
      have hsame : req.path = path := by
        rw [Request.path, hpath, Option.getD_some]
      rw [hsame] at hexempt
      exact hexempt

/-- A tenant the interceptor resolves is the tenant the middleware resolves. -/
theorem resolveTenantId_of_interceptor
    (hresolved : TenantInterceptor.resolveTenantId services req user = .ok (some tenantId)) :
    AbilityMiddleware.resolveTenantId services req.path? user = .ok (some tenantId) := by
  unfold TenantInterceptor.resolveTenantId at hresolved
  unfold AbilityMiddleware.resolveTenantId
  cases hactive : Text.truthy (resolveRequestTenantId user) with
  | some active =>
      rw [hactive] at hresolved
      exact hresolved
  | none =>
      simp only [hactive] at hresolved ⊢
      -- Browser navigation on a Hub path is in particular a request on a Hub path.
      split at hresolved
      · next hhub =>
        rw [Bool.and_eq_true] at hhub
        have hpath : isHubPortalProtectedPath (stripQuery (req.path?.getD "/")) = true :=
          hhub.1
        rw [if_pos hpath]
        exact hresolved
      · cases hresolved

/-- The middleware before an interceptor that enters a tenant installed that tenant's ability. -/
theorem abilityOfTenant_of_intercept
    (hability : req.ability = none)
    (huse : AbilityMiddleware.use services req = .next req')
    (hrun : TenantInterceptor.intercept services req' = .runWithTenant tenantId) :
    ∃ user,
      req'.user = some user ∧ AbilityOfTenant services user tenantId req'.ability := by
  obtain ⟨hexempt, hnonempty, user, huser, hresolved⟩ :=
    TenantInterceptor.runWithTenant_cases hrun
  have hsame : req' = { req with ability := req'.ability } :=
    AbilityMiddleware.use_same huse
  -- Both look at the same path, the same user and the same headers.
  rw [hsame] at hexempt huser hresolved
  have hattach :=
    AbilityMiddleware.use_eq_attach hability huser (@exempt_eq_false services req hexempt)
  rw [hattach] at huse
  have htenant : AbilityMiddleware.resolveTenantId services req.path? user = .ok (some tenantId) :=
    @resolveTenantId_of_interceptor services req user tenantId hresolved
  cases huse
  refine ⟨user, ?_, AbilityMiddleware.attachAbilityForUser_abilityOfTenant htenant hnonempty⟩
  rw [hsame]
  exact huser

/-! ## The chain -/

/-- A session check that goes on has left the ability alone when the test header set none. -/
theorem sessionMiddleware_ability
    (htest : services.testAbility req = none)
    (huse : BetterAuthSessionMiddleware.use services req = .next req') :
    req'.ability = req.ability := by
  have hseed : BetterAuthSessionMiddleware.preSeedAbility services req = req := by
    simp only [BetterAuthSessionMiddleware.preSeedAbility, htest]
  simp only [BetterAuthSessionMiddleware.use, hseed] at huse
  have hrefuse :
      BetterAuthSessionMiddleware.refuse services req = .next req' → req' = req := by
    intro hnext
    simp only [BetterAuthSessionMiddleware.refuse] at hnext
    split at hnext
    · cases hnext
    · cases hnext
      rfl
    · split at hnext <;> cases hnext
  split at huse
  · cases huse
  · split at huse
    · cases huse
      rfl
    · split at huse
      · cases huse
        rfl
      · rw [hrefuse huse]
      · rw [hrefuse huse]

/-- The API key check leaves the ability alone. -/
theorem keyMiddleware_ability
    {table table' : ApiKeyTable}
    (huse : ApiKeySessionMiddleware.use services table req = (.next req', table')) :
    req'.ability = req.ability := by
  unfold ApiKeySessionMiddleware.use at huse
  split at huse
  · cases huse
    rfl
  · split at huse
    · cases huse
      rfl
    · split at huse
      · split at huse
        · cases huse
          rfl
        · cases huse
        · split at huse
          · cases huse
          · cases huse
            rfl
      · cases huse
        rfl

/-- A request that runs inside a tenant went through all four parts of the chain. -/
theorem serveRequest_handled_cases
    {table : ApiKeyTable}
    (hrun : (serveRequest services table req).outcome = .handled (some tenantId)) :
    ∃ session keyed table' installed,
      BetterAuthSessionMiddleware.use services req = .next session ∧
        ApiKeySessionMiddleware.use services table session = (.next keyed, table') ∧
          AbilityMiddleware.use services keyed = .next installed ∧
            TenantInterceptor.intercept services installed = .runWithTenant tenantId ∧
              (serveRequest services table req).request = installed := by
  unfold serveRequest at hrun ⊢
  cases hsession : BetterAuthSessionMiddleware.use services req with
  | redirect _ _ _ =>
      simp only [hsession, Next.andThen] at hrun
      cases hrun
  | exception _ _ =>
      simp only [hsession, Next.andThen] at hrun
      cases hrun
  | next session =>
      simp only [hsession, Next.andThen] at hrun ⊢
      rcases hkeyed : ApiKeySessionMiddleware.use services table session with ⟨keyed, table'⟩
      simp only [hkeyed] at hrun ⊢
      cases keyed with
      | redirect _ _ _ =>
          cases hrun
      | exception _ _ =>
          cases hrun
      | next keyed =>
          simp only at hrun ⊢
          cases hinstalled : AbilityMiddleware.use services keyed with
          | redirect _ _ _ =>
              simp only [hinstalled] at hrun
              cases hrun
          | exception _ _ =>
              simp only [hinstalled] at hrun
              cases hrun
          | next installed =>
              simp only [hinstalled, intercepted] at hrun ⊢
              refine ⟨session, keyed, table', installed, rfl, hkeyed, hinstalled, ?_⟩
              cases hintercept : TenantInterceptor.intercept services installed with
              | handle =>
                  simp only [hintercept] at hrun
                  cases hrun
              | exception _ =>
                  simp only [hintercept] at hrun
                  cases hrun
              | runWithTenant found =>
                  simp only [hintercept] at hrun ⊢
                  cases hrun
                  exact ⟨rfl, trivial⟩

/-- The tenant a handler runs in is the tenant its ability was resolved for. -/
theorem tenants_agree
    (services : Services)
    (table : ApiKeyTable)
    (req : Request)
    (tenantId : String)
    (htest : services.testAbility req = none)
    (hability : req.ability = none)
    (hrun : (serveRequest services table req).outcome = .handled (some tenantId)) :
    ∃ user,
      (serveRequest services table req).request.user = some user ∧
        AbilityOfTenant services user tenantId
          (serveRequest services table req).request.ability := by
  obtain ⟨session, keyed, table', installed, hsession, hkeyed, hinstalled, hintercept, hserved⟩ :=
    serveRequest_handled_cases hrun
  have hkeyedAbility : keyed.ability = none := by
    rw [keyMiddleware_ability hkeyed, sessionMiddleware_ability htest hsession, hability]
  rw [hserved]
  exact abilityOfTenant_of_intercept hkeyedAbility hinstalled hintercept

/-- A session without an active organization, of a user with a membership in `t1`. -/
def memberServices : Services where
  env :=
    { NODE_ENV := some "production"
      OPENAPI_REQUIRE_AUTH := none
      BETTER_AUTH_BASE_PATH := none
      SCALAR_PROD := none }
  getSession := some fun _ =>
    .ok (some { userId := "u1", tenantId := none, activeOrganizationId := none })
  testAbility _ := none
  argon2Verify _ _ := false
  now := 0
  firstMembership userId := .ok (if userId = "u1" then some "t1" else none)
  abilityFor userId tenantId _ :=
    .ok (buildAbility
      [{ action := ["manage"]
         subject := ["File"]
         conditions := some [("tenantId", .str tenantId), ("userId", .str userId)]
         fields := []
         inverted := false }])
  abilityFallback := none

def noKeys : ApiKeyTable where
  rows := []
  ids_nodup := List.nodup_nil

/-- A browser opening a Hub page. -/
def hubNavigation : Request where
  method := some "GET"
  originalUrl := some "/hub/users?page=2"
  url := some "/users?page=2"
  accept := some (.single "text/html")
  authorization := none
  user := none
  ability := none

/-- The fallback to the first membership is the same tenant on both sides. -/
theorem tenants_agree_hubNavigation :
    (serveRequest memberServices noKeys hubNavigation).outcome = .handled (some "t1") ∧
      ∃ user,
        (serveRequest memberServices noKeys hubNavigation).request.user = some user ∧
          AbilityOfTenant memberServices user "t1"
            (serveRequest memberServices noKeys hubNavigation).request.ability := by
  have hrun : (serveRequest memberServices noKeys hubNavigation).outcome = .handled (some "t1") := by
    decide
  exact ⟨hrun, tenants_agree memberServices noKeys hubNavigation "t1" rfl rfl hrun⟩

end TenantAgreement

end Http
end NestBase
