import NestBase.Core.HttpPaths
import NestBase.Core.ApiKeyService

/-!
# The request chain

The middleware of `AppModule.configure` in its order (session, API key,
ability) and the `TenantInterceptor` in front of the handler.  Better-Auth's
session lookup, the membership query, `PermissionService.abilityFor` and
argon2 are parameters (`Services`); each of them may throw.
-/

namespace NestBase
namespace Http

open Lib
open Permissions
open ApiKeys

/-! ## Requests and services -/

inductive HeaderValue where
  | single (value : String)
  | many (values : List String)
deriving DecidableEq, Repr

/-- `Array.isArray(header) ? header[0] : header` -/
def firstHeader : Option HeaderValue → Option String
  | none => none
  | some (.single value) => some value
  | some (.many values) => values.head?

/-- `req.user`; `undefined` and `null` fields are `none`. -/
structure User where
  id : String
  tenantId : Option String
  activeOrganizationId : Option String
  scopes : Option (List String)
deriving DecidableEq, Repr

structure Request where
  method : Option String
  originalUrl : Option String
  url : Option String
  accept : Option HeaderValue
  authorization : Option HeaderValue
  user : Option User
  ability : Option Ability

/-- `req.originalUrl ?? req.url` -/
def Request.path? (req : Request) : Option String :=
  req.originalUrl.or req.url

/-- `req.originalUrl ?? req.url ?? "/"` -/
def Request.path (req : Request) : String :=
  req.path?.getD "/"

structure SessionLookup where
  userId : String
  tenantId : Option String
  activeOrganizationId : Option String

structure Services where
  env : ProcessEnv
  /-- `auth.api.getSession`; `none` when Better-Auth is not configured. -/
  getSession : Option (Request → Except String (Option SessionLookup))
  /-- `parseTestAbilityHeaderForRequest` -/
  testAbility : Request → Option Ability
  argon2Verify : String → String → Bool
  now : Int
  /-- The organization of the user's first membership. -/
  firstMembership : String → Except String (Option String)
  /-- `PermissionService.abilityFor(userId, tenantId, { scopes })` -/
  abilityFor : String → String → Option (List String) → Except String Ability
  abilityFallback : Option (User → Option String → Except String (Option Ability))

/-- How a middleware ends. -/
inductive Next where
  | next (req : Request)
  | redirect (req : Request) (status : Nat) (location : String)
  | exception (req : Request) (exception : HttpException)

def serverError : HttpException where
  status := 500
  message := "Internal server error"

def authenticationRequired : HttpException where
  status := 401
  message := "Authentication required."

/-! ## Tenant of a request -/

/-- `resolveRequestTenantId` -/
def resolveRequestTenantId (user : User) : Option String :=
  user.activeOrganizationId

def resolveHubOperatorTenantId
    (services : Services) (user : User) : Except String (Option String) :=
  match Text.truthy user.activeOrganizationId with
  | some organizationId => .ok (some organizationId)
  | none => services.firstMembership user.id

/-! ## Session -/

namespace BetterAuthSessionMiddleware

/-- What an anonymous request gets on a path. -/
def refuse (services : Services) (req : Request) : Next :=
  let pure := stripQuery req.path
  match isPathProtected services.env pure with
  | .error _ => .exception req serverError
  | .ok false => .next req
  | .ok true =>
      if prefersHubPortalLoginRedirect pure req.method (firstHeader req.accept) then
        .redirect req 302 "/"
      else .exception req authenticationRequired

/-- The ability of the test header, if it carries one. -/
def preSeedAbility (services : Services) (req : Request) : Request :=
  match services.testAbility req with
  | some ability => { req with ability := some ability }
  | none => req

def use (services : Services) (req : Request) : Next :=
  let req := preSeedAbility services req
  match isPathProtected services.env (stripQuery req.path) with
  | .error _ => .exception req serverError
  | .ok _ =>
      match services.getSession with
      | none => .next req
      | some getSession =>
          match getSession req with
          | .ok (some session) =>
              .next
                { req with
                  user :=
                    some
                      { id := session.userId
                        tenantId := session.tenantId
                        activeOrganizationId := session.activeOrganizationId
                        scopes := none } }
          -- A lookup that throws counts as no session.
          | .ok none => refuse services req
          | .error _ => refuse services req

end BetterAuthSessionMiddleware

/-! ## API key -/

namespace ApiKeySessionMiddleware

/-- White space `trim` removes, as far as a header can carry it. -/
def isSpace (c : Char) : Bool :=
  c = ' ' || c = '\t' || c = '\n' || c = '\r' || c.toNat = 11 || c.toNat = 12 || c.toNat = 160

def trim (s : String) : String :=
  String.ofList (((s.toList.dropWhile isSpace).reverse.dropWhile isSpace).reverse)

def extractBearerToken : Option HeaderValue → Option String
  | some (.single header) =>
      if Text.startsWith header "Bearer " then
        let token := trim (String.ofList (header.toList.drop "Bearer ".toList.length))
        if token = "" then none else some token
      else none
  | _ => none

/-- The middleware and the key table it leaves. -/
def use (services : Services) (table : ApiKeyTable) (req : Request) : Next × ApiKeyTable :=
  if req.user.isSome then (.next req, table)
  else
    match extractBearerToken req.authorization with
    | none => (.next req, table)
    | some token =>
        if Text.startsWith token PREFIX then
          match ApiKeyService.verifyKey services.argon2Verify services.now table token with
          | (.error .invalid, table') => (.next req, table')
          -- Only `ApiKeyInvalidError` is caught.
          | (.error .expired, table') => (.exception req serverError, table')
          | (.ok verified, table') =>
              match services.firstMembership verified.userId with
              | .error _ => (.exception req serverError, table')
              | .ok tenantId =>
                  (.next
                    { req with
                      user :=
                        some
                          { id := verified.userId
                            tenantId := tenantId
                            activeOrganizationId := none
                            scopes := some verified.scopes } },
                    table')
        else (.next req, table)

end ApiKeySessionMiddleware

/-! ## Ability -/

namespace AbilityMiddleware

def installEmptyOrFallbackAbility (services : Services) (req : Request) (user : User) : Request :=
  match services.abilityFallback with
  | none => { req with ability := some (buildAbility []) }
  | some fallback =>
      match fallback user req.path? with
      | .ok (some ability) => { req with ability := some ability }
      | .ok none => { req with ability := some (buildAbility []) }
      | .error _ => { req with ability := some (buildAbility []) }

def attachAbilityForUser
    (services : Services)
    (req : Request)
    (user : User)
    (resolved : Except String (Option String)) : Request :=
  match resolved with
  | .error _ => { req with ability := some (buildAbility []) }
  | .ok tenantId =>
      match Text.truthy tenantId with
      | none => installEmptyOrFallbackAbility services req user
      | some tenantId =>
          match services.abilityFor user.id tenantId user.scopes with
          | .ok ability => { req with ability := some ability }
          | .error _ => { req with ability := some (buildAbility []) }

/-- `path && isTenantExempt(path)` -/
def exempt (services : Services) (path : Option String) : Except String Bool :=
  match Text.truthy path with
  | none => .ok false
  | some path => isTenantExempt services.env path

/-- The tenant of a request that is not exempt. -/
def resolveTenantId (services : Services) (path : Option String) (user : User) :
    Except String (Option String) :=
  match Text.truthy (resolveRequestTenantId user) with
  | some tenantId => .ok (some tenantId)
  | none =>
      if isHubPortalProtectedPath (stripQuery (path.getD "/")) then
        resolveHubOperatorTenantId services user
      else .ok none

def use (services : Services) (req : Request) : Next :=
  if req.ability.isSome then .next req
  else
    match req.user with
    | none => .next { req with ability := some (buildAbility []) }
    | some user =>
        match exempt services req.path? with
        | .error _ => .exception req serverError
        | .ok true =>
            if isHubOperatorAbilityPath (req.path?.getD "") then
              .next (attachAbilityForUser services req user
                (resolveHubOperatorTenantId services user))
            else .next (installEmptyOrFallbackAbility services req user)
        | .ok false =>
            .next (attachAbilityForUser services req user
              (resolveTenantId services req.path? user))

end AbilityMiddleware

/-! ## Tenant -/

/-- What the interceptor does with the handler. -/
inductive Intercepted where
  | handle
  | runWithTenant (tenantId : String)
  | exception (exception : HttpException)
deriving DecidableEq, Repr

def isolationError (message : String) : HttpException where
  status := 403
  message := message

namespace TenantInterceptor

/-- The tenant the handler runs in. -/
def resolveTenantId (services : Services) (req : Request) (user : User) :
    Except String (Option String) :=
  let pure := stripQuery req.path
  match Text.truthy (resolveRequestTenantId user) with
  | some tenantId => .ok (some tenantId)
  | none =>
      if isHubPortalProtectedPath pure &&
          prefersHubPortalHtmlResponse req.method (firstHeader req.accept) then
        resolveHubOperatorTenantId services user
      else .ok none

def intercept (services : Services) (req : Request) : Intercepted :=
  match isTenantExempt services.env req.path with
  | .error _ => .exception serverError
  | .ok true => .handle
  | .ok false =>
      match req.user with
      | none =>
          .exception (isolationError "authentication required for tenant-scoped routes")
      | some user =>
          match resolveTenantId services req user with
          | .error _ => .exception serverError
          | .ok tenantId =>
              match Text.truthy tenantId with
              | some tenantId => .runWithTenant tenantId
              | none =>
                  .exception (isolationError
                    "active organization required — call POST /api/auth/organization/set-active")

end TenantInterceptor

/-! ## The chain -/

/-- How a request ends. -/
inductive Outcome where
  /-- The handler runs, with or without a tenant. -/
  | handled (tenantId : Option String)
  | redirected (status : Nat) (location : String)
  | failed (exception : HttpException)
deriving DecidableEq, Repr

structure Served where
  outcome : Outcome
  request : Request
  keys : ApiKeyTable

/-- Interceptor and handler. -/
def intercepted (services : Services) (table : ApiKeyTable) (req : Request) : Served :=
  match TenantInterceptor.intercept services req with
  | .handle => { outcome := .handled none, request := req, keys := table }
  | .runWithTenant tenantId =>
      { outcome := .handled (some tenantId), request := req, keys := table }
  | .exception exception => { outcome := .failed exception, request := req, keys := table }

/-- Go on after a middleware, or stop where it ended the request. -/
def Next.andThen (table : ApiKeyTable) (rest : Request → Served) : Next → Served
  | next req => rest req
  | redirect req status location =>
      { outcome := .redirected status location, request := req, keys := table }
  | exception req thrown => { outcome := .failed thrown, request := req, keys := table }

/-- Session, API key, ability, tenant, handler. -/
def serveRequest (services : Services) (table : ApiKeyTable) (req : Request) : Served :=
  (BetterAuthSessionMiddleware.use services req).andThen table fun req =>
    let (keyed, table) := ApiKeySessionMiddleware.use services table req
    keyed.andThen table fun req =>
      (AbilityMiddleware.use services req).andThen table fun req =>
        intercepted services table req

end Http
end NestBase
