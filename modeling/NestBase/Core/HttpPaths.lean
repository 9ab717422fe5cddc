import NestBase.Lib.Text

/-!
# Path classification

The classifiers that decide what a request path needs: `isPathProtected` of
`jwt-middleware.ts` (a session), `isTenantExempt` of `tenant-guard.ts` (no
tenant) and the Hub predicates of `hub-portal-paths.ts`.  They read the
environment on every call.
-/

namespace NestBase
namespace Http

open Lib

/-- The environment variables the classifiers and the bootstrap read. -/
structure ProcessEnv where
  NODE_ENV : Option String
  OPENAPI_REQUIRE_AUTH : Option String
  BETTER_AUTH_BASE_PATH : Option String
  SCALAR_PROD : Option String

def BETTER_AUTH_DEFAULT_MOUNT_PATH : String := "/api/auth"

/-- The path without query string and fragment. -/
def stripQuery (path : String) : String :=
  Text.before ['?', '#'] path

/-- A path equal to the prefix without its final slash, or starting with it. -/
def underPrefix (path entry : String) : Bool :=
  Text.startsWith path entry || decide (path = Text.dropLast entry)

/-- The Better-Auth prefix, with a final slash. -/
def resolveAuthPrefix (env : ProcessEnv) : String :=
  let raw := env.BETTER_AUTH_BASE_PATH.getD BETTER_AUTH_DEFAULT_MOUNT_PATH
  if Text.endsWith raw "/" then raw else raw ++ "/"

/-! ## Session -/

def resolveOpenapiRequireAuth (env : ProcessEnv) : Bool :=
  if env.OPENAPI_REQUIRE_AUTH = some "true" ∨ env.OPENAPI_REQUIRE_AUTH = some "1" then true
  else if env.OPENAPI_REQUIRE_AUTH = some "false" ∨ env.OPENAPI_REQUIRE_AUTH = some "0" then
    false
  else decide (env.NODE_ENV.getD "development" = "production")

def BASE_STATIC_PUBLIC_PREFIXES : List String :=
  ["/health/", "/docs/", "/hub/static/", "/errors/", "/api/files/share/"]

def OPENAPI_PUBLIC_PREFIXES : List String := ["/openapi", "/api/openapi"]

def BASE_PUBLIC_EXACT : List String := ["/", "/api/", "/api", "/errors", "/api/errors"]

def OPENAPI_PUBLIC_EXACT : List String := ["/openapi", "/api-docs-json"]

def resolvePublicPrefixes (env : ProcessEnv) : List String :=
  if resolveOpenapiRequireAuth env then BASE_STATIC_PUBLIC_PREFIXES
  else BASE_STATIC_PUBLIC_PREFIXES ++ OPENAPI_PUBLIC_PREFIXES

def resolvePublicExact (env : ProcessEnv) : List String :=
  if resolveOpenapiRequireAuth env then BASE_PUBLIC_EXACT
  else BASE_PUBLIC_EXACT ++ OPENAPI_PUBLIC_EXACT

/-- Whether a path needs a session; the empty path is an error. -/
def isPathProtected (env : ProcessEnv) (path : String) : Except String Bool :=
  if path = "" then .error "isPathProtected: path is required"
  else if (resolvePublicExact env).contains path then .ok false
  else if underPrefix path (resolveAuthPrefix env) then .ok false
  else if (resolvePublicPrefixes env).any (underPrefix path) then .ok false
  else .ok true

/-! ## Tenant -/

def EXEMPT_EXACT : List String :=
  ["/", "/api/", "/api", "/errors", "/api/errors", "/api/tenants", "/api-docs-json",
    "/api/metrics", "/openapi"]

def STATIC_EXEMPT_PREFIXES : List String :=
  ["/health/", "/docs/", "/errors/", "/hub/static/", "/api/me/", "/api/tenants/",
    "/api/files/share/"]

/-- Whether a path runs without a tenant; the empty path is an error. -/
def isTenantExempt (env : ProcessEnv) (path : String) : Except String Bool :=
  if path = "" then .error "isTenantExempt: path is required"
  else
    let pure := stripQuery path
    if EXEMPT_EXACT.contains pure then .ok true
    else if underPrefix pure (resolveAuthPrefix env) then .ok true
    else .ok (STATIC_EXEMPT_PREFIXES.any (underPrefix pure))

/-! ## Hub -/

def isHubPortalStaticAsset (path : String) : Bool :=
  Text.startsWith path "/hub/static/"

def isHubPortalProtectedPath (path : String) : Bool :=
  if isHubPortalStaticAsset path then false
  else if path = "/hub" ∨ Text.startsWith path "/hub/" then true
  else if path = "/admin" ∨ Text.startsWith path "/admin/" then true
  else false

/-- `/hub/*` without its static assets. -/
def isHubOperatorAbilityPath (path : String) : Bool :=
  let pure := stripQuery path
  if isHubPortalStaticAsset pure then false
  else decide (pure = "/hub") || Text.startsWith pure "/hub/"

/-- Browser navigation: a GET or HEAD request that takes HTML. -/
def prefersHubPortalHtmlResponse (method acceptHeader : Option String) : Bool :=
  if method ≠ none ∧ method ≠ some "GET" ∧ method ≠ some "HEAD" then false
  else
    let accept := acceptHeader.getD ""
    if Text.includes accept "text/html" then true
    else if Text.includes accept "*/*" && !Text.includes accept "application/json" then true
    else false

/-- An unauthenticated browser is sent to `/` instead of a 401. -/
def prefersHubPortalLoginRedirect (path : String) (method acceptHeader : Option String) : Bool :=
  if isHubPortalProtectedPath path then prefersHubPortalHtmlResponse method acceptHeader
  else false

end Http
end NestBase
