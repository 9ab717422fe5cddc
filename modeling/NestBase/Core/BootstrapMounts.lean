import NestBase.Core.BearerTokens

/-!
# Handlers mounted by the bootstrap

`bootstrap` registers Express handlers before `app.init`, so they are tried
in registration order in front of the Nest chain: CORS, the Hub root, the
OpenAPI document under its two paths, the OpenAPI page, Scalar, TUS and IPX.
Handlers that only set headers (Helmet, the CSP override) are left out.

None of them asks `isPathProtected`.  Where the Nest chain is registered for a
protected path, it refuses an anonymous request unless one of these handlers
takes it.
-/

namespace NestBase
namespace Http

open Lib
open Permissions
open ApiKeys

/-! ## Environment -/

inductive AppEnv where
  | development
  | staging
  | production
deriving DecidableEq, Repr

/-- `test` counts as development; a missing or unknown value as production. -/
def normalizeAppEnv (raw : Option String) : AppEnv :=
  if raw = some "test" then .development
  else if raw = some "development" then .development
  else if raw = some "staging" then .staging
  else .production

/-- `cfg.env` -/
def appEnv (env : ProcessEnv) : AppEnv :=
  normalizeAppEnv (Text.truthy env.NODE_ENV)

def scalarEnabled (env : ProcessEnv) : Bool :=
  decide (appEnv env ≠ .production) || decide (env.SCALAR_PROD = some "1")

/-! ## Answers -/

/-- Who answers a request, and with what. -/
inductive Answer where
  | preflight
  | hubRoot
  | openApiDocument
  | openApiPage
  | scalarPage
  | tus
  | ipx (status : Nat)
  /-- The 401 of the gate in front of IPX. -/
  | unauthorized
  | rejectedBody (exception : HttpException)
  | nest (served : Served)
  /-- The chain is not registered for the path. -/
  | unrouted

structure Boot where
  /-- `ConfigService.cors.allowedOrigins` -/
  allowedOrigins : List String
  /-- `TUS_CONFIG.mountPath` when the TUS server is there. -/
  tusMountPath : Option String
  /-- The IPX server behind its gate, for a request with a session. -/
  ipxServer : Option (Request → SessionLookup → Option Answer)
  /-- Nest's body parser, which runs before its middleware. -/
  bodyParser : Request → Option HttpException

/-! ## Mounts -/

/-- A handler under a path, or for every path; `none` is a call of `next`. -/
structure Mount where
  path : Option String
  handle : Request → Option Answer

def Mount.answer (mount : Mount) (req : Request) : Option Answer :=
  match mount.path with
  | none => mount.handle req
  | some path => if mountMatches path (stripQuery req.path) then mount.handle req else none

/-- `enableCors` with a list of origins answers every preflight; without one it goes on. -/
def corsMount (boot : Boot) : Mount where
  path := none
  handle req :=
    if boot.allowedOrigins ≠ [] ∧ req.method = some "OPTIONS" then some .preflight else none

/-- `expressApp.get("/")` -/
def hubRootMount : Mount where
  path := none
  handle req :=
    if stripQuery req.path = "/" ∧ (req.method = some "GET" ∨ req.method = some "HEAD") then
      some .hubRoot
    else none

def openApiMount : Mount where
  path := some "/api/openapi.json"
  handle _ := some .openApiDocument

def legacyOpenApiMount : Mount where
  path := some "/api-docs-json"
  handle _ := some .openApiDocument

def openApiPageMount : Mount where
  path := some "/openapi"
  handle req := if req.method = some "GET" then some .openApiPage else none

def scalarMount : Mount where
  path := some "/api/docs"
  handle _ := some .scalarPage

def tusMount (mountPath : String) : Mount where
  path := some mountPath
  handle _ := some .tus

/-- IPX behind its own session check. -/
def ipxMount
    (services : Services)
    (ipxServer : Request → SessionLookup → Option Answer) : Mount where
  path := some "/_ipx"
  handle req :=
    match services.getSession with
    | none => none
    | some getSession =>
        match getSession req with
        | .ok (some session) => ipxServer req session
        | .ok none => some .unauthorized
        | .error _ => some .unauthorized

/-- The mounts in the order of their registration. -/
def mounts (boot : Boot) (services : Services) : List Mount :=
  [corsMount boot, hubRootMount, openApiMount, legacyOpenApiMount] ++
    (if appEnv services.env ≠ .production then [openApiPageMount] else []) ++
      (if scalarEnabled services.env then [scalarMount] else []) ++
        boot.tusMountPath.toList.map tusMount ++
          boot.ipxServer.toList.map (ipxMount services)

/-- The first mount that answers, else the body parser, else the Nest chain. -/
def serveApp (boot : Boot) (services : Services) (table : ApiKeyTable) (req : Request) : Answer :=
  match (mounts boot services).findSome? (fun mount => mount.answer req) with
  | some answer => answer
  | none =>
      match boot.bodyParser req with
      | some exception => .rejectedBody exception
      | none => (serveNest services table req).elim .unrouted .nest

section Anonymous

variable {boot : Boot}
variable {services : Services}
variable {table : ApiKeyTable}
variable {req : Request}

/-! ## Anonymous requests -/

/-- The mounts that hand out documents or take uploads without a session. -/
def unguardedMounts (boot : Boot) : List String :=
  ["/api/openapi.json", "/api-docs-json", "/openapi"] ++ boot.tusMountPath.toList

/-- A 401, or the redirect to the login page. -/
def Answer.Refuses : Answer → Prop
  | unauthorized => True
  | nest served =>
      served.outcome = .redirected 302 "/" ∨
        ∃ exception, served.outcome = .failed exception ∧ exception.status = 401
  | _ => False

/-- The answers an anonymous request on a protected path gets outside the unguarded mounts. -/
inductive AnonymousAnswer
    (boot : Boot) (services : Services) (table : ApiKeyTable) (req : Request) : Answer → Prop
  | preflight
      (horigins : boot.allowedOrigins ≠ [])
      (hmethod : req.method = some "OPTIONS") :
      AnonymousAnswer boot services table req .preflight
  | scalarPage
      (henabled : scalarEnabled services.env = true)
      (hunder : mountMatches "/api/docs" (stripQuery req.path) = true) :
      AnonymousAnswer boot services table req .scalarPage
  | rejectedBody
      {exception : HttpException}
      (hrejected : boot.bodyParser req = some exception) :
      AnonymousAnswer boot services table req (.rejectedBody exception)
  | unauthorized :
      AnonymousAnswer boot services table req .unauthorized
  | nest
      {served : Served}
      (houtcome :
        served.outcome =
          if prefersHubPortalLoginRedirect (stripQuery req.path) req.method
              (firstHeader req.accept) then
            .redirected 302 "/"
          else .failed authenticationRequired)
      (huser : served.request.user = req.user)
      (hkeys : served.keys = table) :
      AnonymousAnswer boot services table req (.nest served)

/-- The root is public whatever the environment says. -/
theorem isPathProtected_root (env : ProcessEnv) : isPathProtected env "/" = .ok false := by
  have hpublic : (resolvePublicExact env).contains "/" = true := by
    unfold resolvePublicExact
    split <;> decide
  unfold isPathProtected
  rw [if_neg (by decide), if_pos hpublic]

/-- A mount under a path answers only there. -/
theorem Mount.answer_eq_some
    {mount : Mount} {path : String} {answer : Answer}
    (hpath : mount.path = some path)
    (hanswer : mount.answer req = some answer) :
    mountMatches path (stripQuery req.path) = true ∧ mount.handle req = some answer := by
  simp only [Mount.answer, hpath] at hanswer
  split at hanswer
  · next hmatches =>
    exact ⟨hmatches, hanswer⟩
  · cases hanswer

/-- The gate in front of IPX refuses a request without a session. -/
theorem ipxMount_of_anonymous
    {ipxServer : Request → SessionLookup → Option Answer}
    (hanonymous : Anonymous services req) :
    (ipxMount services ipxServer).handle req = some .unauthorized := by
  obtain ⟨getSession, hget, hnone⟩ := hanonymous
  simp only [ipxMount, hget]
  split
  · next session hsession =>
    exact absurd hsession (hnone req.ability session)
  · rfl
  · rfl

/-- Outside the unguarded mounts only CORS, Scalar and the IPX gate answer. -/
theorem anonymousAnswer_of_mount
    {mount : Mount} {answer : Answer}
    (hanonymous : Anonymous services req)
    (hprotected : isPathProtected services.env (stripQuery req.path) = .ok true)
    (houtside :
      ∀ path ∈ unguardedMounts boot, mountMatches path (stripQuery req.path) = false)
    (hmount : mount ∈ mounts boot services)
    (hanswer : mount.answer req = some answer) :
    AnonymousAnswer boot services table req answer := by
  have hunguarded :
      ∀ path, path ∈ unguardedMounts boot → mount.path ≠ some path := by
    intro path hpath hat
    have hmatches := (Mount.answer_eq_some hat hanswer).1
    rw [houtside path hpath] at hmatches
    cases hmatches
  simp only [mounts, List.mem_append, List.mem_cons, List.not_mem_nil, or_false, List.mem_map,
    Option.mem_toList] at hmount
  rcases hmount with
    (((((rfl | rfl | rfl | rfl) | hpage) | hscalar) | ⟨path, htus, rfl⟩) | ⟨server, -, rfl⟩)
  · simp only [Mount.answer, corsMount] at hanswer
    split at hanswer
    · next hpreflight =>
      cases hanswer
      exact .preflight hpreflight.1 hpreflight.2
    · cases hanswer
  · -- The root is public.
    simp only [Mount.answer, hubRootMount] at hanswer
    split at hanswer
    · next hroot =>
      rw [hroot.1, isPathProtected_root] at hprotected
      cases hprotected
    · cases hanswer
  · exact absurd rfl (hunguarded "/api/openapi.json" (by simp [unguardedMounts]))
  · exact absurd rfl (hunguarded "/api-docs-json" (by simp [unguardedMounts]))
  · split at hpage
    · rw [List.mem_singleton] at hpage
      subst hpage
      exact absurd rfl (hunguarded "/openapi" (by simp [unguardedMounts]))
    · cases hpage
  · split at hscalar
    · next henabled =>
      rw [List.mem_singleton] at hscalar
      subst hscalar
      obtain ⟨hunder, hpage⟩ := Mount.answer_eq_some rfl hanswer
      cases hpage
      exact .scalarPage henabled hunder
    · cases hscalar
  · exact absurd rfl (hunguarded path (by simp [unguardedMounts, htus]))
  · obtain ⟨-, hgate⟩ := Mount.answer_eq_some rfl hanswer
    rw [ipxMount_of_anonymous hanonymous] at hgate
    cases hgate
    exact .unauthorized

/-- Outside the unguarded mounts no protected path of the chain serves an anonymous request. -/
theorem anonymous_refused
    (boot : Boot)
    (services : Services)
    (table : ApiKeyTable)
    (req : Request)
    (hanonymous : Anonymous services req)
    (hprotected : isPathProtected services.env (stripQuery req.path) = .ok true)
    (hregistered : chainRegistered (stripQuery req.path) = true)
    (houtside :
      ∀ path ∈ unguardedMounts boot, mountMatches path (stripQuery req.path) = false) :
    AnonymousAnswer boot services table req (serveApp boot services table req) := by
  unfold serveApp
  split
  · next answer hfound =>
    obtain ⟨mount, hmount, hanswer⟩ := List.exists_of_findSome?_eq_some hfound
    exact anonymousAnswer_of_mount hanonymous hprotected houtside hmount hanswer
  · split
    · next exception hrejected =>
      exact .rejectedBody hrejected
    · obtain ⟨houtcome, huser, hkeys⟩ := serveRequest_of_anonymous table hanonymous hprotected
      rw [serveNest, if_pos hregistered]
      exact .nest houtcome huser hkeys

/-- A deployment with one allowed origin, TUS and a body parser that takes everything. -/
def stagingBoot : Boot where
  allowedOrigins := ["https://app.example.com"]
  tusMountPath := some "/api/files/tus"
  ipxServer := some fun _ _ => some (.ipx 200)
  bodyParser _ := none

/-- Staging, nobody signed in. -/
def stagingServices : Services :=
  { anonymousServices with
    env := { anonymousServices.env with NODE_ENV := some "staging" } }

theorem anonymous_stagingServices (req : Request) : Anonymous stagingServices req :=
  anonymous_anonymousServices req

/-- Listing files anonymously is refused. -/
theorem anonymous_refused_files :
    isPathProtected stagingServices.env (stripQuery scriptRequest.path) = .ok true ∧
      AnonymousAnswer stagingBoot stagingServices noKeys scriptRequest
        (serveApp stagingBoot stagingServices noKeys scriptRequest) := by
  have hprotected :
      isPathProtected stagingServices.env (stripQuery scriptRequest.path) = .ok true := by
    decide
  exact
    ⟨hprotected,
      anonymous_refused stagingBoot stagingServices noKeys scriptRequest
        (anonymous_stagingServices scriptRequest) hprotected (by decide) (by decide)⟩

/-- Anonymous requests on protected paths that are answered on purpose. -/
theorem not_refuses_preflight_docs :
    let preflight := { scriptRequest with method := some "OPTIONS" }
    let docs := { scriptRequest with originalUrl := some "/api/docs", authorization := none }
    (Anonymous stagingServices preflight ∧
      isPathProtected stagingServices.env (stripQuery preflight.path) = .ok true ∧
        ¬ (serveApp stagingBoot stagingServices noKeys preflight).Refuses) ∧
      Anonymous stagingServices docs ∧
        isPathProtected stagingServices.env (stripQuery docs.path) = .ok true ∧
          ¬ (serveApp stagingBoot stagingServices noKeys docs).Refuses := by
  intro preflight docs
  have hpreflight : serveApp stagingBoot stagingServices noKeys preflight = .preflight := by
    rfl
  have hdocs : serveApp stagingBoot stagingServices noKeys docs = .scalarPage := by
    have hroot : ¬ stripQuery docs.path = "/" := by
      decide
    have hdocument : mountMatches "/api/openapi.json" (stripQuery docs.path) = false := by
      decide
    have hlegacy : mountMatches "/api-docs-json" (stripQuery docs.path) = false := by
      decide
    have hpage : mountMatches "/openapi" (stripQuery docs.path) = false := by
      decide
    have hmatches : mountMatches "/api/docs" (stripQuery docs.path) = true := by
      decide
    have henv : appEnv stagingServices.env = .staging := by
      decide
    have hmethod : docs.method = some "GET" := rfl
    simp [serveApp, mounts, Mount.answer, corsMount, hubRootMount, openApiMount,
      legacyOpenApiMount, openApiPageMount, scalarMount, scalarEnabled, henv, hmethod, hroot,
      hdocument, hlegacy, hpage, hmatches]
  refine
    ⟨⟨anonymous_stagingServices preflight, by decide, ?_⟩,
      anonymous_stagingServices docs, by decide, ?_⟩
  · rw [hpreflight]
    exact not_false
  · rw [hdocs]
    exact not_false

end Anonymous

end Http
end NestBase
