import NestBase.Core.BootstrapMounts
import NestBase.Core.CaslAbility

/-!
# The Hub gate

`HubPortalMiddleware` with the path predicates, the rights and the policy it
decides by.  The router in front of the handlers is Express with its default
settings; what the gate relies on of it is `DefaultRouting`.

The gate compares the path as it is spelled, the router without regard to
case: a path with the first segment in another spelling is dispatched and not
gated.
-/

namespace NestBase
namespace Http

open Lib
open Permissions

/-! ## Paths -/

/-- The probe the SPA reads its rights from. -/
def isHubPortalAccessProbePath (path : String) : Bool :=
  decide (path = "/hub/portal-access.json")

def isHubAdminPortalPath (path : String) : Bool :=
  decide (path = "/hub/admin") || Text.startsWith path "/hub/admin/"

def isLegacyAdminPortalPath (path : String) : Bool :=
  decide (path = "/admin") || Text.startsWith path "/admin/"

/-- `/hub/*` without static assets, probe and admin console. -/
def isHubCockpitPath (path : String) : Bool :=
  if isHubPortalStaticAsset path then false
  else if isHubPortalAccessProbePath path then false
  else if isHubAdminPortalPath path then false
  else decide (path = "/hub") || Text.startsWith path "/hub/"

def isTenantAdminPortalPath (path : String) : Bool :=
  isHubAdminPortalPath path || isLegacyAdminPortalPath path

/-! ## Rights -/

section Rights

variable {Item : Type}
variable (casl : Casl Item)

def canAccessHub (ability : Option Ability) : Bool :=
  match ability with
  | none => false
  | some ability => grantsHubPortalAccess casl.canType ability

def canAccessTenantAdmin (ability : Option Ability) : Bool :=
  match ability with
  | none => false
  | some ability =>
      if canManageSubject casl.canType ability "all" then true
      else
        canManageSubject casl.canType ability "User" ||
          canManageSubject casl.canType ability "TenantAdmin" ||
          canManageSubject casl.canType ability "Role" ||
          canManageSubject casl.canType ability "Policy" ||
          canManageSubject casl.canType ability "Permission"

end Rights

/-! ## Policy outside development -/

structure HubPortalOutsideDevInput where
  hubEnabled : Bool
  authenticated : Bool
  isProbePath : Bool
  isCockpitPath : Bool
  isTenantAdminPath : Bool
  hubAllowed : Bool
  tenantAdminAllowed : Bool

inductive HubPortalOutsideDevDecision where
  | passThrough
  | allow
  | notFound
deriving DecidableEq, Repr

def evaluateHubPortalRequestOutsideDev
    (input : HubPortalOutsideDevInput) : HubPortalOutsideDevDecision :=
  if !input.hubEnabled then .passThrough
  else if !input.authenticated then .notFound
  else if input.isProbePath then .allow
  else if input.isCockpitPath && input.hubAllowed then .allow
  else if input.isTenantAdminPath && input.tenantAdminAllowed then .allow
  else .notFound

/-! ## Middleware -/

/-- `new NotFoundException()` -/
def notFound : HttpException where
  status := 404
  message := "Not Found"

def forbidden (message : String) : HttpException where
  status := 403
  message := message

namespace HubPortalMiddleware

section Use

variable {Item : Type}
variable (casl : Casl Item)

/-- `Boolean(req.user?.id)` -/
def authenticated (req : Request) : Bool :=
  match req.user with
  | none => false
  | some user => decide (user.id ≠ "")

/-- The rights the path asks for, or the probe. -/
def surfaceAllowed (path : String) (ability : Option Ability) : Bool :=
  (isHubCockpitPath path && canAccessHub casl ability) ||
    (isTenantAdminPortalPath path && canAccessTenantAdmin casl ability) ||
    isHubPortalAccessProbePath path

/-- `hubEnabled` is `loadFeatures(process.env).hub.enabled`. -/
def use (env : ProcessEnv) (hubEnabled : Bool) (req : Request) : Next :=
  let path := stripQuery req.path
  if !isHubPortalProtectedPath path then .next req
  else if appEnv env ≠ .development then
    let decision :=
      evaluateHubPortalRequestOutsideDev
        { hubEnabled := hubEnabled
          authenticated := authenticated req
          isProbePath := isHubPortalAccessProbePath path
          isCockpitPath := isHubCockpitPath path
          isTenantAdminPath := isTenantAdminPortalPath path
          hubAllowed := canAccessHub casl req.ability
          tenantAdminAllowed := canAccessTenantAdmin casl req.ability }
    if decision = .notFound then .exception req notFound else .next req
  else if isHubPortalAccessProbePath path then .next req
  else
    let acceptHeader := firstHeader req.accept
    if !authenticated req then
      if surfaceAllowed casl path req.ability then .next req
      else if prefersHubPortalLoginRedirect path req.method acceptHeader then
        .redirect req 302 "/"
      else .exception req authenticationRequired
    else if !surfaceAllowed casl path req.ability then
      if prefersHubPortalLoginRedirect path req.method acceptHeader then
        .redirect req 302 "/?access=hub"
      else
        .exception req
          (forbidden
            (if isTenantAdminPortalPath path then "Tenant admin access required."
            else "Hub access required."))
    else .next req

end Use

end HubPortalMiddleware

/-! ## Routing -/

/-- What stands between the slash a path begins with and the next one. -/
def firstSegment (path : String) : String :=
  String.ofList (path.toList.tail.takeWhile fun c => c ≠ '/')

/-- Letters compared by their lower case; only ASCII letters have one here. -/
def ignoringCase (s : String) : List Char :=
  s.toList.map Char.toLower

/--
Express with its default settings: the part in front of the query is matched,
it begins with a slash, and a literal segment is compared without regard to
case.  A route is given by its segments.
-/
structure DefaultRouting (dispatches : List String → String → Prop) : Prop where
  slash :
    ∀ {route : List String} {path : String},
      dispatches route path → Text.startsWith (stripQuery path) "/" = true
  head :
    ∀ {segment : String} {rest : List String} {path : String},
      Text.startsWith segment ":" = false → Text.startsWith segment "*" = false →
        dispatches (segment :: rest) path →
          ignoringCase (firstSegment (stripQuery path)) = ignoringCase segment

/-- The first segments of the Hub routes. -/
def hubSegments : List String := ["hub", "admin"]

/-- A path is under a name when its first segment is that name. -/
theorem under_iff_firstSegment
    {path : String}
    (name : String)
    (hname : '/' ∉ name.toList)
    (hslash : Text.startsWith path "/" = true) :
    path = "/" ++ name ∨ Text.startsWith path ("/" ++ name ++ "/") = true ↔
      firstSegment path = name := by
  obtain ⟨tail, htail⟩ := List.isPrefixOf_iff_prefix.mp hslash
  have htail : path.toList = '/' :: tail := htail.symm
  have hpath : path = "/" ++ name ↔ tail = name.toList := by
    rw [String.ext_iff, htail, String.toList_append]
    exact List.cons_inj_right '/'
  have hunder :
      Text.startsWith path ("/" ++ name ++ "/") = true ↔ name.toList ++ ['/'] <+: tail := by
    rw [Text.startsWith, List.isPrefixOf_iff_prefix, htail, String.toList_append,
      String.toList_append]
    exact List.prefix_cons_inj '/'
  have hsegment :
      firstSegment path = name ↔ (tail.takeWhile fun c => c ≠ '/') = name.toList := by
    rw [String.ext_iff, firstSegment, htail, String.toList_ofList]
    exact Iff.rfl
  rw [hpath, hunder, hsegment]
  exact (Text.takeWhile_ne_eq_iff hname).symm

/-- The gate sees a path when its first segment is spelled as registered. -/
theorem covered_iff {path : String} (hslash : Text.startsWith path "/" = true) :
    isHubPortalProtectedPath path = true ∨ isHubPortalStaticAsset path = true ↔
      firstSegment path ∈ hubSegments := by
  have hhub := under_iff_firstSegment "hub" (by decide) hslash
  have hadmin := under_iff_firstSegment "admin" (by decide) hslash
  rw [hubSegments, List.mem_pair, ← hhub, ← hadmin]
  have hstatic :
      isHubPortalStaticAsset path = true → Text.startsWith path ("/" ++ "hub" ++ "/") = true := by
    intro h
    have hasset := List.isPrefixOf_iff_prefix.mp h
    have hunder : ("/" ++ "hub" ++ "/").toList <+: "/hub/static/".toList := by
      decide
    exact List.isPrefixOf_iff_prefix.mpr (hunder.trans hasset)
  constructor
  · rintro (hprotected | hasset)
    · unfold isHubPortalProtectedPath at hprotected
      split at hprotected
      · cases hprotected
      · split at hprotected
        · next h =>
          exact Or.inl h
        · split at hprotected
          · next h =>
            exact Or.inr h
          · cases hprotected
    · exact Or.inl (Or.inr (hstatic hasset))
  · intro h
    cases hasset : isHubPortalStaticAsset path with
    | true => exact Or.inr rfl
    | false =>
        refine Or.inl ?_
        unfold isHubPortalProtectedPath
        rw [if_neg (by rw [hasset]; exact Bool.false_ne_true)]
        split
        · rfl
        · next hnot =>
          exact if_pos (h.resolve_left hnot)

/-! ## What the gate lets through -/

section Gate

variable {Item : Type}
variable {casl : Casl Item}
variable {env : ProcessEnv}
variable {hubEnabled : Bool}
variable {req : Request}

/-- With the rights of its surface, or where the gate announces to stand aside. -/
inductive LetThrough
    (casl : Casl Item) (env : ProcessEnv) (hubEnabled : Bool) (req : Request) : Prop
  | hub
      (hpath : isHubCockpitPath (stripQuery req.path) = true)
      (hallowed : canAccessHub casl req.ability = true)
  | tenantAdmin
      (hpath : isTenantAdminPortalPath (stripQuery req.path) = true)
      (hallowed : canAccessTenantAdmin casl req.ability = true)
  | staticAsset (hpath : isHubPortalStaticAsset (stripQuery req.path) = true)
  | accessProbe (hpath : isHubPortalAccessProbePath (stripQuery req.path) = true)
  /-- Outside development without `FEATURE_HUB_ENABLED`. -/
  | inert
      (henv : appEnv env ≠ .development)
      (hdisabled : hubEnabled = false)

/-- The gate sees the request, and what it lets through it may let through. -/
structure HubGated
    (casl : Casl Item) (env : ProcessEnv) (hubEnabled : Bool) (req : Request) : Prop where
  covered :
    isHubPortalProtectedPath (stripQuery req.path) = true ∨
      isHubPortalStaticAsset (stripQuery req.path) = true
  guarded :
    ∀ passed, HubPortalMiddleware.use casl env hubEnabled req = .next passed →
      LetThrough casl env hubEnabled req

theorem letThrough_of_surfaceAllowed
    (hallowed :
      HubPortalMiddleware.surfaceAllowed casl (stripQuery req.path) req.ability = true) :
    LetThrough casl env hubEnabled req := by
  simp only [HubPortalMiddleware.surfaceAllowed, Bool.or_eq_true, Bool.and_eq_true] at hallowed
  rcases hallowed with (⟨hpath, hright⟩ | ⟨hpath, hright⟩) | hprobe
  · exact .hub hpath hright
  · exact .tenantAdmin hpath hright
  · exact .accessProbe hprobe

/-- Outside development everything but `notFound` is rights, probe or disabled flag. -/
theorem letThrough_of_decision
    {authenticated : Bool}
    (henv : appEnv env ≠ .development)
    (hdecision :
      evaluateHubPortalRequestOutsideDev
          { hubEnabled := hubEnabled
            authenticated := authenticated
            isProbePath := isHubPortalAccessProbePath (stripQuery req.path)
            isCockpitPath := isHubCockpitPath (stripQuery req.path)
            isTenantAdminPath := isTenantAdminPortalPath (stripQuery req.path)
            hubAllowed := canAccessHub casl req.ability
            tenantAdminAllowed := canAccessTenantAdmin casl req.ability } ≠ .notFound) :
    LetThrough casl env hubEnabled req := by
  unfold evaluateHubPortalRequestOutsideDev at hdecision
  dsimp only at hdecision
  split at hdecision
  · next hflag =>
    exact .inert henv (by simpa using hflag)
  · split at hdecision
    · exact absurd rfl hdecision
    · split at hdecision
      · next hprobe =>
        exact .accessProbe hprobe
      · split at hdecision
        · next hhub =>
          rw [Bool.and_eq_true] at hhub
          exact .hub hhub.1 hhub.2
        · split at hdecision
          · next hadmin =>
            rw [Bool.and_eq_true] at hadmin
            exact .tenantAdmin hadmin.1 hadmin.2
          · exact absurd rfl hdecision

/-- On a protected path the gate goes on with reason only. -/
theorem letThrough_of_next
    {passed : Request}
    (hprotected : isHubPortalProtectedPath (stripQuery req.path) = true)
    (hnext : HubPortalMiddleware.use casl env hubEnabled req = .next passed) :
    LetThrough casl env hubEnabled req := by
  simp only [HubPortalMiddleware.use, hprotected, Bool.not_true, Bool.false_eq_true,
    if_false] at hnext
  split at hnext
  · next henv =>
    split at hnext
    · cases hnext
    · next hdecision =>
      exact letThrough_of_decision henv hdecision
  · split at hnext
    · next hprobe =>
      exact .accessProbe hprobe
    · cases hallowed :
          HubPortalMiddleware.surfaceAllowed casl (stripQuery req.path) req.ability with
      | true => exact letThrough_of_surfaceAllowed hallowed
      | false =>
          rw [hallowed] at hnext
          simp only [Bool.false_eq_true, if_false, Bool.not_false, if_true] at hnext
          split at hnext <;> split at hnext <;> cases hnext

/-- A request dispatched to a Hub route is gated when the first segment is in lower case. -/
theorem hubGated_iff
    (casl : Casl Item)
    (env : ProcessEnv)
    (hubEnabled : Bool)
    {dispatches : List String → String → Prop}
    (hrouting : DefaultRouting dispatches)
    (req : Request)
    {segment : String} {rest : List String}
    (hsegment : segment ∈ hubSegments)
    (hdispatched : dispatches (segment :: rest) req.path) :
    HubGated casl env hubEnabled req ↔ firstSegment (stripQuery req.path) = segment := by
  have hslash := hrouting.slash hdispatched
  have hplain :
      Text.startsWith segment ":" = false ∧ Text.startsWith segment "*" = false ∧
        ∀ other ∈ hubSegments, ignoringCase other = ignoringCase segment → other = segment := by
    rcases List.mem_pair.mp hsegment with rfl | rfl <;> decide
  obtain ⟨hparam, hwildcard, hother⟩ := hplain
  have hhead := hrouting.head hparam hwildcard hdispatched
  constructor
  · intro hgated
    exact hother _ ((covered_iff hslash).mp hgated.covered) hhead
  · intro hspelled
    have hcovered := (covered_iff hslash).mpr (by rw [hspelled]; exact hsegment)
    refine ⟨hcovered, fun passed hnext => ?_⟩
    rcases hcovered with hprotected | hasset
    · exact letThrough_of_next hprotected hnext
    · exact .staticAsset hasset

end Gate

/-! ## A case-insensitive router -/

/-- A `:name` takes any segment that is not empty; a final slash is optional. -/
def matchesSegments : List String → List Char → Bool
  | [], rest => rest.isEmpty || rest == ['/']
  | pattern :: patterns, rest =>
      match rest with
      | '/' :: tail =>
          let segment := String.ofList (tail.takeWhile fun c => c ≠ '/')
          let matched :=
            if Text.startsWith pattern ":" then decide (segment ≠ "")
            else ignoringCase segment == ignoringCase pattern
          matched && matchesSegments patterns (tail.dropWhile fun c => c ≠ '/')
      | _ => false

def dispatchesInsensitive (route : List String) (path : String) : Prop :=
  Text.startsWith (stripQuery path) "/" = true ∧
    matchesSegments route (stripQuery path).toList = true

theorem defaultRouting_insensitive : DefaultRouting dispatchesInsensitive where
  slash h := h.1
  head := by
    rintro segment rest path hparam - ⟨hslash, hmatches⟩
    obtain ⟨tail, htail⟩ := List.isPrefixOf_iff_prefix.mp hslash
    have htail : (stripQuery path).toList = '/' :: tail := htail.symm
    rw [htail, matchesSegments, hparam] at hmatches
    simp only [Bool.false_eq_true, if_false, Bool.and_eq_true, beq_iff_eq] at hmatches
    rw [firstSegment, htail]
    exact hmatches.1

/-! ## Spellings of one route -/

def productionEnv : ProcessEnv where
  NODE_ENV := some "production"
  OPENAPI_REQUIRE_AUTH := none
  BETTER_AUTH_BASE_PATH := none
  SCALAR_PROD := none

/-- A signed-in user without any permission on a path. -/
def plainUserRequest (url : String) : Request where
  method := some "GET"
  originalUrl := some url
  url := some url
  accept := some (.single "application/json")
  authorization := none
  user :=
    some { id := "user-1", tenantId := none, activeOrganizationId := some "org-1", scopes := none }
  ability := some []

/-- The log viewer under its registered first segment is gated. -/
theorem hubGated_logs :
    "hub" ∈ hubSegments ∧
      dispatchesInsensitive ["hub", "logs.json"] (plainUserRequest "/hub/Logs.json/?n=1").path ∧
        HubGated textCasl productionEnv true (plainUserRequest "/hub/Logs.json/?n=1") := by
  have hdispatched :
      dispatchesInsensitive ["hub", "logs.json"]
        (plainUserRequest "/hub/Logs.json/?n=1").path :=
    ⟨by decide, by decide⟩
  refine ⟨by decide, hdispatched, ?_⟩
  exact
    (hubGated_iff textCasl productionEnv true defaultRouting_insensitive
      (plainUserRequest "/hub/Logs.json/?n=1") (by decide) hdispatched).mpr (by decide)

/-- In capitals it is dispatched past the gate to a user without rights. -/
theorem not_hubGated_capitals :
    let req := plainUserRequest "/HUB/logs.json"
    DefaultRouting dispatchesInsensitive ∧
      dispatchesInsensitive ["hub", "logs.json"] req.path ∧
        canAccessHub textCasl req.ability = false ∧
          canAccessTenantAdmin textCasl req.ability = false ∧
            HubPortalMiddleware.use textCasl productionEnv true req = .next req ∧
              ¬ HubGated textCasl productionEnv true req := by
  refine
    ⟨defaultRouting_insensitive, ⟨by decide, by decide⟩, by decide, by decide, rfl, ?_⟩
  intro hgated
  exact absurd hgated.covered (by decide)

end Http
end NestBase
