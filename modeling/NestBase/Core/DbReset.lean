import NestBase.Lib.IpAddress
import NestBase.Lib.PercentEncoding

/-!
# The gate of the database reset

`planDbReset` lets a reset through when the host name of DATABASE_URL looks local.  The
client that drops the schema takes the host from the same URL in its own way: it removes
the brackets of an IPv6 address, and a `host` parameter of the query replaces the name.

The gate keeps the brackets and does not read the query, so the two see one host for a
URL without the parameter unless it names `[::1]`; with the parameter the gate is right
only when that host is as local as the name it replaces (`allowed_iff_connectsLocally_iff`).
-/

namespace NestBase
namespace DbReset

open Lib
open Lib.IpAddress Lib.PercentEncoding

/-! ## URLs -/

/-- The host of a parsed URL. -/
inductive Host where
  /-- A domain, an IPv4 address or an opaque host, in which escapes stay. -/
  | text (name : String)
  | ipv6 (address : IPv6)

/-- What the code and the client read of a parsed URL. -/
structure URL where
  host : Host
  searchParams : List (String × String)

/-- An IPv6 address stands in brackets. -/
def URL.hostname (url : URL) : String :=
  match url.host with
  | .text name => name
  | .ipv6 address => "[" ++ address.serialise ++ "]"

/-! ## The plan -/

structure DbResetEnv where
  DATABASE_URL : Option String

structure DbResetInput where
  env : DbResetEnv
  nodeEnv : String
  hasFeatureSchemas : Option Bool
  seedScript : Bool

inductive DbResetVerb where
  | prepareSchema
  | wipe
  | migrate
  | verify
  | seed
deriving DecidableEq

structure DbResetStep where
  verb : DbResetVerb
  command : String
  args : List String
  env : List (String × String)
  description : String
deriving DecidableEq

structure DbResetPlan where
  allowed : Bool
  steps : List DbResetStep
  refusalReason : Option String
deriving DecidableEq

def LOCAL_HOST_ALLOWLIST : List String :=
  ["localhost", "127.0.0.1", "::1"]

/-- `/^[a-z0-9][a-z0-9_-]*$/i` -/
def isSimpleName : List Char → Bool
  | first :: rest => first.isAlphanum && rest.all fun c => c.isAlphanum || c == '_' || c == '-'
  | [] => false

def isLocalHost (host : String) : Bool :=
  if host ∈ LOCAL_HOST_ALLOWLIST then true
  else if '.' ∈ host.toList then false
  else if '/' ∈ host.toList then false
  else isSimpleName host.toList

/-- `parse` is `new URL`, `none` where it throws. -/
def extractHost (parse : String → Option URL) (url : String) : Option String := do
  let parsed ← parse url
  decodeURIComponent parsed.hostname

def refuse (reason : String) : DbResetPlan where
  allowed := false
  steps := []
  refusalReason := some reason

def planSteps (input : DbResetInput) (url : String) : List DbResetStep :=
  let env := [("DATABASE_URL", url)]
  (if input.hasFeatureSchemas = some true then
    [{ verb := .prepareSchema, command := "bun", args := ["run", "scripts/prepare-schema.ts"], env,
       description := "Concatenate base schema + active feature schemas" }]
  else []) ++
  [ { verb := .wipe, command := "bun", args := ["run", "scripts/wipe-db.ts"], env,
      description := "DROP SCHEMA public CASCADE; CREATE SCHEMA public (via pg, no Prisma)" },
    { verb := .migrate, command := "bunx", args := ["prisma", "migrate", "deploy"], env,
      description := "Apply every migration to bring the schema back up" },
    { verb := .verify, command := "bun", args := ["run", "scripts/verify-schema.ts"], env,
      description := "Probe the public schema; abort if migrate deploy left it empty" } ] ++
  (if input.seedScript then
    [{ verb := .seed, command := "bun", args := ["run", "scripts/seed.ts"], env,
       description := "Insert demo data from the seed planner" }]
  else [])

def planDbReset (parse : String → Option URL) (input : DbResetInput) : DbResetPlan :=
  if input.nodeEnv = "production" then
    refuse "refusing: NODE_ENV=production. `bun run reset` is dev-only."
  else
    let url := input.env.DATABASE_URL.getD ""
    if url = "" then refuse "refusing: DATABASE_URL is not set."
    else
      match extractHost parse url with
      | some host =>
          if host ≠ "" ∧ isLocalHost host then
            { allowed := true, steps := planSteps input url, refusalReason := none }
          else refuse ("refusing: DATABASE_URL points at non-local host \"" ++ host ++ "\".")
      | none =>
          refuse "refusing: DATABASE_URL points at non-local host \"<unparseable>\"."

/-! ## The host of the client -/

/-- The last `host` parameter, which is the one that stays. -/
def URL.hostParameter (url : URL) : Option String :=
  (url.searchParams.reverse.find? fun parameter => parameter.1 == "host").map Prod.snd

/-- The host name of the URL itself, without escapes and brackets. -/
def URL.ownHost (url : URL) : Option String :=
  match url.host with
  | .text name => decodeURIComponent name
  | .ipv6 address => some address.serialise

/-- The host that the client connects to. -/
def URL.clientHost (url : URL) : Option String :=
  match url.hostParameter with
  | some host => some host
  | none => url.ownHost

/-- A host name: letters, digits, `-`, `_` and `.`, a letter or digit first. -/
def HostName (host : List Char) : Prop :=
  (∃ first ∈ host.head?, first.isAlphanum = true) ∧
    ∀ c ∈ host, c.isAlphanum = true ∨ c = '-' ∨ c = '_' ∨ c = '.'

def LocalHost (host : String) : Prop :=
  host = "localhost" ∨ host = "127.0.0.1" ∨ host = "::1" ∨
    HostName host.toList ∧ '.' ∉ host.toList

/-- The URL names a local host in a way that the gate reads. -/
def URL.NamesLocal (url : URL) : Prop :=
  match url.host with
  | .text name => ∃ host, decodeURIComponent name = some host ∧ LocalHost host
  | .ipv6 _ => False

/-- The gate and the client see hosts of one kind. -/
def URL.Agrees (url : URL) : Prop :=
  match url.hostParameter with
  | some host => LocalHost host ↔ url.NamesLocal
  | none => ∀ address, url.host = .ipv6 address → address.serialise ≠ "::1"

theorem isSimpleName_iff {host : List Char} :
    isSimpleName host = true ↔ HostName host ∧ '.' ∉ host := by
  unfold HostName
  cases host with
  | nil => simp [isSimpleName]
  | cons first rest =>
      simp only [isSimpleName, Bool.and_eq_true, List.all_eq_true, Bool.or_eq_true, beq_iff_eq,
        List.head?_cons, Option.mem_some_iff, exists_eq_left', List.forall_mem_cons]
      constructor
      · rintro ⟨hfirst, hrest⟩
        refine ⟨⟨hfirst, .inl hfirst, fun c hc => ?_⟩, ?_⟩
        · rcases hrest c hc with (halnum | hdash) | hunderscore
          · exact .inl halnum
          · exact .inr (.inr (.inl hdash))
          · exact .inr (.inl hunderscore)
        · intro hdot
          rcases List.mem_cons.mp hdot with rfl | hmem
          · exact absurd hfirst (by decide)
          · exact absurd (hrest _ hmem) (by decide)
      · rintro ⟨⟨hfirst, -, hrest⟩, hdot⟩
        refine ⟨hfirst, fun c hc => ?_⟩
        rcases hrest c hc with halnum | hdash | hunderscore | rfl
        · exact .inl (.inl halnum)
        · exact .inr hdash
        · exact .inl (.inr hunderscore)
        · exact absurd (List.mem_cons_of_mem _ hc) hdot

/-- The gate takes the hosts that are local. -/
theorem isLocalHost_iff {host : String} :
    (host ≠ "" ∧ isLocalHost host = true) ↔ LocalHost host := by
  have hallowed :
      host ∈ LOCAL_HOST_ALLOWLIST ↔ host = "localhost" ∨ host = "127.0.0.1" ∨ host = "::1" := by
    simp only [LOCAL_HOST_ALLOWLIST, List.mem_cons, List.not_mem_nil, or_false]
  unfold isLocalHost LocalHost
  rw [← isSimpleName_iff, ← or_assoc, ← or_assoc, or_assoc (a := host = "localhost"), ← hallowed]
  constructor
  · rintro ⟨-, hlocal⟩
    split at hlocal
    · next hmem => exact .inl hmem
    · split at hlocal
      · cases hlocal
      · split at hlocal
        · cases hlocal
        · exact .inr hlocal
  · rintro (hmem | hname)
    · refine ⟨?_, if_pos hmem⟩
      rintro rfl
      exact absurd hmem (by decide)
    · obtain ⟨⟨⟨first, hfirst, -⟩, hchars⟩, hdot⟩ := isSimpleName_iff.mp hname
      have hslash : '/' ∉ host.toList := fun hmem => absurd (hchars _ hmem) (by decide)
      refine ⟨?_, ?_⟩
      · rintro rfl
        cases hfirst
      · rw [if_neg hdot, if_neg hslash, hname, ite_self]

/-! ## IPv6 addresses -/

/-- The text of an IPv6 address has a colon. -/
theorem colon_mem_serialise (address : IPv6) : ':' ∈ address.serialise.toList := by
  have hpieces : ∃ piece rest, address.pieces = piece :: rest := ⟨_, _, rfl⟩
  obtain ⟨piece, rest, hpieces⟩ := hpieces
  unfold IPv6.serialise
  rw [String.toList_ofList, hpieces, printPieces, Bool.false_and, if_neg Bool.false_ne_true]
  split
  · exact List.mem_append_left _ (by decide)
  · exact List.mem_append_left _ (List.mem_append_right _ (by decide))

theorem localHost_serialise_iff {address : IPv6} :
    LocalHost address.serialise ↔ address.serialise = "::1" := by
  have hcolon := colon_mem_serialise address
  unfold LocalHost
  constructor
  · rintro (hname | haddress | hloopback | ⟨⟨-, hchars⟩, -⟩)
    · rw [hname] at hcolon
      exact absurd hcolon (by decide)
    · rw [haddress] at hcolon
      exact absurd hcolon (by decide)
    · exact hloopback
    · exact absurd (hchars _ hcolon) (by decide)
  · exact fun hloopback => .inr (.inr (.inl hloopback))

/-- A host in brackets decodes to itself, which is not local. -/
theorem bracketed_not_local (address : IPv6) :
    decodeURIComponent ("[" ++ address.serialise ++ "]") =
        some ("[" ++ address.serialise ++ "]") ∧
      ¬ LocalHost ("[" ++ address.serialise ++ "]") := by
  have hchars :
      ("[" ++ address.serialise ++ "]").toList = '[' :: (address.serialise.toList ++ [']']) := by
    rw [String.toList_append, String.toList_append]
    rfl
  constructor
  · refine decodeURIComponent_of_not_mem ?_
    rw [hchars]
    simp only [List.mem_cons, List.mem_append, List.not_mem_nil, or_false, not_or]
    refine ⟨by decide, ?_, by decide⟩
    unfold IPv6.serialise
    rw [String.toList_ofList]
    intro hpercent
    rcases mem_printPieces hpercent with hhex | hcolon
    · exact absurd hhex (by decide)
    · exact absurd hcolon (by decide)
  · rintro (hname | haddress | hloopback | ⟨⟨-, hall⟩, -⟩)
    · rw [hname] at hchars
      exact absurd (List.cons.inj hchars).1 (by decide)
    · rw [haddress] at hchars
      exact absurd (List.cons.inj hchars).1 (by decide)
    · rw [hloopback] at hchars
      exact absurd (List.cons.inj hchars).1 (by decide)
    · rw [hchars] at hall
      exact absurd (hall _ List.mem_cons_self) (by decide)

/-! ## The gate -/

section Gate

variable {parse : String → Option URL} {input : DbResetInput} {url : String}

theorem decode_hostname_local_iff {parsed : URL} :
    (∃ host, decodeURIComponent parsed.hostname = some host ∧ LocalHost host) ↔
      parsed.NamesLocal := by
  unfold URL.hostname URL.NamesLocal
  cases parsed.host with
  | text name => rfl
  | ipv6 address =>
      obtain ⟨hdecode, hremote⟩ := bracketed_not_local address
      refine iff_of_false ?_ id
      rintro ⟨host, hhost, hlocal⟩
      dsimp only at hhost
      rw [hdecode, Option.some.injEq] at hhost
      exact hremote (hhost ▸ hlocal)

/-- A reset that is let through names a local host. -/
theorem allowed_iff
    (hempty : parse "" = none)
    (hnode : input.nodeEnv ≠ "production")
    (hurl : input.env.DATABASE_URL = some url) :
    (planDbReset parse input).allowed = true ↔
      ∃ parsed, parse url = some parsed ∧ parsed.NamesLocal := by
  unfold planDbReset
  rw [if_neg hnode, hurl, Option.getD_some]
  dsimp only
  split
  · next hnone =>
      rw [hnone, hempty]
      exact iff_of_false nofun (by rintro ⟨parsed, hparsed, -⟩; cases hparsed)
  · unfold extractHost
    cases parse url with
    | none => exact iff_of_false nofun (by rintro ⟨parsed, hparsed, -⟩; cases hparsed)
    | some parsed =>
        have hnames :
            (∃ host, decodeURIComponent parsed.hostname = some host ∧ LocalHost host) ↔
              parsed.NamesLocal :=
          decode_hostname_local_iff
        simp only [Option.some.injEq, exists_eq_left', ← hnames, Option.bind_eq_bind,
          Option.bind_some]
        cases decodeURIComponent parsed.hostname with
        | none => exact iff_of_false nofun (by rintro ⟨host, hhost, -⟩; cases hhost)
        | some host =>
            simp only [Option.some.injEq, exists_eq_left', ← isLocalHost_iff]
            split
            · next hlocal => exact iff_of_true rfl hlocal
            · next hremote => exact iff_of_false nofun hremote

/-- The client connects to a local host. -/
def ConnectsLocally (parse : String → Option URL) (url : String) : Prop :=
  ∃ parsed host, parse url = some parsed ∧ parsed.clientHost = some host ∧ LocalHost host

/-- Where the URL is parsed, the gate and the client agree on it. -/
def Agrees (parse : String → Option URL) (url : String) : Prop :=
  ∀ parsed, parse url = some parsed → parsed.Agrees

/-- The own host of a URL is local when the gate reads it as local, or is `[::1]`. -/
theorem ownHost_local_iff {parsed : URL} :
    (∃ host, parsed.ownHost = some host ∧ LocalHost host) ↔
      parsed.NamesLocal ∨ ∃ address, parsed.host = .ipv6 address ∧ address.serialise = "::1" := by
  unfold URL.ownHost URL.NamesLocal
  cases parsed.host with
  | text name =>
      exact (or_iff_left (by rintro ⟨address, haddress, -⟩; cases haddress)).symm
  | ipv6 address =>
      simp only [Option.some.injEq, exists_eq_left', localHost_serialise_iff, false_or,
        Host.ipv6.injEq]

theorem namesLocal_iff_client {parsed : URL} :
    (parsed.NamesLocal ↔ ∃ host, parsed.clientHost = some host ∧ LocalHost host) ↔
      parsed.Agrees := by
  unfold URL.clientHost URL.Agrees
  cases parsed.hostParameter with
  | some host =>
      simp only [Option.some.injEq, exists_eq_left']
      exact iff_comm
  | none =>
      dsimp only
      rw [ownHost_local_iff]
      constructor
      · intro h address haddress hloopback
        have hnames := h.mpr (.inr ⟨address, haddress, hloopback⟩)
        unfold URL.NamesLocal at hnames
        rw [haddress] at hnames
        exact hnames
      · intro h
        refine (or_iff_left ?_).symm
        rintro ⟨address, haddress, hloopback⟩
        exact h address haddress hloopback

/-- The gate lets the URLs of local hosts through, and no others, exactly when it agrees
with the client on the URL. -/
theorem allowed_iff_connectsLocally_iff
    (hempty : parse "" = none)
    (hnode : input.nodeEnv ≠ "production")
    (hurl : input.env.DATABASE_URL = some url) :
    ((planDbReset parse input).allowed = true ↔ ConnectsLocally parse url) ↔
      Agrees parse url := by
  rw [allowed_iff hempty hnode hurl]
  unfold ConnectsLocally Agrees
  cases parse url with
  | none =>
      refine iff_of_true (iff_of_false ?_ ?_) nofun
      · rintro ⟨parsed, hparsed, -⟩
        cases hparsed
      · rintro ⟨parsed, host, hparsed, -⟩
        cases hparsed
  | some parsed =>
      simp only [Option.some.injEq, exists_and_left, exists_eq_left', forall_eq']
      exact namesLocal_iff_client

end Gate

/-! ## A remote host in the query -/

def remoteText : String :=
  "postgres://app@localhost/app?host=db.example.com"

def remoteUrl : URL where
  host := .text "localhost"
  searchParams := [("host", "db.example.com")]

/-- `new URL` of that text. -/
def parseRemote (url : String) : Option URL :=
  if url = remoteText then some remoteUrl else none

def remoteInput : DbResetInput where
  env := { DATABASE_URL := some remoteText }
  nodeEnv := "development"
  hasFeatureSchemas := none
  seedScript := false

theorem allowed_iff_connectsLocally_iff_remote :
    ((planDbReset parseRemote remoteInput).allowed = true ↔
        ConnectsLocally parseRemote remoteText) ↔
      Agrees parseRemote remoteText :=
  allowed_iff_connectsLocally_iff (by decide) (by decide) rfl

theorem not_localHost_remote : ¬ LocalHost "db.example.com" := by
  rintro (hname | haddress | hloopback | ⟨-, hdot⟩)
  · exact absurd hname (by decide)
  · exact absurd haddress (by decide)
  · exact absurd hloopback (by decide)
  · exact hdot (by decide)

/-- The schema of a remote database is dropped. -/
theorem not_allowed_iff_connectsLocally :
    ¬ ∀ (parse : String → Option URL) (input : DbResetInput) (url : String),
      parse "" = none → input.nodeEnv ≠ "production" → input.env.DATABASE_URL = some url →
      ((planDbReset parse input).allowed = true ↔ ConnectsLocally parse url) := by
  intro h
  have hallowed : (planDbReset parseRemote remoteInput).allowed = true := by decide
  obtain ⟨parsed, host, hparsed, hhost, hlocal⟩ :=
    (h parseRemote remoteInput remoteText (by decide) (by decide) rfl).mp hallowed
  unfold parseRemote at hparsed
  rw [if_pos rfl, Option.some.injEq] at hparsed
  subst hparsed
  have hremote : remoteUrl.clientHost = some "db.example.com" := by decide
  rw [hremote, Option.some.injEq] at hhost
  exact not_localHost_remote (hhost ▸ hlocal)

end DbReset
end NestBase
