import NestBase.Core.MigrationsLock
import NestBase.Lib.Text

/-!
# Retrying a failed migration

`retryFailed` checks that the name is one of a folder on disk and has
`runResolveRolledBack` mark the migration as rolled back.  That function checks the
name once more, first as one that a user has typed.  No text is a name of both kinds
(`not_isValidMigrationName_of_isValidDiskMigrationName`), so the command never runs
and every name of a folder is refused.
-/

namespace NestBase
namespace Migrations

open Lib

/-! ## Names -/

/-- `USER_NAME_RE` -/
def isUserName : List Char → Bool
  | first :: rest =>
      first.isLower && decide (2 ≤ rest.length ∧ rest.length ≤ 49) &&
        rest.all fun c => c.isLower || c.isDigit || c == '-'
  | [] => false

/-- The part of `DISK_NAME_RE` behind the timestamp; letters of both cases match. -/
def isDiskSuffix : List Char → Bool
  | '_' :: first :: rest =>
      first.isAlpha && decide (1 ≤ rest.length ∧ rest.length ≤ 80) &&
        rest.all fun c => c.isAlphanum || c == '_' || c == '-'
  | _ => false

/-- `DISK_NAME_RE` -/
def isDiskName (name : List Char) : Bool :=
  decide ((name.take 14).length = 14) && (name.take 14).all Char.isDigit &&
    isDiskSuffix (name.drop 14)

/-- The checks that both kinds of names share. -/
def isPathSafe (name : String) : Bool :=
  !Text.includes name ".." && !Text.includes name "/" && !Text.includes name "\\"

def isValidMigrationName (name : String) : Bool :=
  isUserName name.toList && isPathSafe name

def isValidDiskMigrationName (name : String) : Bool :=
  isDiskName name.toList && isPathSafe name

/-! ## Commands -/

structure PrismaCommand where
  args : List String
  timeoutMs : Nat
deriving DecidableEq

structure PrismaCommandResult where
  success : Bool
  stdout : String
  stderr : String
  code : Int
deriving DecidableEq

structure MigrationsApplyResponse where
  name : String
  applied : List String
  stdout : String
  stderr : String
  success : Bool
deriving DecidableEq

/-- The child processes and the database, by the commands that have run before. -/
structure Outside where
  command : List PrismaCommand → PrismaCommand → PrismaCommandResult
  appliedNames : List PrismaCommand → List String

/-- A part of a request, with the commands that it runs. -/
abbrev Run (α : Type) := ExceptT String (StateM (List PrismaCommand)) α

/-- What a request returns, and the commands that it has run. -/
def Run.outcome {α : Type} (run : Run α) : Except String α × List PrismaCommand :=
  StateT.run (ExceptT.run run) []

section Commands

variable (outside : Outside)

def runPrismaCommand (args : List String) (timeoutMs : Nat) : Run PrismaCommandResult := do
  let ran ← get
  let command : PrismaCommand :=
    { args := ["bunx", "--bun", "prisma"] ++ args, timeoutMs := timeoutMs }
  set (ran ++ [command])
  pure (outside.command ran command)

def appliedNames : Run (List String) := do
  let ran ← get
  pure (outside.appliedNames ran)

def runMigrateDeploy : Run PrismaCommandResult :=
  runPrismaCommand outside ["migrate", "deploy"] 120000

/-- The text of the error of `validateMigrationName`. -/
def invalidMigrationName (name : String) : String :=
  "Invalid migration name: \"" ++ name ++ "\". Use kebab-case " ++
    "(3-50 chars, lowercase letters / digits / dashes, must start with a letter)."

def validateMigrationName (name : String) : Run Unit :=
  if isValidMigrationName name then pure () else throw (invalidMigrationName name)

def runResolveRolledBack (name : String) : Run PrismaCommandResult := do
  validateMigrationName name
  if isValidDiskMigrationName name then
    runPrismaCommand outside ["migrate", "resolve", "--rolled-back", name] 30000
  else
    throw ("runResolveRolledBack expects a disk migration name, got \"" ++ name ++ "\"")

/-- `withAdvisoryLock`, with the answer of its lock query. -/
def underLock {α : Type} (lock : Except String Bool) (fn : Run α) :
    Run (AdvisoryLockResult α) :=
  match lock with
  | .error message => throw message
  | .ok false => pure { acquired := false, result := none }
  | .ok true => do
      let result ← fn
      pure { acquired := true, result := some result }

/-- `MigrationsService.retryFailed` -/
def retryFailed (lock : Except String Bool) (name : String) :
    Run (AdvisoryLockResult MigrationsApplyResponse) :=
  if isValidDiskMigrationName name then
    underLock lock do
      let resolveResult ← runResolveRolledBack outside name
      if resolveResult.success then
        let beforeNames ← appliedNames outside
        let cmd ← runMigrateDeploy outside
        let afterNames ← appliedNames outside
        pure
          { name := name
            applied := afterNames.filter fun n => !beforeNames.contains n
            stdout := resolveResult.stdout ++ "\n" ++ cmd.stdout
            stderr := resolveResult.stderr ++ "\n" ++ cmd.stderr
            success := cmd.success }
      else
        pure
          { name := name
            applied := []
            stdout := resolveResult.stdout
            stderr := resolveResult.stderr
            success := false }
  else throw ("Invalid migration name: " ++ name)

end Commands

/-! ## The two kinds of names -/

/-- A name of one kind begins with a letter, one of the other kind with a digit. -/
theorem not_isValidMigrationName_of_isValidDiskMigrationName
    {name : String}
    (hdisk : isValidDiskMigrationName name = true) :
    isValidMigrationName name = false := by
  unfold isValidDiskMigrationName isDiskName at hdisk
  unfold isValidMigrationName
  cases hname : name.toList with
  | nil => rfl
  | cons first rest =>
      rw [hname] at hdisk
      have hdigit : first.isDigit = true := by
        simp only [List.take_succ_cons, List.all_cons, Bool.and_eq_true] at hdisk
        exact hdisk.1.1.2.1
      have hletter : first.isLower = false := by
        simp only [Char.isDigit, Bool.and_eq_true, decide_eq_true_eq] at hdigit
        have hlow : decide ('a'.val ≤ first.val) = false :=
          decide_eq_false fun hle => absurd (UInt32.le_trans hle hdigit.2) (by decide)
        exact Bool.and_eq_false_iff.mpr (.inl hlow)
      simp [isUserName, hletter]

/-! ## Requests -/

section Requests

variable {outside : Outside} {name : String}

/-- The name of a folder on disk is refused before any command. -/
theorem runResolveRolledBack_of_isValidDiskMigrationName
    (hdisk : isValidDiskMigrationName name = true) :
    (runResolveRolledBack outside name).outcome = (.error (invalidMigrationName name), []) := by
  have huser : ¬ isValidMigrationName name = true := by
    rw [not_isValidMigrationName_of_isValidDiskMigrationName hdisk]
    exact Bool.false_ne_true
  unfold runResolveRolledBack validateMigrationName
  rw [if_neg huser]
  rfl

theorem retryFailed_of_not_isValidDiskMigrationName
    (hdisk : isValidDiskMigrationName name = false)
    (lock : Except String Bool) :
    (retryFailed outside lock name).outcome = (.error ("Invalid migration name: " ++ name), []) := by
  unfold retryFailed
  rw [if_neg (by rw [hdisk]; exact Bool.false_ne_true)]
  rfl

end Requests

/-- `prisma migrate resolve --rolled-back` for a name. -/
def resolveCommand (name : String) : PrismaCommand where
  args := ["bunx", "--bun", "prisma", "migrate", "resolve", "--rolled-back", name]
  timeoutMs := 30000

/--
Under the lock a migration on disk is marked as rolled back, without an error of
`runResolveRolledBack`; any other name runs no command.
-/
structure Retries (outside : Outside) (name : String) : Prop where
  resolved :
    isValidDiskMigrationName name = true →
      (∃ result, (runResolveRolledBack outside name).outcome.1 = .ok result) ∧
        resolveCommand name ∈ (retryFailed outside (.ok true) name).outcome.2
  refused :
    isValidDiskMigrationName name = false →
      ∀ lock, (retryFailed outside lock name).outcome.2 = []

/-- Only names that are not of a folder on disk are treated as they should. -/
theorem retries_iff (outside : Outside) (name : String) :
    Retries outside name ↔ isValidDiskMigrationName name = false := by
  constructor
  · intro h
    cases hdisk : isValidDiskMigrationName name with
    | false => rfl
    | true =>
        obtain ⟨⟨result, hresult⟩, -⟩ := h.resolved hdisk
        rw [runResolveRolledBack_of_isValidDiskMigrationName hdisk] at hresult
        cases hresult
  · intro hdisk
    refine ⟨fun htrue => ?_, fun _ lock => ?_⟩
    · rw [hdisk] at htrue
      cases htrue
    · rw [retryFailed_of_not_isValidDiskMigrationName hdisk]

/-- No migration on disk is retried. -/
theorem not_retries_init : ¬ ∀ outside name, Retries outside name := by
  intro hall
  have hdisk : isValidDiskMigrationName "20260101000000_init" = true := by decide
  have hfalse :=
    (retries_iff
      { command := fun _ _ => { success := true, stdout := "", stderr := "", code := 0 }
        appliedNames := fun _ => [] } "20260101000000_init").mp (hall _ _)
  rw [hdisk] at hfalse
  cases hfalse

end Migrations
end NestBase
