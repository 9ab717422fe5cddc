import NestBase.Core.MigrationRetry
import NestBase.Core.SqlStatements
import NestBase.Lib.SqlSession

/-!
# The dry run of a migration

`runDryRunMigration` begins a transaction, runs the statements of the migration in it one
by one and throws at the end, so that the transaction is rolled back.  The statements run
in the same session: a `COMMIT` among them ends the transaction, and what comes behind it
commits itself.

So nothing persists for a text exactly when none of its commands commits the work of
another one (`runDryRunMigration_keeps_iff`).
-/

namespace NestBase
namespace Migrations

open Lib
open Lib.SqlSession

structure DryRunResult where
  success : Bool
  error : Option String
deriving DecidableEq

/-- What the session is sent: `BEGIN` and the statements.  `parse` gives the commands of a
statement as the server reads them. -/
def dryRunActions (parse : String → List Action) (sql : String) : List Action :=
  [.begin, .endOfQuery] ++
    ((splitSqlStatements sql).filter fun stmt => Text.trim stmt ≠ "").flatMap fun stmt =>
      parse stmt ++ [.endOfQuery]

/-- `lost` says after how many actions the client gives up or loses the connection, and
with which error; without it the actions end with the error that is thrown on purpose. -/
def dryRunSession {Db : Type} (server : Server Db) (lost : Option (Nat × String))
    (actions : List Action) (db : Db) : DryRunResult × Db :=
  let sent := lost.elim actions fun failure => actions.take failure.1
  let (s, refused) := execute server { committed := db, block := none } sent
  -- The block that is still open is rolled back, and the committed state is left.
  match refused, lost with
  | some error, _ => ({ success := false, error := some error }, s.committed)
  | none, some failure => ({ success := false, error := some failure.2 }, s.committed)
  | none, none => ({ success := true, error := none }, s.committed)

section DryRun

variable {Db : Type} (server : Server Db) (parse : String → List Action)
variable (readMigrationSql : String → Except String String)

def runDryRunMigration (lost : Option (Nat × String)) (name : String) (db : Db) :
    Except String DryRunResult × Db :=
  if isValidDiskMigrationName name then
    match readMigrationSql name with
    | .error error => (.error error, db)
    | .ok sql =>
        let (result, db) := dryRunSession server lost (dryRunActions parse sql) db
        (.ok result, db)
  else (.error ("runDryRunMigration expects a disk migration name, got \"" ++ name ++ "\""), db)

/-- `MigrationsService.dryRun` -/
def dryRun (lock : Except String Bool) (lost : Option (Nat × String)) (name : String) (db : Db) :
    Except String (AdvisoryLockResult (DryRunResult × String)) × Db :=
  if isValidDiskMigrationName name then
    match lock with
    | .error message => (.error message, db)
    | .ok false => (.ok { acquired := false, result := none }, db)
    | .ok true =>
        let (outcome, db) := runDryRunMigration server parse readMigrationSql lost name db
        (outcome.map fun result => { acquired := true, result := some (result, name) }, db)
  else (.error ("Invalid migration name: " ++ name), db)

end DryRun

/-- The committed state is the one before, on every database and for every meaning of the
other commands, wherever the run ends. -/
def Keeps (parse : String → List Action) (readMigrationSql : String → Except String String)
    (name : String) : Prop :=
  ∀ (Db : Type) (server : Server Db) (lost : Option (Nat × String)) (db : Db),
    (runDryRunMigration server parse readMigrationSql lost name db).2 = db

/-- No command of the text commits the work of another one. -/
def CommitsNothing (parse : String → List Action)
    (readMigrationSql : String → Except String String) (name : String) : Prop :=
  isValidDiskMigrationName name = true → ∀ sql, readMigrationSql name = .ok sql →
    persists none (dryRunActions parse sql) = false

theorem dryRunSession_snd {Db : Type} (server : Server Db) (lost : Option (Nat × String))
    (actions : List Action) (db : Db) :
    (dryRunSession server lost actions db).2 =
      (execute server { committed := db, block := none }
        (lost.elim actions fun failure => actions.take failure.1)).1.committed := by
  unfold dryRunSession
  dsimp only
  split <;> rfl

theorem dryRunSession_keeps {Db : Type} (server : Server Db) (lost : Option (Nat × String))
    {actions : List Action} (h : persists none actions = false) (db : Db) :
    (dryRunSession server lost actions db).2 = db := by
  have hstart : Follows db none ({ committed := db, block := none } : Session Db) :=
    ⟨rfl, .none⟩
  rw [dryRunSession_snd]
  cases lost with
  | none =>
      have hall : (execute server { committed := db, block := none }
          (actions.take actions.length)).1.committed = db :=
        committed_of_not_persists hstart h actions.length
      rw [List.take_length] at hall
      exact hall
  | some failure => exact committed_of_not_persists hstart h failure.1

/-- The dry run keeps the database exactly when the text commits nothing itself. -/
theorem runDryRunMigration_keeps_iff (parse : String → List Action)
    (readMigrationSql : String → Except String String) (name : String) :
    Keeps parse readMigrationSql name ↔ CommitsNothing parse readMigrationSql name := by
  unfold Keeps CommitsNothing
  constructor
  · intro h hname sql hsql
    rw [Bool.eq_false_iff]
    intro hpersists
    obtain ⟨count, hcount⟩ := exists_committed_of_persists hpersists
    have hbit := h Bool bitServer (some (count, "connection lost")) false
    unfold runDryRunMigration at hbit
    rw [if_pos hname, hsql] at hbit
    dsimp only at hbit
    rw [dryRunSession_snd, Option.elim_some, hcount] at hbit
    cases hbit
  · intro h Db server lost db
    unfold runDryRunMigration
    split
    · next hname =>
        split
        · rfl
        · next sql hsql => exact dryRunSession_keeps server lost (h hname sql hsql) db
    · rfl

/-! ## A commit among the statements -/

/-- The database of the tables that were created. -/
def tableServer : Server (List String) where
  run := fun text tables => .ok (tables ++ [text])
  deferred := fun _ => none
  refusal := fun _ => "there is no transaction in progress"

/-- Of the transaction commands the text has a `COMMIT` only. -/
def parseCommit (stmt : String) : List Action :=
  if stmt = "commit" then [.commit false] else [.other stmt]

def committingSql (_ : String) : Except String String :=
  .ok "create table t();commit;"

/-- The table stays, although the dry run reports success. -/
theorem not_runDryRunMigration_keeps :
    ¬ ∀ (parse : String → List Action) (readMigrationSql : String → Except String String)
        (name : String) (Db : Type) (server : Server Db) (lost : Option (Nat × String)) (db : Db),
      (runDryRunMigration server parse readMigrationSql lost name db).2 = db := by
  intro h
  have hname : isValidDiskMigrationName "20260101000000_init" = true := by decide
  have hactions : dryRunActions parseCommit "create table t();commit;" =
      [.begin, .endOfQuery, .other "create table t()", .endOfQuery, .commit false,
        .endOfQuery] := by
    decide
  have hkept := h parseCommit committingSql "20260101000000_init" (List String) tableServer none []
  unfold runDryRunMigration committingSql at hkept
  rw [if_pos hname] at hkept
  dsimp only at hkept
  rw [hactions] at hkept
  exact absurd hkept (by decide)

end Migrations
end NestBase
