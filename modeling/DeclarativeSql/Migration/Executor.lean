import DeclarativeSql.Migration.Dialect

/-!
# Running a plan

Statements are run in one transaction, so `run` takes all of them. A dry run only says what would
have been run.
-/
namespace DeclarativeSql

structure Executor where
  dialect : Dialect
  dryRun : Bool

/-- What became of an environment statement. -/
inductive EnvironmentOutcome
  | created
  | alreadyExists
  | skipped
  deriving DecidableEq

namespace EnvironmentOutcome

def name : EnvironmentOutcome → String
  | created => "Created"
  | alreadyExists => "AlreadyExists"
  | skipped => "Skipped"

end EnvironmentOutcome

namespace Executor

def render (e : Executor) (statements : List Statement) : List String :=
  e.dialect.sqlAll statements

/-- The text that was run, or would have been. An empty plan needs no transaction. -/
def apply (e : Executor) (run : List String → Except DriverError Unit)
    (statements : List Statement) : Except DriverError (List String) :=
  let sql := e.render statements
  if e.dryRun || sql.isEmpty then .ok sql
  else
    match run sql with
    | .error failure => .error failure
    | .ok () => .ok sql

/-- A role or database that is there already is no failure. -/
def runEnvironment (e : Executor) (run : String → Except DriverError Unit)
    (statement : EnvironmentStatement) : Except DriverError EnvironmentOutcome :=
  if e.dryRun then .ok .skipped
  else
    match run (e.dialect.environmentSql statement) with
    | .ok () => .ok .created
    | .error failure =>
      match failure.kind with
      | .duplicateObject | .duplicateDatabase => .ok .alreadyExists
      | _ => .error failure

end Executor

end DeclarativeSql
