import DeclarativeSql.CommandLine.Request
import DeclarativeSql.Migration.SchemaFile
import DeclarativeSql.Migration.Statement
import DeclarativeSql.Postgres.Dialect

/-!
# Runs

What the program prints and how it exits. A plan between two files needs no server; everything else
does, and fails where there is none.
-/
namespace DeclarativeSql

/-- The outcome of a run. -/
structure Run where
  exitCode : Nat
  /-- What is printed, one line after the other. -/
  output : List String
  /-- The columns that lose their data, by table and name. -/
  warnings : List (String × String)
  /-- What went wrong. -/
  complaint : Option String
  deriving DecidableEq

namespace Run

def programName : String := "codedb-migrate"

def versionLine : String := programName ++ " 0.1.0"

def done (output : List String) : Run := ⟨0, output, [], none⟩

def failed (complaint : String) : Run := ⟨1, [], [], some complaint⟩

def refused (cause : ArgumentFault) : Run := ⟨2, [], [], some cause.message⟩

/-- The columns that a difference replaces. -/
def replacedColumns (d : DatabaseDelta) : List (String × String) :=
  d.tablesToModify.flatMap fun t => t.replaced.map fun c => (t.name, c.name)

/-- The plan between the contents of two files. -/
def planBetween (dialect : Dialect) (current target : Option String) : Run :=
  match SchemaFile.load ⟨0⟩ current with
  | .error _ => failed "the current schema can not be loaded"
  | .ok current =>
    match SchemaFile.load ⟨current.tables.length⟩ target with
    | .error _ => failed "the target schema can not be loaded"
    | .ok target =>
      match diff current target with
      | .error e => failed e.message
      | .ok delta => ⟨0, dialect.sqlAll delta.statements, replacedColumns delta, none⟩

def ofRequest (r : Request) (file : String → Option String) : Run :=
  match r.job with
  | .plan target (some current) =>
    planBetween (Postgres.dialect r.quotesIdentifiers) (file current) (file target)
  | _ => failed "no connection to the server"

def usage : List String :=
  ["Usage: " ++ programName ++ " [OPTIONS] <COMMAND>", "",
    "Commands: " ++ String.intercalate ", " Request.subcommands]

/-- The outcome of the arguments, where `file` is the content of a file if there is one. -/
def ofArguments (args : List String) (file : String → Option String) : Run :=
  match Request.ofArguments args with
  | .ok r => ofRequest r file
  | .error .help => done usage
  | .error .version => done [versionLine]
  | .error (.fault cause) => refused cause

end Run

end DeclarativeSql
