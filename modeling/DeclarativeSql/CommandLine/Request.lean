import DeclarativeSql.CommandLine.Options

/-!
# Requests

What the arguments of the program ask for.
-/
namespace DeclarativeSql

inductive Job
  | dump (output : Option String)
  /-- Without a current schema the one of the server is taken. -/
  | plan (target : String) (current : Option String)
  | apply (target : String) (dryRun : Bool)
  | createRole (name password : String) (dryRun : Bool)
  | createDatabase (name owner : String) (dryRun : Bool)
  deriving DecidableEq

structure Request where
  database : String
  schema : String
  quotesIdentifiers : Bool
  isVerbose : Bool
  job : Job
  deriving DecidableEq

namespace Request

def defaultDatabase : String := "postgres://localhost/postgres"

def defaultSchema : String := "public"

def subcommands : List String :=
  ["dump", "plan", "apply", "create-role", "create-database", "help"]

def top : CommandSpec where
  options := [.text "database" 'd', .text "schema" 's', .switch "quote-identifiers" none,
    .switch "verbose" (some 'v')]
  hasVersion := true
  subcommands := subcommands

def dryRun : OptionSpec := .switch "dry-run" none

def optionsOf : String → List OptionSpec
  | "dump" => [.path "output" 'o']
  | "plan" => [.path "target" 't', .path "current" 'c']
  | "apply" => [.path "target" 't', dryRun]
  | "create-role" => [.text "name" 'n', .text "password" 'p', dryRun]
  | "create-database" => [.text "name" 'n', .text "owner" 'o', dryRun]
  | _ => []

/-- Help for the program or one of its subcommands. -/
def helpOn : List String → Interruption
  | [] => .help
  | [name] => if name ∈ subcommands then .help else .fault (.unknownSubcommand name)
  | name :: next :: _ =>
    .fault (.unknownSubcommand (if name ∈ subcommands then next else name))

/-- A job from the settings of its subcommand. -/
def jobOf (subcommand : String) (s : Settings) : Except Interruption Job :=
  match subcommand with
  | "dump" => .ok (.dump (s.lookup "output"))
  | "plan" => (s.required "target").map fun t => .plan t (s.lookup "current")
  | "apply" => (s.required "target").map fun t => .apply t (s.isGiven "dry-run")
  | "create-role" =>
    match s.required "name", s.required "password" with
    | .ok name, .ok password => .ok (.createRole name password (s.isGiven "dry-run"))
    | .error i, _ | _, .error i => .error i
  | "create-database" =>
    match s.required "name", s.required "owner" with
    | .ok name, .ok owner => .ok (.createDatabase name owner (s.isGiven "dry-run"))
    | .error i, _ | _, .error i => .error i
  | name => .error (.fault (.unknownSubcommand name))

def readJob (subcommand : String) (args : List String) : Except Interruption Job :=
  if subcommand = "help" then .error (helpOn args)
  else
    match (CommandSpec.mk (optionsOf subcommand) false []).read [] none args with
    | .error i => .error i
    | .ok r =>
      match CommandSpec.settle r.settings r.pending with
      | .error i => .error i
      | .ok settings => jobOf subcommand settings

def ofSettings (s : Settings) (job : Job) : Request where
  database := (s.lookup "database").getD defaultDatabase
  schema := (s.lookup "schema").getD defaultSchema
  quotesIdentifiers := s.isGiven "quote-identifiers"
  isVerbose := s.isGiven "verbose"
  job := job

def ofArguments (args : List String) : Except Interruption Request :=
  match top.read [] none args with
  | .error i => .error i
  | .ok ⟨_, _, none⟩ => .error (.fault .missingSubcommand)
  | .ok ⟨settings, pending, some (subcommand, args)⟩ =>
    match readJob subcommand args with
    | .error i => .error i
    | .ok job =>
      match CommandSpec.settle settings pending with
      | .error i => .error i
      | .ok settings => .ok (ofSettings settings job)

end Request

end DeclarativeSql
