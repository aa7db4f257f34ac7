import DeclarativeSql.Schema.SqlType
import DeclarativeSql.Query.NodeSort

/-!
# Errors

Three families: something is put together wrongly, two databases cannot be matched, or the driver
reports a failure. Each constructor is a cause and carries what its message needs.
-/
namespace DeclarativeSql

/-- Raised while a schema, a query or a command is put together. -/
inductive ConstructionError
  | missingColumnBinding (table member : String)
  | duplicateColumn (table name : String)
  | duplicateTable (name : String)
  | conflictingColumnDef (name : String) (existing requested : SqlType)
  | serialTypeMismatch (column : String) (sqlType : SqlType)
  | invalidTier (tier : Nat)
  | duplicateClause (clause : ClauseSlot) (parent : NodeSort)
  | invalidChild (child parent : NodeSort)
  | valueCountMismatch (table : String) (columns values : Nat)
  | detachedNode (node : Nat)
  | unregisteredTable (name : String)
  | unsupportedExpression (what : String)
  | unsupportedCall (what : String)
  | unknownArgument (name : String)
  | unboundArgument (name : String)
  /-- A subquery that would be written inside itself without end. -/
  | endlessSubquery (node : Nat)
  /-- Delayed code that keeps asking for itself. -/
  | endlessCode
  deriving DecidableEq

namespace ConstructionError

/-- The cause in one word. -/
def name : ConstructionError → String
  | missingColumnBinding .. => "MissingColumnBinding"
  | duplicateColumn .. => "DuplicateColumn"
  | duplicateTable .. => "DuplicateTable"
  | conflictingColumnDef .. => "ConflictingColumnDef"
  | serialTypeMismatch .. => "SerialTypeMismatch"
  | invalidTier .. => "InvalidTier"
  | duplicateClause .. => "DuplicateClause"
  | invalidChild .. => "InvalidChild"
  | valueCountMismatch .. => "ValueCountMismatch"
  | detachedNode .. => "DetachedNode"
  | unregisteredTable .. => "UnregisteredTable"
  | unsupportedExpression .. => "UnsupportedExpression"
  | unsupportedCall .. => "UnsupportedCall"
  | unknownArgument .. => "UnknownArgument"
  | unboundArgument .. => "UnboundArgument"
  | endlessSubquery .. => "EndlessSubquery"
  | endlessCode => "EndlessCode"

def message : ConstructionError → String
  | missingColumnBinding table member =>
    s!"member '{member}' of table '{table}' is not bound to a column"
  | duplicateColumn table name => s!"column '{name}' is declared twice in table '{table}'"
  | duplicateTable name => s!"table '{name}' is declared twice"
  | conflictingColumnDef name existing requested =>
    s!"column '{name}' is already registered as {existing.name}, " ++
      s!"cannot register as {requested.name}"
  | serialTypeMismatch column sqlType =>
    s!"column '{column}' of type {sqlType.name} cannot be serial"
  | invalidTier tier => s!"tier {tier} is out of range (1..=4)"
  | duplicateClause clause parent =>
    s!"{clause.name} is already attached to this {parent.name}"
  | invalidChild child parent => s!"{child.name} cannot be attached to {parent.name}"
  | valueCountMismatch table columns values =>
    s!"insert into '{table}' names {columns} columns but its source yields {values} values"
  | detachedNode node => s!"query node {node} is detached from its owner"
  | unregisteredTable name => s!"table '{name}' is not registered in this query"
  | unsupportedExpression what => s!"unsupported expression: {what}"
  | unsupportedCall what => s!"unsupported call '{what}'"
  | unknownArgument name => s!"argument '{name}' is not part of this command"
  | unboundArgument name => s!"argument '{name}' has no bound value"
  | endlessSubquery node => s!"query node {node} is used inside itself"
  | endlessCode => "delayed code is used inside itself"

end ConstructionError

/-- The database a conflict was found in. -/
inductive DiffSide
  | current
  | target
  deriving DecidableEq

def DiffSide.name : DiffSide → String
  | current => "current"
  | target => "target"

/-- What keeps a table from being matched by name and signature. -/
inductive Ambiguity
  | tableTwice
  | columnTwice (name : String)
  | indexTwice (name : String)
  | uniqueTwice (name : String)
  deriving DecidableEq

def Ambiguity.message : Ambiguity → String
  | tableTwice => "table name appears twice"
  | columnTwice name => s!"column '{name}' appears twice"
  | indexTwice name => s!"index '{name}' duplicates another index"
  | uniqueTwice name => s!"unique '{name}' duplicates another unique"

/-- What a driver failure amounts to. -/
inductive DriverErrorKind
  | duplicateObject
  | duplicateDatabase
  | duplicateKey
  | unknown
  deriving DecidableEq

def DriverErrorKind.name : DriverErrorKind → String
  | duplicateObject => "DuplicateObject"
  | duplicateDatabase => "DuplicateDatabase"
  | duplicateKey => "DuplicateKey"
  | unknown => "Unknown"

/-- A failure reported by the driver, carried on unchanged. -/
structure DriverError where
  kind : DriverErrorKind
  code : Option String
  text : String
  deriving DecidableEq

namespace DriverError

/-- A failure without a native code. -/
def unclassified (text : String) : DriverError := ⟨.unknown, none, text⟩

def message (e : DriverError) : String :=
  let code := match e.code with
    | some c => ", " ++ c
    | none => ""
  s!"driver error ({e.kind.name}{code}): {e.text}"

end DriverError

inductive Error
  | construction (cause : ConstructionError)
  | diffConflict (side : DiffSide) (table : String) (reason : Ambiguity)
  | driver (cause : DriverError)
  | rowMapping (index : Nat) (expected found : String)
  deriving DecidableEq

namespace Error

def name : Error → String
  | construction cause => cause.name
  | diffConflict .. => "DiffConflict"
  | driver .. => "Driver"
  | rowMapping .. => "RowMapping"

def message : Error → String
  | construction cause => cause.message
  | diffConflict side table reason =>
    s!"diff conflict in {side.name} schema, table '{table}': {reason.message}"
  | driver cause => cause.message
  | rowMapping index expected found =>
    s!"result column {index}: expected {expected}, found {found}"

def driverKind? : Error → Option DriverErrorKind
  | driver cause => some cause.kind
  | _ => none

end Error

end DeclarativeSql
