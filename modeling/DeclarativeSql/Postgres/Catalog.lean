import DeclarativeSql.Schema.Database
import DeclarativeSql.Record.Row
import DeclarativeSql.Postgres.TypeName
import DeclarativeSql.Postgres.ColumnFlags

/-!
# Catalogue rows

Three lists of rows describe a schema: its columns, the members of its keys and uniques, and the
members of its other indices. Rows of one constraint stand next to each other, in the order of its
columns. Constraints of tables without columns are left out.
-/
namespace DeclarativeSql.Postgres

inductive CatalogQuery
  | columns
  | constraints
  | indexes
  deriving DecidableEq

def CatalogQuery.name : CatalogQuery → String
  | columns => "columns"
  | constraints => "constraints"
  | indexes => "indexes"

inductive ConstraintKind
  | primaryKey
  | unique
  | index (method : IndexMethod)
  deriving DecidableEq

namespace ConstraintKind

def name : ConstraintKind → String
  | primaryKey => "primary key"
  | unique => "unique"
  | index _ => "index"

/-- The kind as the catalogue spells it. -/
def ofCatalogName (name : String) : ConstraintKind :=
  if name = "PRIMARY KEY" then primaryKey else unique

/-- Every access method but one is a standard index. -/
def ofMethod (name : String) : ConstraintKind :=
  index (if name = "gin" then .gin else .standard)

end ConstraintKind

inductive CatalogError
  | unsupportedType (table column typeName : String)
  | malformedRow (query : CatalogQuery) (index : Nat)
  | unknownColumn (kind : ConstraintKind) (name table column : String)
  /-- The connection failed. -/
  | core (cause : Error)
  deriving DecidableEq

namespace CatalogError

def name : CatalogError → String
  | unsupportedType .. => "UnsupportedType"
  | malformedRow .. => "MalformedRow"
  | unknownColumn .. => "UnknownColumn"
  | core cause => cause.name

def message : CatalogError → String
  | unsupportedType table column typeName =>
    s!"column '{table}.{column}' has unsupported type '{typeName}'"
  | malformedRow query index =>
    s!"catalog query '{query.name}' returned a row without column {index}"
  | unknownColumn kind name table column =>
    s!"{kind.name} '{name}' on table '{table}' refers to unknown column '{column}'"
  | core cause => cause.message

end CatalogError

def textAt (query : CatalogQuery) (row : Row) (index : Nat) : Except CatalogError String :=
  match row.text? index with
  | some s => .ok s
  | none => .error (.malformedRow query index)

def textOrNullAt (query : CatalogQuery) (row : Row) (index : Nat) :
    Except CatalogError (Option String) :=
  match row.get? index with
  | some .null => .ok none
  | some (.text s) => .ok (some s)
  | _ => .error (.malformedRow query index)

/-- Table, name, type, whether NULL is allowed, and the default. -/
def readColumn (row : Row) : Except CatalogError (String × ColumnDef) := do
  let table ← textAt .columns row 0
  let name ← textAt .columns row 1
  let typeName ← textAt .columns row 2
  let isNullable ← textAt .columns row 3
  let default ← textOrNullAt .columns row 4
  match SqlType.ofCatalogName? typeName with
  | none => .error (.unsupportedType table name typeName)
  | some sqlType => return (table, ⟨name, sqlType, columnFlags isNullable default⟩)

/-- The columns of one constraint, by name. -/
structure ConstraintRows where
  kind : ConstraintKind
  table : String
  name : String
  columns : List String
  deriving DecidableEq

/-- Kind, table, constraint and one of its columns. -/
def readMember (row : Row) : Except CatalogError ConstraintRows := do
  let kind ← textAt .constraints row 0
  let table ← textAt .constraints row 1
  let name ← textAt .constraints row 2
  let column ← textAt .constraints row 3
  return ⟨.ofCatalogName kind, table, name, [column]⟩

/-- Table, index, access method and one of the columns. -/
def readIndexMember (row : Row) : Except CatalogError ConstraintRows := do
  let table ← textAt .indexes row 0
  let name ← textAt .indexes row 1
  let method ← textAt .indexes row 2
  let column ← textAt .indexes row 3
  return ⟨.ofMethod method, table, name, [column]⟩

/-- Joins neighbours of one table and name. The first of them settles the kind. -/
def joinRows : List ConstraintRows → List ConstraintRows
  | [] => []
  | r :: rest =>
    match joinRows rest with
    | [] => [r]
    | next :: groups =>
      if next.table = r.table ∧ next.name = r.name then
        { r with columns := r.columns ++ next.columns } :: groups
      else r :: next :: groups

/-- A table that is being put together. -/
structure TableParts where
  name : String
  columns : List ColumnDef
  primaryKey : Option Key
  indices : List Index
  uniques : List Key

namespace TableParts

def column? (t : TableParts) (name : String) : Option ColumnDef :=
  t.columns.find? (·.name == name)

def resolve (t : TableParts) (c : ConstraintRows) : Except CatalogError (List ColumnDef) :=
  c.columns.mapM fun name =>
    match t.column? name with
    | some d => .ok d
    | none => .error (.unknownColumn c.kind c.name t.name name)

/-- Of several primary keys the last one counts. -/
def add (t : TableParts) (c : ConstraintRows) : Except CatalogError TableParts :=
  match t.resolve c with
  | .error e => .error e
  | .ok columns =>
    match c.kind with
    | .primaryKey => .ok { t with primaryKey := some ⟨c.name, columns⟩ }
    | .unique => .ok { t with uniques := t.uniques ++ [⟨c.name, columns⟩] }
    | .index method => .ok { t with indices := t.indices ++ [⟨c.name, method, columns⟩] }

def table (t : TableParts) (id : TableId) : Table :=
  .withConstraints id t.name t.columns t.primaryKey t.indices t.uniques

end TableParts

/-- Adds a column to its table, which comes last if it is new. -/
def addColumn (tables : List TableParts) (table : String) (d : ColumnDef) : List TableParts :=
  match tables with
  | [] => [⟨table, [d], none, [], []⟩]
  | t :: rest =>
    if t.name = table then { t with columns := t.columns ++ [d] } :: rest
    else t :: addColumn rest table d

def addConstraint (tables : List TableParts) (c : ConstraintRows) :
    Except CatalogError (List TableParts) :=
  match tables with
  | [] => .ok []
  | t :: rest =>
    if t.name = c.table then
      match t.add c with
      | .error e => .error e
      | .ok t => .ok (t :: rest)
    else
      match addConstraint rest c with
      | .error e => .error e
      | .ok rest => .ok (t :: rest)

def addConstraints (tables : List TableParts) :
    List ConstraintRows → Except CatalogError (List TableParts)
  | [] => .ok tables
  | c :: rest =>
    match addConstraint tables c with
    | .error e => .error e
    | .ok tables => addConstraints tables rest

/-- The rows of the three queries. -/
structure CatalogRows where
  columns : List Row
  constraints : List Row
  indexes : List Row

namespace CatalogRows

def tableParts (rows : CatalogRows) : Except CatalogError (List TableParts) := do
  let columns ← rows.columns.mapM readColumn
  let tables := columns.foldl (fun tables (table, d) => addColumn tables table d) []
  let members ← rows.constraints.mapM readMember
  let tables ← addConstraints tables (joinRows members)
  let members ← rows.indexes.mapM readIndexMember
  addConstraints tables (joinRows members)

/-- The database that the rows describe, its tables with identities from `first` on. -/
def assemble (rows : CatalogRows) (first : TableId) (database : String) :
    Except CatalogError Database := do
  let tables ← rows.tableParts
  return ⟨database, tables.mapIdx fun i t => t.table ⟨first.index + i⟩⟩

end CatalogRows

end DeclarativeSql.Postgres
