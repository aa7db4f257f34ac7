import DeclarativeSql.Schema.Column

/-!
# Keys and indices

Primary keys and uniques are named lists of columns; an index also has a method. Two of them match
if they list the same columns with the same types, whatever their names are.
-/
namespace DeclarativeSql

/-- Names and types of the listed columns, in order. -/
abbrev Signature := List (String × SqlType)

def signatureOf (columns : List ColumnDef) : Signature :=
  columns.map fun d => (d.name, d.sqlType)

def coversName (columns : List ColumnDef) (name : String) : Bool :=
  columns.any (·.name == name)

/-- `kind_table_column_column`. -/
def constraintName (kind table : String) (columns : List ColumnDef) : String :=
  kind ++ "_" ++ table ++ "_" ++ String.intercalate "_" (columns.map (·.name))

/-- A primary key or a unique constraint. -/
structure Key where
  name : String
  columns : List ColumnDef
  deriving DecidableEq

namespace Key

def primary (table : String) (columns : List ColumnDef) : Key :=
  ⟨constraintName "pkey" table columns, columns⟩

def unique (table : String) (columns : List ColumnDef) : Key :=
  ⟨constraintName "uniq" table columns, columns⟩

def signature (k : Key) : Signature := signatureOf k.columns

def covers (k : Key) (column : String) : Bool := coversName k.columns column

end Key

inductive IndexMethod
  | standard
  /-- Inverted, for arrays. -/
  | gin
  deriving DecidableEq

def IndexMethod.name : IndexMethod → String
  | standard => "default"
  | gin => "gin"

structure Index where
  name : String
  method : IndexMethod
  columns : List ColumnDef
  deriving DecidableEq

namespace Index

def forTable (table : String) (method : IndexMethod) (columns : List ColumnDef) : Index :=
  ⟨constraintName "idx" table columns, method, columns⟩

/-- The method takes part in the match. -/
def signature (i : Index) : Signature × IndexMethod := (signatureOf i.columns, i.method)

def covers (i : Index) (column : String) : Bool := coversName i.columns column

end Index

theorem coversName_iff {columns : List ColumnDef} {name : String} :
    coversName columns name = true ↔ ∃ d ∈ columns, d.name = name := by
  simp [coversName]

end DeclarativeSql
