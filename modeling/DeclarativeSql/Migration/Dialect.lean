import DeclarativeSql.Migration.Statement
import DeclarativeSql.Text.Quoted

/-!
# Statements as text

A statement is a sequence of fixed words, names and literals. A dialect decides how names and types
are written; everything else is the same for all dialects.
-/
namespace DeclarativeSql

inductive Fragment
  /-- Key words and punctuation. -/
  | fixed (text : String)
  /-- The name of a table, a column or a constraint. -/
  | name (name : String)
  /-- The name of a role or a database. -/
  | globalName (name : String)
  | literal (text : String)
  deriving DecidableEq

structure Dialect where
  title : String
  name : String → String
  globalName : String → String
  /-- The name of a type, which may be asked for in its serial form. -/
  typeName : Bool → SqlType → String

namespace Dialect

variable (d : Dialect)

def fragment : Fragment → String
  | .fixed text => text
  | .name name => d.name name
  | .globalName name => d.globalName name
  | .literal text => Quoted.literal text

def text (fragments : List Fragment) : String := String.join (fragments.map d.fragment)

/-- A comma between each two of the lists. -/
def separated : List (List Fragment) → List Fragment
  | [] => []
  | [part] => part
  | part :: rest => part ++ .fixed "," :: separated rest

/-- Name, type, nullability and default of a column. -/
def columnDefinition (c : ColumnDef) : List Fragment :=
  let null := if c.isNullable then " NULL" else " NOT NULL"
  let default := if c.isDefaultNow then [Fragment.fixed " DEFAULT CURRENT_TIMESTAMP"] else []
  [Fragment.name c.name, .fixed (" " ++ d.typeName c.isSerial c.sqlType), .fixed null] ++ default

def columnNames (columns : List ColumnDef) : List Fragment :=
  .fixed "(" :: separated (columns.map fun c => [.name c.name]) ++ [Fragment.fixed ")"]

def alterTable (table : String) (change : List Fragment) : List Fragment :=
  .fixed "ALTER TABLE IF EXISTS " :: .name table :: change ++ [Fragment.fixed ";"]

def addConstraint (table : String) (k : Key) (kind : String) : List Fragment :=
  alterTable table (.fixed " ADD CONSTRAINT " :: .name k.name :: .fixed kind ::
    columnNames k.columns)

def dropConstraint (table name : String) : List Fragment :=
  alterTable table [.fixed " DROP CONSTRAINT IF EXISTS ", .name name]

def fragments : Statement → List Fragment
  | .createTable table columns =>
    [.fixed "CREATE TABLE IF NOT EXISTS ", .name table, .fixed "("] ++
      separated (columns.map d.columnDefinition) ++ [.fixed ");"]
  | .dropTable table => [.fixed "DROP TABLE IF EXISTS ", .name table, .fixed ";"]
  | .addColumn table column =>
    alterTable table (.fixed " ADD COLUMN " :: d.columnDefinition column)
  | .dropColumn table column =>
    alterTable table [.fixed " DROP COLUMN IF EXISTS ", .name column]
  | .addPrimaryKey table key => addConstraint table key " PRIMARY KEY"
  | .dropPrimaryKey table name => dropConstraint table name
  | .addIndex table index =>
    let method := match index.method with
      | .standard => []
      | .gin => [Fragment.fixed " USING gin"]
    [.fixed "CREATE INDEX IF NOT EXISTS ", .name index.name, .fixed " ON ", .name table] ++
      method ++ columnNames index.columns ++ [.fixed ";"]
  | .dropIndex _ name => [.fixed "DROP INDEX IF EXISTS ", .name name, .fixed ";"]
  | .addUnique table unique => addConstraint table unique " UNIQUE"
  | .dropUnique table name => dropConstraint table name

def environmentFragments : EnvironmentStatement → List Fragment
  | .createRole name password =>
    [.fixed "CREATE ROLE ", .globalName name, .fixed " PASSWORD ", .literal password,
      .fixed " LOGIN;"]
  | .createDatabase name owner =>
    [.fixed "CREATE DATABASE ", .globalName name, .fixed " OWNER ", .globalName owner, .fixed ";"]

def sql (s : Statement) : String := d.text (d.fragments s)

def sqlAll (statements : List Statement) : List String := statements.map d.sql

def environmentSql (s : EnvironmentStatement) : String := d.text (environmentFragments s)

/-- Names as they are, logical type names. -/
def plain : Dialect where
  title := "plain"
  name := id
  globalName := id
  typeName serial t := if serial then "serial_" ++ t.name else t.name

end Dialect

end DeclarativeSql
