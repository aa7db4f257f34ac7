import DeclarativeSql.Migration.Delta

/-!
# Schema changes

A difference is carried out by a list of statements: tables are dropped, tables are created with
their constraints, and each changed table loses constraints before the columns they cover and gains
columns before the constraints over them.
-/
namespace DeclarativeSql

inductive Statement
  | createTable (table : String) (columns : List ColumnDef)
  | dropTable (table : String)
  | addColumn (table : String) (column : ColumnDef)
  | dropColumn (table column : String)
  | addPrimaryKey (table : String) (key : Key)
  | dropPrimaryKey (table name : String)
  | addIndex (table : String) (index : Index)
  | dropIndex (table name : String)
  | addUnique (table : String) (unique : Key)
  | dropUnique (table name : String)
  deriving DecidableEq

namespace Statement

def table : Statement → String
  | createTable t _ | dropTable t | addColumn t _ | dropColumn t _ | addPrimaryKey t _
  | dropPrimaryKey t _ | addIndex t _ | dropIndex t _ | addUnique t _ | dropUnique t _ => t

/-- Stored data can be lost. -/
def isDestructive : Statement → Bool
  | dropTable _ | dropColumn _ _ => true
  | _ => false

end Statement

/-- A table without constraints, then its key, its indices and its uniques. -/
def Table.creation (t : Table) : List Statement :=
  [Statement.createTable t.name t.definitions] ++
    t.primaryKey.toList.map (.addPrimaryKey t.name) ++
    t.indices.map (.addIndex t.name) ++
    t.uniques.map (.addUnique t.name)

def TableDelta.statements (d : TableDelta) : List Statement :=
  d.primaryKeyToDrop.toList.map (fun k => Statement.dropPrimaryKey d.name k.name) ++
    d.indicesToDrop.map (fun i => Statement.dropIndex d.name i.name) ++
    d.uniquesToDrop.map (fun k => Statement.dropUnique d.name k.name) ++
    d.columnsToDrop.map (fun c => Statement.dropColumn d.name c.name) ++
    d.columnsToAdd.map (.addColumn d.name) ++
    d.primaryKeyToAdd.toList.map (.addPrimaryKey d.name) ++
    d.indicesToAdd.map (.addIndex d.name) ++
    d.uniquesToAdd.map (.addUnique d.name)

def DatabaseDelta.statements (d : DatabaseDelta) : List Statement :=
  d.tablesToDrop.map (fun t => Statement.dropTable t.name) ++
    d.tablesToAdd.flatMap Table.creation ++
    d.tablesToModify.flatMap TableDelta.statements

/-- The statements that lead from one database to another. -/
def plan (current target : Database) : Except Error (List Statement) :=
  (diff current target).map DatabaseDelta.statements

/-- Statements about the server and not about a schema. -/
inductive EnvironmentStatement
  | createRole (name password : String)
  | createDatabase (name owner : String)
  deriving DecidableEq

end DeclarativeSql
