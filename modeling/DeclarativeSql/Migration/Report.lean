import DeclarativeSql.Migration.Statement
import DeclarativeSql.Schema.Document

/-!
# Differences as JSON

Nothing is left out of a report: lists may be empty and keys may be null.
-/
namespace DeclarativeSql

namespace Report

open Document

def definitionToJson (d : ColumnDef) : Json := .object (definitionFields d)

def definitionsToJson (ds : List ColumnDef) : Json := .array (ds.map definitionToJson)

def keyOrNull : Option Key → Json
  | some k => keyToJson k
  | none => .null

end Report

open Document Report

def TableDelta.toJson (d : TableDelta) : Json :=
  .object [("name", .string d.name), ("empty", .bool d.isEmpty),
    ("columns_to_drop", definitionsToJson d.columnsToDrop),
    ("columns_to_add", definitionsToJson d.columnsToAdd),
    ("primary_key_to_drop", keyOrNull d.primaryKeyToDrop),
    ("primary_key_to_add", keyOrNull d.primaryKeyToAdd),
    ("indices_to_drop", .array (d.indicesToDrop.map indexToJson)),
    ("indices_to_add", .array (d.indicesToAdd.map indexToJson)),
    ("uniques_to_drop", .array (d.uniquesToDrop.map keyToJson)),
    ("uniques_to_add", .array (d.uniquesToAdd.map keyToJson))]

def DatabaseDelta.toJson (d : DatabaseDelta) : Json :=
  .object [("name", .string d.name), ("empty", .bool d.isEmpty),
    ("drop", .array (d.tablesToDrop.map fun t => .string t.name)),
    ("add", .array (d.tablesToAdd.map fun t => .string t.name)),
    ("modify", .array (d.tablesToModify.map TableDelta.toJson))]

namespace Statement

def kind : Statement → String
  | createTable .. => "CreateTable"
  | dropTable _ => "DropTable"
  | addColumn .. => "AddColumn"
  | dropColumn .. => "DropColumn"
  | addPrimaryKey .. => "AddPrimaryKey"
  | dropPrimaryKey .. => "DropPrimaryKey"
  | addIndex .. => "AddIndex"
  | dropIndex .. => "DropIndex"
  | addUnique .. => "AddUnique"
  | dropUnique .. => "DropUnique"

/-- What is made or dropped, a table aside. -/
def detail : Statement → Json
  | createTable _ columns => definitionsToJson columns
  | dropTable _ => .null
  | addColumn _ c => definitionToJson c
  | addPrimaryKey _ k | addUnique _ k => keyToJson k
  | addIndex _ i => indexToJson i
  | dropColumn _ name | dropPrimaryKey _ name | dropIndex _ name | dropUnique _ name =>
    .string name

def toJson (s : Statement) : Json :=
  .array [.string s.kind, .string s.table, .bool s.isDestructive, s.detail]

end Statement

end DeclarativeSql
