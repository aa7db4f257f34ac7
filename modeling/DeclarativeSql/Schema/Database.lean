import DeclarativeSql.Schema.Table

/-!
# Databases
-/
namespace DeclarativeSql

structure Database where
  name : String
  tables : List Table
  deriving DecidableEq

namespace Database

def table? (db : Database) (name : String) : Option Table :=
  db.tables.find? (·.name == name)

/-- Equality of the tables' structure, whatever their order is. -/
def sameStructure (a b : Database) : Bool :=
  a.tables.length == b.tables.length &&
    a.tables.all fun t =>
      match b.table? t.name with
      | some o => t.sameStructure o
      | none => false

/-- Every constraint lists columns of its own table only. -/
def constraintsAreLocal (db : Database) : Prop :=
  ∀ t ∈ db.tables,
    (∀ k ∈ t.primaryKey, ∀ d ∈ k.columns, d ∈ t.definitions) ∧
    (∀ i ∈ t.indices, ∀ d ∈ i.columns, d ∈ t.definitions) ∧
    (∀ k ∈ t.uniques, ∀ d ∈ k.columns, d ∈ t.definitions)

end Database

end DeclarativeSql
