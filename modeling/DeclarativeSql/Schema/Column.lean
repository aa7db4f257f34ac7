import DeclarativeSql.Schema.Flags

/-!
# Columns

A column definition stands on its own. A column is a definition bound to one member of one table;
tables are told apart by an identity and not by their name.
-/
namespace DeclarativeSql

structure ColumnDef where
  name : String
  sqlType : SqlType
  flags : ColumnFlags
  deriving DecidableEq

namespace ColumnDef

def isNullable (d : ColumnDef) : Bool := d.flags.contains .nullable

def isSerial (d : ColumnDef) : Bool := d.flags.contains .serial

def isDefaultNow (d : ColumnDef) : Bool := d.flags.contains .defaultNow

/-- Both describe the same stored column. Membership in keys, indices and uniques is not part of a
column's shape. -/
def sameShape (a b : ColumnDef) : Bool :=
  a.name == b.name && a.sqlType == b.sqlType && a.flags.structural == b.flags.structural

/-- Only a type with a serial form can be serial. -/
def validate (d : ColumnDef) : Except ConstructionError Unit :=
  if d.isSerial && !d.sqlType.supportsSerial then .error (.serialTypeMismatch d.name d.sqlType)
  else .ok ()

def text (d : ColumnDef) : String := d.name ++ " " ++ d.sqlType.name

theorem sameShape_iff {a b : ColumnDef} : a.sameShape b = true ↔
    a.name = b.name ∧ a.sqlType = b.sqlType ∧ a.flags.structural = b.flags.structural := by
  simp [sameShape, and_assoc]

theorem validate_eq_ok_iff {d : ColumnDef} :
    d.validate = .ok () ↔ (d.isSerial = true → d.sqlType.supportsSerial = true) := by
  unfold validate
  cases d.isSerial <;> cases d.sqlType.supportsSerial <;> simp

end ColumnDef

/-- The identity of one table instance. -/
structure TableId where
  index : Nat
  deriving DecidableEq

structure Column where
  definition : ColumnDef
  member : String
  table : TableId
  tableName : String
  deriving DecidableEq

def Column.name (c : Column) : String := c.definition.name

end DeclarativeSql
