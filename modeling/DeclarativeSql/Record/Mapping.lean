import DeclarativeSql.Record.Annotation
import DeclarativeSql.Record.Row
import DeclarativeSql.Schema.Declaration
import DeclarativeSql.Expr.Basic

/-!
# Records and tables

A record with named fields is mapped to a table: each field to a column, bound to the member of the
field's name. What a field's type is, `τ`, is left to the user of the mapping.
-/
namespace DeclarativeSql

structure AnnotatedField (τ : Type) where
  name : String
  fieldType : τ
  annotations : List Annotation

inductive ItemBody (τ : Type)
  | named (fields : List (AnnotatedField τ))
  /-- A record without field names, or without fields. -/
  | unnamed
  /-- Something that is no record. -/
  | other

structure AnnotatedItem (τ : Type) where
  name : String
  annotations : List Annotation
  body : ItemBody τ

structure MappedColumn (τ : Type) where
  member : String
  column : String
  fieldType : τ
  flags : List ColumnFlags

structure RecordMapping (τ : Type) where
  record : String
  table : String
  columns : List (MappedColumn τ)

namespace RecordMapping

variable {τ : Type}

/-- The column has the field's name if the annotations give no other. -/
def columnOf (field : AnnotatedField τ) : Except AnnotationError (MappedColumn τ) :=
  match ColumnAnnotations.ofAnnotations field.annotations with
  | .error e => .error e
  | .ok a => .ok ⟨field.name, a.name.getD field.name, field.fieldType, a.flags⟩

/-- The table's own annotations are read first, then those of the fields, in order. -/
def ofItem (item : AnnotatedItem τ) : Except AnnotationError (RecordMapping τ) :=
  match tableName? item.annotations with
  | .error e => .error e
  | .ok name =>
    match item.body with
    | .other => .error .notARecord
    | .unnamed => .error .unnamedFields
    | .named fields =>
      match fields.mapM columnOf with
      | .error e => .error e
      | .ok columns => .ok ⟨item.name, name.getD (underscored item.name), columns⟩

/-- A raw name without its mark. -/
def plainName (name : String) : String :=
  match name.toList with
  | 'r' :: '#' :: rest => String.ofList rest
  | _ => name

/-- The name of the record of bound columns. -/
def columnsName (m : RecordMapping τ) : String := plainName m.record ++ "Columns"

def members (m : RecordMapping τ) : List String := m.columns.map (·.member)

/-- The columns that the fields are bound to on a table. -/
def bind (m : RecordMapping τ) (t : Table) : Except ConstructionError (List Column) :=
  m.members.mapM t.column

/-- The bound columns as a select list, in field order. -/
def selectList (columns : List Column) : List Expr := columns.map .column

def step (c : MappedColumn FieldType) : DeclareStep :=
  .column c.member c.column c.fieldType (c.flags.foldl (· ||| ·) .empty)

def steps (m : RecordMapping FieldType) : List DeclareStep := m.columns.map step

/-- The table on its own, with a registry of its own. -/
def declare (m : RecordMapping FieldType) (id : TableId) : Except ConstructionError Table :=
  match ((TableDraft.mk .empty id m.table []).run m.steps).2 with
  | .error e => .error e
  | .ok draft => .ok draft.finish

def fieldTypes (m : RecordMapping FieldType) : List FieldType := m.columns.map (·.fieldType)

/-- Reads a record from a row of its select list. -/
def read (m : RecordMapping FieldType) (row : Row) : Except Error (Fields m.fieldTypes) :=
  Fields.read m.fieldTypes row

end RecordMapping

end DeclarativeSql
