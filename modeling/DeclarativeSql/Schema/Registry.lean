import DeclarativeSql.Schema.Column
import DeclarativeSql.Record.FieldType

/-!
# Column registry

Tables that name the same column share its definition. All definitions of one name have one type;
they differ in their flags.
-/
namespace DeclarativeSql

/-- Definitions in the order in which they were made. The position of a definition is its
identity. -/
structure Registry where
  definitions : List ColumnDef

namespace Registry

def empty : Registry := ⟨[]⟩

/-- The first definition of a name, which settles its type. -/
def find? (r : Registry) (name : String) : Option ColumnDef :=
  r.definitions.find? (·.name == name)

def sqlType? (r : Registry) (name : String) : Option SqlType := (r.find? name).map (·.sqlType)

/-- The names that have a definition, without repetition. -/
def names (r : Registry) : List String := (r.definitions.map (·.name)).eraseDups

def size (r : Registry) : Nat := r.names.length

def isEmpty (r : Registry) : Bool := r.definitions.isEmpty

/-- The position of the definition with this name and these flags. -/
def position? (r : Registry) (name : String) (flags : ColumnFlags) : Option Nat :=
  r.definitions.findIdx? fun d => d.name == name && d.flags == flags

/-- A definition and its identity. -/
structure Defined where
  position : Nat
  definition : ColumnDef
  deriving DecidableEq

/-- Appends a definition that no other one stands for, if it may be as it is. -/
def append (r : Registry) (d : ColumnDef) : Except ConstructionError Defined × Registry :=
  match d.validate with
  | .error e => (.error e, r)
  | .ok () => (.ok ⟨r.definitions.length, d⟩, ⟨r.definitions ++ [d]⟩)

/-- The shared definition of a name, made if needed, and the registry afterwards. -/
def define (r : Registry) (name : String) (sqlType : SqlType) (flags : ColumnFlags) :
    Except ConstructionError Defined × Registry :=
  match r.sqlType? name with
  | none => r.append ⟨name, sqlType, flags⟩
  | some existing =>
    if existing ≠ sqlType then (.error (.conflictingColumnDef name existing sqlType), r)
    else
      match r.position? name flags with
      | some i => (.ok ⟨i, ⟨name, sqlType, flags⟩⟩, r)
      | none => r.append ⟨name, sqlType, flags⟩

/-- The definition of a column for fields of type `t`, with the flags that the type implies. -/
def column (r : Registry) (name : String) (t : FieldType) (flags : ColumnFlags) :
    Except ConstructionError Defined × Registry :=
  r.define name t.sqlType (flags ||| t.implied)

end Registry

end DeclarativeSql
