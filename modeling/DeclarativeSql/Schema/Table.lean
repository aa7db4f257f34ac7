import DeclarativeSql.Schema.Constraint

/-!
# Tables

A table is an identity, a name, bound columns, and keys and indices over their definitions. Copies
of a table differ in identity, so a query may join a table to itself.
-/
namespace DeclarativeSql

structure Table where
  id : TableId
  name : String
  columns : List Column
  primaryKey : Option Key
  indices : List Index
  uniques : List Key
  deriving DecidableEq

namespace Table

def definitions (t : Table) : List ColumnDef := t.columns.map (·.definition)

/-- Binds definitions to members of the table with identity `id`. -/
def bindAll (id : TableId) (name : String) (members : List (String × ColumnDef)) : List Column :=
  members.map fun (member, d) => ⟨d, member, id, name⟩

/-- A table with given constraints, whose members are named after their columns. -/
def withConstraints (id : TableId) (name : String) (definitions : List ColumnDef)
    (primaryKey : Option Key) (indices : List Index) (uniques : List Key) : Table :=
  ⟨id, name, bindAll id name (definitions.map fun d => (d.name, d)), primaryKey, indices, uniques⟩

/-- The definitions that carry a flag, in declaration order. -/
def carrying (definitions : List ColumnDef) (flag : ColumnFlags) : List ColumnDef :=
  definitions.filter fun d => d.flags.contains flag

def primaryKeyOf (table : String) (definitions : List ColumnDef) : Option Key :=
  match carrying definitions .primaryKey with
  | [] => none
  | columns => some (Key.primary table columns)

/-- The index is inverted if one of its columns asks for it. -/
def indexOf (table : String) (definitions : List ColumnDef) (tier : Nat) : Option Index :=
  match carrying definitions (.indexTier tier) with
  | [] => none
  | columns =>
    let method := if columns.any fun d => d.flags.contains .gin then .gin else .standard
    some (Index.forTable table method columns)

def uniqueOf (table : String) (definitions : List ColumnDef) (tier : Nat) : Option Key :=
  match carrying definitions (.uniqueTier tier) with
  | [] => none
  | columns => some (Key.unique table columns)

/-- A table whose constraints are read off the flags of its columns. -/
def ofColumns (id : TableId) (name : String) (columns : List Column) : Table :=
  let definitions := columns.map (·.definition)
  { id, name, columns
    primaryKey := primaryKeyOf name definitions
    indices := ColumnFlags.tiers.filterMap (indexOf name definitions)
    uniques := ColumnFlags.tiers.filterMap (uniqueOf name definitions) }

def column? (t : Table) (member : String) : Option Column :=
  t.columns.find? (·.member == member)

/-- The column bound to a member. -/
def column (t : Table) (member : String) : Except ConstructionError Column :=
  match t.column? member with
  | some c => .ok c
  | none => .error (.missingColumnBinding t.name member)

def columnByName? (t : Table) (name : String) : Option Column :=
  t.columns.find? (·.name == name)

def owns (t : Table) (c : Column) : Bool := c.table == t.id

/-- An independent copy with another identity. -/
def aliased (t : Table) (id : TableId) : Table :=
  { t with id, columns := bindAll id t.name (t.columns.map fun c => (c.member, c.definition)) }

def primaryKeySignature (t : Table) : Option Signature := t.primaryKey.map Key.signature

/-- Equality up to identity, column order, members and constraint names. Columns are looked up by
name; indices and uniques match as multisets. -/
def sameStructure (a b : Table) : Bool :=
  a.name == b.name && a.columns.length == b.columns.length &&
    (a.definitions.all fun d =>
      match b.columnByName? d.name with
      | some c => d.sameShape c.definition
      | none => false) &&
    a.primaryKeySignature == b.primaryKeySignature &&
    (a.indices.map Index.signature).isPerm (b.indices.map Index.signature) &&
    (a.uniques.map Key.signature).isPerm (b.uniques.map Key.signature)

@[simp] theorem definitions_ofColumns (id : TableId) (name : String) (columns : List Column) :
    (ofColumns id name columns).definitions = columns.map (·.definition) := rfl

end Table

end DeclarativeSql
