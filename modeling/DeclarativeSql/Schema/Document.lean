import DeclarativeSql.Schema.Database
import DeclarativeSql.Json.Basic

/-!
# Databases as JSON

A column stands with its definition, a constraint lists its columns by name. Reading resolves each
name to the first column that has it. Unknown fields are skipped, repeated ones refused.
-/
namespace DeclarativeSql

inductive DocumentError
  /-- The value has not the form of a database. -/
  | malformed
  /-- A constraint lists a column that its table does not have. -/
  | unknownColumn (table column : String)
  deriving DecidableEq

namespace DocumentError

/-- What can be said about the error in terms of the database. -/
def reason? : DocumentError → Option String
  | malformed => none
  | unknownColumn table column => some s!"table '{table}' has no column '{column}'"

end DocumentError

namespace Document

abbrev Read := Except DocumentError

def scalarToJson (s : Scalar) : Json := .string s.name

def sqlTypeToJson : SqlType → Json
  | .scalar s => .object [("scalar", scalarToJson s)]
  | .array s => .object [("array", scalarToJson s)]

def namesToJson (columns : List ColumnDef) : Json :=
  .array (columns.map fun d => .string d.name)

def definitionFields (d : ColumnDef) : List (String × Json) :=
  [("name", .string d.name), ("sql_type", sqlTypeToJson d.sqlType),
    ("flags", .integer d.flags.bits.toNat)]

/-- The member is written if it is not the name of the column. -/
def columnToJson (c : Column) : Json :=
  let member := if c.member = c.name then [] else [("member", Json.string c.member)]
  .object (definitionFields c.definition ++ member)

def keyToJson (k : Key) : Json :=
  .object [("name", .string k.name), ("columns", namesToJson k.columns)]

def indexToJson (i : Index) : Json :=
  .object [("name", .string i.name), ("method", .string i.method.name),
    ("columns", namesToJson i.columns)]

/-- Fields of a list that is left out if it is empty. -/
def listField {α : Type} (name : String) (encode : α → Json) (items : List α) :
    List (String × Json) :=
  if items.isEmpty then [] else [(name, .array (items.map encode))]

def tableToJson (t : Table) : Json :=
  .object ([("name", Json.string t.name), ("columns", .array (t.columns.map columnToJson))] ++
    t.primaryKey.toList.map (fun k => ("primary_key", keyToJson k)) ++
    listField "indices" indexToJson t.indices ++ listField "uniques" keyToJson t.uniques)

def readString : Json → Read String
  | .string s => .ok s
  | _ => .error .malformed

/-- The items of an array. An array that goes wrong ends in an error. -/
def readItems : Json → Read (List (Read Json))
  | .array items => .ok (items.map .ok)
  | .cut (.array items) => .ok (items.map .ok ++ [.error .malformed])
  | _ => .error .malformed

def readList {α : Type} (read : Json → Read α) (v : Json) : Read (List α) := do
  (← readItems v).mapM (· >>= read)

/-- A value that may be null. -/
def readOptional {α : Type} (read : Json → Read α) : Json → Read (Option α)
  | .null => .ok none
  | v => (read v).map some

/-- The name of a variant without content, by itself or as the only field of an object. -/
def readVariant : Json → Read String
  | .string s => .ok s
  | .object [(s, .null)] => .ok s
  | _ => .error .malformed

/-- As content of a scalar, no fields are as good as null. -/
def readScalar (v : Json) : Read Scalar := do
  let name ← match v with
    | .object [(s, .object [])] => .ok s
    | _ => readVariant v
  match Scalar.ofName? name with
  | some s => .ok s
  | none => .error .malformed

def readSqlType : Json → Read SqlType
  | .object [("scalar", v)] => (readScalar v).map .scalar
  | .object [("array", v)] => (readScalar v).map .array
  | _ => .error .malformed

def readMethod (v : Json) : Read IndexMethod := do
  match ← readVariant v with
  | "default" => .ok .standard
  | "gin" => .ok .gin
  | _ => .error .malformed

/-- A word of 64 bits. -/
def readFlags : Json → Read ColumnFlags
  | .integer n => if 0 ≤ n ∧ n < UInt64.size then .ok ⟨BitVec.ofInt 64 n⟩ else .error .malformed
  | _ => .error .malformed

/-- The fields of an object. An object that goes wrong ends in an error. -/
def readObject : Json → Read (List (Read (String × Json)))
  | .object fields => .ok (fields.map .ok)
  | .cut (.object fields) => .ok (fields.map .ok ++ [.error .malformed])
  | _ => .error .malformed

/-- Items in the places of named fields. There must not be more items than places. -/
def placed : List String → List (Read Json) → List (Read (String × Json))
  | _, [] => []
  | [], _ :: _ => [.error .malformed]
  | name :: names, item :: items => item.map (name, ·) :: placed names items

/-- The fields of a record, which may also be given by position. -/
def readFields (names : List String) (v : Json) : Read (List (Read (String × Json))) :=
  match v with
  | .array _ | .cut (.array _) => (readItems v).map (placed names)
  | _ => readObject v

/-- Takes in fields one after the other. -/
def gather {σ : Type} (take : σ → String × Json → Read σ) (start : σ)
    (fields : List (Read (String × Json))) : Read σ :=
  fields.foldlM (fun s field => field >>= take s) start

/-- Fills a place that has to be empty. -/
def fill {α : Type} (place : Option α) (value : Read α) : Read (Option α) :=
  match place with
  | some _ => .error .malformed
  | none => value.map some

def require {α : Type} (place : Option α) : Read α :=
  match place with
  | some x => .ok x
  | none => .error .malformed

/-- How deep a value may nest inside a column. -/
def columnDepth : Nat := 122

structure ColumnFields where
  name : Option String
  sqlType : Option SqlType
  flags : Option ColumnFlags
  member : Option (Option String)

/-- A field of a column. Fields that are skipped must be values all the same. -/
def columnField (f : ColumnFields) : String × Json → Read ColumnFields
  | (key, v) =>
    if !v.isHeld columnDepth then .error .malformed
    else match key with
      | "name" => do return { f with name := ← fill f.name (readString v) }
      | "sql_type" => do return { f with sqlType := ← fill f.sqlType (readSqlType v) }
      | "flags" => do return { f with flags := ← fill f.flags (readFlags v) }
      | "member" => do return { f with member := ← fill f.member (readOptional readString v) }
      | _ => .ok f

/-- A member and its definition. A column can not be given by position. -/
def readColumn (v : Json) : Read (String × ColumnDef) := do
  let f ← gather columnField ⟨none, none, none, none⟩ (← readObject v)
  let name ← require f.name
  let d : ColumnDef := ⟨name, ← require f.sqlType, f.flags.getD .empty⟩
  return ((f.member.getD none).getD name, d)

/-- A constraint whose columns are names. -/
structure RawConstraint where
  name : String
  method : IndexMethod
  columns : List String

structure ConstraintFields where
  name : Option String
  method : Option IndexMethod
  columns : Option (List String)

def constraintField (withMethod : Bool) (f : ConstraintFields) :
    String × Json → Read ConstraintFields
  | (key, v) =>
    match key with
    | "name" => do return { f with name := ← fill f.name (readString v) }
    | "method" =>
      if withMethod then do return { f with method := ← fill f.method (readMethod v) } else .ok f
    | "columns" => do return { f with columns := ← fill f.columns (readList readString v) }
    | _ => .ok f

def readConstraint (withMethod : Bool) (v : Json) : Read RawConstraint := do
  let names := if withMethod then ["name", "method", "columns"] else ["name", "columns"]
  let f ← gather (constraintField withMethod) ⟨none, none, none⟩ (← readFields names v)
  return ⟨← require f.name, f.method.getD .standard, ← require f.columns⟩

/-- The definitions that the names of a constraint stand for. -/
def resolve (table : String) (definitions : List ColumnDef) (names : List String) :
    Read (List ColumnDef) :=
  names.mapM fun name =>
    match definitions.find? (·.name == name) with
    | some d => .ok d
    | none => .error (.unknownColumn table name)

def resolveKey (table : String) (definitions : List ColumnDef) (c : RawConstraint) : Read Key :=
  (resolve table definitions c.columns).map fun columns => ⟨c.name, columns⟩

def resolveIndex (table : String) (definitions : List ColumnDef) (c : RawConstraint) :
    Read Index :=
  (resolve table definitions c.columns).map fun columns => ⟨c.name, c.method, columns⟩

structure TableFields where
  name : Option String
  columns : Option (List (String × ColumnDef))
  primaryKey : Option (Option RawConstraint)
  indices : Option (List RawConstraint)
  uniques : Option (List RawConstraint)

def tableField (f : TableFields) : String × Json → Read TableFields
  | (key, v) =>
    match key with
    | "name" => do return { f with name := ← fill f.name (readString v) }
    | "columns" => do return { f with columns := ← fill f.columns (readList readColumn v) }
    | "primary_key" => do
      return { f with
        primaryKey := ← fill f.primaryKey (readOptional (readConstraint false) v) }
    | "indices" => do
      return { f with indices := ← fill f.indices (readList (readConstraint true) v) }
    | "uniques" => do
      return { f with uniques := ← fill f.uniques (readList (readConstraint false) v) }
    | _ => .ok f

/-- Constraints are resolved once all fields are read: the key, then indices, then uniques. -/
def readTable (id : TableId) (v : Json) : Read Table := do
  let fields ← readFields ["name", "columns", "primary_key", "indices", "uniques"] v
  let f ← gather tableField ⟨none, none, none, none, none⟩ fields
  let name ← require f.name
  let members ← require f.columns
  let definitions := members.map (·.2)
  let primaryKey ← match f.primaryKey.getD none with
    | some c => (resolveKey name definitions c).map some
    | none => .ok none
  let indices ← (f.indices.getD []).mapM (resolveIndex name definitions)
  let uniques ← (f.uniques.getD []).mapM (resolveKey name definitions)
  return ⟨id, name, Table.bindAll id name members, primaryKey, indices, uniques⟩

/-- Tables get identities in order, from `id` on. -/
def readTables (id : TableId) : List (Read Json) → Read (List Table)
  | [] => .ok []
  | v :: vs => do
    let t ← readTable id (← v)
    let rest ← readTables ⟨id.index + 1⟩ vs
    return t :: rest

structure DatabaseFields where
  name : Option String
  tables : Option (List Table)

def databaseField (first : TableId) (f : DatabaseFields) : String × Json → Read DatabaseFields
  | (key, v) =>
    match key with
    | "name" => do return { f with name := ← fill f.name (readString v) }
    | "tables" => do
      return { f with tables := ← fill f.tables (readItems v >>= readTables first) }
    | _ => .ok f

end Document

namespace Database

open Document

def toJson (db : Database) : Json :=
  .object [("name", .string db.name), ("tables", .array (db.tables.map tableToJson))]

/-- The database that a value describes, its tables with identities from `first` on. -/
def ofJson (first : TableId) (v : Json) : Except DocumentError Database := do
  let f ← gather (databaseField first) ⟨none, none⟩ (← readFields ["name", "tables"] v)
  return ⟨← require f.name, ← require f.tables⟩

end Database

end DeclarativeSql
