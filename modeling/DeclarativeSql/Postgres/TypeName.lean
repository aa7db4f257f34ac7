import DeclarativeSql.Schema.SqlType

/-!
# Type names of the server

The catalogue calls an array type by its element's name behind an underscore, a statement puts
brackets after it. Some types have a second name that is read but never written.
-/
namespace DeclarativeSql

namespace Scalar

def catalogName : Scalar → String
  | bool => "bool"
  | char => "char"
  | int16 => "int2"
  | int32 => "int4"
  | int64 => "int8"
  | float32 => "float4"
  | float64 => "float8"
  | text => "text"
  | uuid => "uuid"
  | timestamp => "timestamp"

def ofCatalogName? (name : String) : Option Scalar :=
  match name with
  | "bool" => some bool
  | "char" | "bpchar" => some char
  | "int2" => some int16
  | "int4" => some int32
  | "int8" => some int64
  | "float4" => some float32
  | "float8" => some float64
  | "text" | "varchar" => some text
  | "uuid" => some uuid
  | "timestamp" => some timestamp
  | _ => none

end Scalar

namespace SqlType

def catalogName : SqlType → String
  | scalar s => s.catalogName
  | array s => "_" ++ s.catalogName

def ofCatalogName? (name : String) : Option SqlType :=
  match name.toList with
  | '_' :: element => (Scalar.ofCatalogName? (String.ofList element)).map array
  | _ => (Scalar.ofCatalogName? name).map scalar

theorem ofCatalogName?_catalogName (t : SqlType) : ofCatalogName? t.catalogName = some t := by
  rcases t with s | s <;> cases s <;> rfl

/-- The type in a column definition. Only the types that can count have a serial form. -/
def postgresName (serial : Bool) : SqlType → String
  | scalar .int32 => if serial then "serial4" else "int4"
  | scalar .int64 => if serial then "serial8" else "int8"
  | scalar s => s.catalogName
  | array s => s.catalogName ++ "[]"

end SqlType

end DeclarativeSql
