import DeclarativeSql.Schema.Flags
import DeclarativeSql.Value.Basic

/-!
# Field types

The types a record field may have, what a value of such a type is, how it is turned into a
parameter value, and which parameter values read back as one.
-/
namespace DeclarativeSql

/-- The field types that are neither optional nor lists. -/
inductive FieldScalar
  | bool
  | char
  | int16
  | int32
  | int64
  | float32
  | float64
  | text
  | timestamp
  deriving DecidableEq

inductive FieldType
  | scalar (s : FieldScalar)
  | optional (t : FieldType)
  | list (t : FieldType)
  deriving DecidableEq

namespace FieldScalar

abbrev Carrier : FieldScalar → Type
  | bool => Bool
  | char => Char
  | int16 => Int16
  | int32 => Int32
  | int64 => Int64
  | float32 => Single
  | float64 => Double
  | text => String
  | timestamp => Timestamp

/-- The column type that holds the field. -/
def column : FieldScalar → Scalar
  | bool => .bool
  | char => .char
  | int16 => .int16
  | int32 => .int32
  | int64 => .int64
  | float32 => .float32
  | float64 => .float64
  | text => .text
  | timestamp => .timestamp

/-- What error messages say was expected. -/
def expected : FieldScalar → String
  | bool => "bool"
  | char => "single character"
  | int16 => "i16"
  | int32 => "i32"
  | int64 => "i64"
  | float32 => "f32"
  | float64 => "f64"
  | text => "text"
  | timestamp => "timestamp"

def toValue : (s : FieldScalar) → s.Carrier → Value
  | bool, b => .bool b
  | char, c => .text (String.singleton c)
  | int16, n => .int n.toInt64
  | int32, n => .int n.toInt64
  | int64, n => .int n
  | float32, x => .float x.toDouble
  | float64, x => .float x
  | text, s => .text s
  | timestamp, t => .timestamp t

/-- A number read as a float may have been an integer. -/
def float? : Value → Option Double
  | .float x => some x
  | .int n => some (.ofInt n.toInt)
  | _ => none

def char? (s : String) : Option Char :=
  match s.toList with
  | [c] => some c
  | _ => none

/-- An integer reads as a narrower one only if it fits. -/
def ofValue? : (s : FieldScalar) → Value → Option s.Carrier
  | bool, .bool b => some b
  | char, .text s => char? s
  | int16, .int n => if n.toInt16.toInt64 = n then some n.toInt16 else none
  | int32, .int n => if n.toInt32.toInt64 = n then some n.toInt32 else none
  | int64, .int n => some n
  | float32, v => (float? v).map Double.toSingle
  | float64, v => float? v
  | text, .text s => some s
  | timestamp, .timestamp t => some t
  | _, _ => none

end FieldScalar

namespace FieldType

abbrev Carrier : FieldType → Type
  | scalar s => s.Carrier
  | optional t => Option t.Carrier
  | list t => List t.Carrier

/-- The element type of the column, through all optional and list layers. -/
def element : FieldType → Scalar
  | scalar s => s.column
  | optional t => t.element
  | list t => t.element

/-- A list makes the column an array, an optional layer leaves its type alone. -/
def sqlType : FieldType → SqlType
  | scalar s => .scalar s.column
  | optional t => t.sqlType
  | list t => .array t.element

/-- Only an optional layer on the outside makes the column nullable. -/
def implied : FieldType → ColumnFlags
  | scalar _ => .empty
  | optional t => t.implied ||| .nullable
  | list _ => .empty

def expected : FieldType → String
  | scalar s => s.expected
  | optional t => t.expected
  | list _ => "array"

def toValue : (t : FieldType) → t.Carrier → Value
  | scalar s, x => s.toValue x
  | optional _, none => .null
  | optional t, some x => t.toValue x
  | list t, xs => .array (xs.map t.toValue)

/-- An optional field takes NULL as absent; a list is read as a whole or not at all. -/
def ofValue? : (t : FieldType) → Value → Option t.Carrier
  | scalar s, v => s.ofValue? v
  | optional t, v => if v.isNull then some none else (t.ofValue? v).map some
  | list t, .array items => items.mapM t.ofValue?
  | list _, _ => none

end FieldType

end DeclarativeSql
