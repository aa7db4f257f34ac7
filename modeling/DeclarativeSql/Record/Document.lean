import DeclarativeSql.Record.Row
import DeclarativeSql.Value.Document

/-!
# Fields as JSON
-/
namespace DeclarativeSql

def FieldScalar.toJson : (s : FieldScalar) → s.Carrier → Json
  | bool, b => .bool b
  | char, c => .string (String.singleton c)
  | int16, n => .integer n.toInt
  | int32, n => .integer n.toInt
  | int64, n => .integer n.toInt
  | float32, x => Single.toJson x
  | float64, x => Double.toJson x
  | text, s => .string s
  | timestamp, t => Timestamp.toJson t

def FieldType.toJson : (t : FieldType) → t.Carrier → Json
  | scalar s, x => s.toJson x
  | optional _, none => .null
  | optional t, some x => t.toJson x
  | list t, xs => .array (xs.map t.toJson)

def Fields.toJson : (ts : List FieldType) → Fields ts → List Json
  | [], _ => []
  | t :: ts, (x, rest) => t.toJson x :: toJson ts rest

end DeclarativeSql
