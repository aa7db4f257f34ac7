/-!
# Column types

A column holds one value of a scalar type or a one-dimensional array of them.
-/
namespace DeclarativeSql

/-- Scalar types, declared in the order in which `SqlType.compare` ranks them. -/
inductive Scalar
  | bool
  | char
  | int16
  | int32
  | int64
  | float32
  | float64
  | text
  | uuid
  | timestamp
  deriving DecidableEq

namespace Scalar

def all : List Scalar :=
  [bool, char, int16, int32, int64, float32, float64, text, uuid, timestamp]

def name : Scalar → String
  | bool => "bool"
  | char => "char"
  | int16 => "int16"
  | int32 => "int32"
  | int64 => "int64"
  | float32 => "float32"
  | float64 => "float64"
  | text => "text"
  | uuid => "uuid"
  | timestamp => "timestamp"

def ofName? (s : String) : Option Scalar :=
  all.find? (·.name == s)

/-- Only the two wider integer types can count upwards by themselves. -/
def supportsSerial : Scalar → Bool
  | int32 | int64 => true
  | _ => false

end Scalar

inductive SqlType
  | scalar (element : Scalar)
  | array (element : Scalar)
  deriving DecidableEq

namespace SqlType

def element : SqlType → Scalar
  | scalar s => s
  | array s => s

def isArray : SqlType → Bool
  | scalar _ => false
  | array _ => true

def toArray (t : SqlType) : SqlType := array t.element

def name : SqlType → String
  | scalar s => s.name
  | array s => s.name ++ "[]"

/-- An array has no serial form, whatever its element is. -/
def supportsSerial : SqlType → Bool
  | scalar s => s.supportsSerial
  | array _ => false

/-- Every scalar type comes before every array type; equal shapes go by element. -/
def rank : SqlType → Nat × Nat
  | scalar s => (0, s.ctorIdx)
  | array s => (1, s.ctorIdx)

def compare (a b : SqlType) : Ordering :=
  (Ord.compare a.rank.1 b.rank.1).then (Ord.compare a.rank.2 b.rank.2)

end SqlType

end DeclarativeSql
