import DeclarativeSql.Json.Lexer
import DeclarativeSql.Json.Writer
import DeclarativeSql.Value.Basic

/-!
# Values as JSON

Values and their JSON form determine each other: floats are given by the hexadecimal digits of their
words, and timestamps by their parts.
-/
namespace DeclarativeSql

/-- A word in hexadecimal digits, filled up to `width`. -/
def hexText (width n : Nat) : String :=
  String.ofList ((List.range width).reverse.map fun i => Json.hexDigit (n / Nat.pow 16 i % 16))

def hexValue? (s : String) : Option Nat :=
  s.toList.foldlM (fun n c => (Json.hexValue? c).map (16 * n + ·)) 0

def Double.toJson (x : Double) : Json :=
  .object [("f64", .string (hexText 16 x.bits.toNat))]

def Single.toJson (x : Single) : Json :=
  .object [("f32", .string (hexText 8 x.bits.toNat))]

namespace Timestamp

def toJson (t : Timestamp) : Json :=
  .object [("ts", .array (.integer t.year ::
    [t.month, t.day, t.hour, t.minute, t.second, t.nanos].map fun (n : Nat) => .integer n))]

/-- A part that is not negative. -/
def part? : Json → Option Nat
  | .integer n => if 0 ≤ n then some n.toNat else none
  | _ => none

def ofJson? : Json → Option Timestamp
  | .array (.integer year :: parts) =>
    match parts.mapM part? with
    | some [month, day, hour, minute, second, nanos] =>
      some ⟨year, month, day, hour, minute, second, nanos⟩
    | _ => none
  | _ => none

end Timestamp

namespace Value

mutual

def toJson : Value → Json
  | null => .null
  | bool b => .bool b
  | int n => .integer n.toInt
  | float x => x.toJson
  | text s => .string s
  | timestamp t => t.toJson
  | array items => .array (itemsToJson items)

def itemsToJson : List Value → List Json
  | [] => []
  | v :: vs => v.toJson :: itemsToJson vs

end

mutual

def ofJson? : Json → Option Value
  | .null => some null
  | .bool b => some (bool b)
  | .integer n => some (int (.ofInt n))
  | .string s => some (text s)
  | .array items => (itemsOfJson? items).map array
  | .object [("f64", .string digits)] => (hexValue? digits).map fun n => float ⟨.ofNat n⟩
  | .object [("ts", parts)] => (Timestamp.ofJson? parts).map timestamp
  | _ => none

def itemsOfJson? : List Json → Option (List Value)
  | [] => some []
  | v :: vs =>
    match ofJson? v, itemsOfJson? vs with
    | some v, some vs => some (v :: vs)
    | _, _ => none

end

end Value

end DeclarativeSql
