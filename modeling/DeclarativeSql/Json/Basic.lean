import DeclarativeSql.Value.Binary

/-!
# JSON values

Numbers keep the difference between an integer and a decimal with a fraction or an exponent, and
objects keep their fields in order, repeated ones included.
-/
namespace DeclarativeSql

inductive Json
  | null
  | bool (b : Bool)
  | integer (n : Int)
  /-- The number `mantissa * 10 ^ exponent`, with a mantissa of 64 bits and a sign. -/
  | decimal (mantissa exponent : Int)
  | string (s : String)
  | array (items : List Json)
  | object (fields : List (String × Json))
  /-- A text whose escapes name no character. -/
  | malformed
  /-- What stands in front of the place where an array, an object or the whole text goes wrong. -/
  | cut (front : Json)
  deriving Inhabited

namespace Json

/-- A decimal that is no finite number of the 64-bit format. Its mantissa and its power of ten are
rounded before they are multiplied, so a decimal close to the greatest number may fall on either
side. -/
def isHuge (mantissa exponent : Int) : Bool :=
  if mantissa = 0 || exponent < 0 then false
  else if 308 < exponent then true
  else
    let product := binary64.multiply (binary64.round mantissa.natAbs 0)
      (binary64.round (Nat.pow 10 exponent.toNat) 0)
    binary64.magnitude product == .infinite

mutual

/-- A value that can be held in memory: every text is one, every number is finite, and values nest
less than `depth` deep. -/
def isHeld (depth : Nat) : Json → Bool
  | malformed => false
  | cut _ => false
  | decimal m e => !isHuge m e
  | array items =>
    match depth with
    | 0 => false
    | depth + 1 => itemsHeld depth items
  | object fields =>
    match depth with
    | 0 => false
    | depth + 1 => fieldsHeld depth fields
  | _ => true

def itemsHeld (depth : Nat) : List Json → Bool
  | [] => true
  | v :: vs => isHeld depth v && itemsHeld depth vs

def fieldsHeld (depth : Nat) : List (String × Json) → Bool
  | [] => true
  | (_, v) :: vs => isHeld depth v && fieldsHeld depth vs

end

end Json

end DeclarativeSql
