import DeclarativeSql.Text.Positional
import DeclarativeSql.Text.Quoted
import DeclarativeSql.Value.Timestamp

/-!
# Values

What a parameter is bound to and what a row holds. A value is never written into the text of a
statement; its own text is for people to read.
-/
namespace DeclarativeSql

inductive Value
  | null
  | bool (b : Bool)
  | int (n : Int64)
  | float (x : Double)
  | text (s : String)
  | timestamp (t : Timestamp)
  | array (items : List Value)

namespace Value

def isNull : Value → Bool
  | null => true
  | _ => false

def int? : Value → Option Int64
  | int n => some n
  | _ => none

def text? : Value → Option String
  | text s => some s
  | _ => none

/-- The kind of a value, as error messages call it. -/
def kind : Value → String
  | null => "null"
  | bool _ => "bool"
  | int _ => "integer"
  | float _ => "float"
  | text _ => "text"
  | timestamp _ => "timestamp"
  | array _ => "array"

mutual

/-- A value the way a statement would spell it. -/
def render : Value → String
  | null => "NULL"
  | bool b => if b then "TRUE" else "FALSE"
  | int n => toString n.toInt
  | float x => x.positional
  | text s => Quoted.literal s
  | timestamp t => Quoted.literal t.text
  | array items => "ARRAY[" ++ String.intercalate "," (renderItems items) ++ "]"

def renderItems : List Value → List String
  | [] => []
  | v :: vs => v.render :: renderItems vs

end

mutual

/-- Equality of values, which compares floats as numbers. -/
def same : Value → Value → Bool
  | null, null => true
  | bool a, bool b => a == b
  | int a, int b => a == b
  | float a, float b => a.sameNumber b
  | text a, text b => a == b
  | timestamp a, timestamp b => a == b
  | array a, array b => sameItems a b
  | _, _ => false

def sameItems : List Value → List Value → Bool
  | [], [] => true
  | v :: vs, w :: ws => v.same w && sameItems vs ws
  | _, _ => false

end

end Value

end DeclarativeSql
