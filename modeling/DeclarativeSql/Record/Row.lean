import DeclarativeSql.Record.FieldType

/-!
# Rows and records

A record is read from a row by position. The first field that does not convert decides the error.
-/
namespace DeclarativeSql

structure Row where
  values : List Value

namespace Row

def get? (row : Row) (index : Nat) : Option Value := row.values[index]?

def text? (row : Row) (index : Nat) : Option String := (row.get? index).bind Value.text?

def size (row : Row) : Nat := row.values.length

def isEmpty (row : Row) : Bool := row.values.isEmpty

/-- The value at a position, read by `read`. -/
def readWith {α : Type} (expected : String) (read : Value → Option α) (row : Row) (index : Nat) :
    Except Error α :=
  match row.get? index with
  | none => .error (.rowMapping index expected "no column")
  | some v =>
    match read v with
    | some x => .ok x
    | none => .error (.rowMapping index expected v.kind)

def read (t : FieldType) (row : Row) (index : Nat) : Except Error t.Carrier :=
  row.readWith t.expected t.ofValue? index

/-- What is expected where every value will do. -/
def anyExpected : String := "any value"

def readAny (row : Row) (index : Nat) : Except Error Value := row.readWith anyExpected some index

end Row

/-- One field of each type, in order. -/
abbrev Fields : List FieldType → Type
  | [] => Unit
  | t :: ts => t.Carrier × Fields ts

namespace Fields

def readFrom (row : Row) : (ts : List FieldType) → (index : Nat) → Except Error (Fields ts)
  | [], _ => .ok ()
  | t :: ts, index => do
    let x ← row.read t index
    let rest ← readFrom row ts (index + 1)
    return (x, rest)

/-- A record whose fields stand at the front of a row. -/
def read (ts : List FieldType) (row : Row) : Except Error (Fields ts) := readFrom row ts 0

def toValues : (ts : List FieldType) → Fields ts → List Value
  | [], _ => []
  | t :: ts, (x, rest) => t.toValue x :: toValues ts rest

def toRow (ts : List FieldType) (r : Fields ts) : Row := ⟨toValues ts r⟩

end Fields

end DeclarativeSql
