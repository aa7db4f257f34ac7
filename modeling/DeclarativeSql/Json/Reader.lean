import DeclarativeSql.Json.Lexer

/-!
# Reading JSON

Tokens are folded over a stack of unfinished arrays and objects. A text that goes wrong is read up
to its fault.
-/
namespace DeclarativeSql.Json

/-- An unfinished array or object, its parts in reverse. Behind a broken field name an object takes
in no more fields. -/
inductive Frame
  | array (items : List Json)
  | object (fields : List (String × Json)) (key : String) (broken : Bool)

namespace Frame

def add (v : Json) : Frame → Frame
  | array items => array (v :: items)
  | object fields key true => object fields key true
  | object fields key false => object ((key, v) :: fields) key false

/-- The value that ends here. -/
def close : Frame → Json
  | array items => .array items.reverse
  | object fields _ false => .object fields.reverse
  | object fields _ true => .cut (.object fields.reverse)

/-- The value that goes wrong here. -/
def abandon : Frame → Json
  | array items => .cut (.array items.reverse)
  | object fields _ _ => .cut (.object fields.reverse)

end Frame

/-- What may follow. -/
inductive Expecting
  /-- A value, or the end of the array just opened. -/
  | firstItem
  | value
  /-- A field name, or the end of the object just opened. -/
  | firstKey
  | key
  | colon
  /-- A comma or the end of the innermost frame; nothing if there is none. -/
  | separator

structure ReaderState where
  stack : List Frame
  expecting : Expecting
  result : Option Json

namespace ReaderState

def initial : ReaderState := ⟨[], .value, none⟩

/-- Takes in a finished value. -/
def accept (stack : List Frame) (v : Json) : ReaderState :=
  match stack with
  | [] => ⟨[], .separator, some v⟩
  | frame :: rest => ⟨frame.add v :: rest, .separator, none⟩

def closeArray (st : ReaderState) : Option ReaderState :=
  match st.stack with
  | .array items :: rest => some (accept rest (Frame.array items).close)
  | _ => none

def closeObject (st : ReaderState) : Option ReaderState :=
  match st.stack with
  | .object fields key broken :: rest => some (accept rest (Frame.object fields key broken).close)
  | _ => none

def readKey (st : ReaderState) (name : Json) : Option ReaderState :=
  match st.stack, name with
  | .object fields _ broken :: rest, .string key =>
    some ⟨.object fields key broken :: rest, .colon, none⟩
  | .object fields key _ :: rest, .malformed => some ⟨.object fields key true :: rest, .colon, none⟩
  | _, _ => none

def openValue (st : ReaderState) : Token → Option ReaderState
  | .literal v => some (accept st.stack v)
  | .openArray => some ⟨.array [] :: st.stack, .firstItem, none⟩
  | .openObject => some ⟨.object [] "" false :: st.stack, .firstKey, none⟩
  | _ => none

def step (st : ReaderState) (t : Token) : Option ReaderState :=
  match st.expecting, t with
  | .firstItem, .closeArray => st.closeArray
  | .firstItem, t => st.openValue t
  | .value, t => st.openValue t
  | .firstKey, .closeObject => st.closeObject
  | .firstKey, .literal name => st.readKey name
  | .key, .literal name => st.readKey name
  | .colon, .colon => some ⟨st.stack, .value, none⟩
  | .separator, .comma =>
    match st.stack with
    | .array _ :: _ => some ⟨st.stack, .value, none⟩
    | .object _ _ _ :: _ => some ⟨st.stack, .key, none⟩
    | [] => none
  | .separator, .closeArray => st.closeArray
  | .separator, .closeObject => st.closeObject
  | _, _ => none

/-- What was read up to a fault. -/
def abandon (st : ReaderState) : Json :=
  match st.stack with
  | [] => .cut (st.result.getD .null)
  | innermost :: outer => outer.foldl (fun v frame => (frame.add v).abandon) innermost.abandon

/-- Reads tokens up to the first one that can not follow. -/
def run (st : ReaderState) (ok : Bool) : List Token → Json
  | [] =>
    match st.result with
    | some v => if ok then v else st.abandon
    | none => st.abandon
  | t :: ts =>
    match st.step t with
    | some st => st.run ok ts
    | none => st.abandon

end ReaderState

/-- The value that a text spells, or its front part if it spells none. -/
def read (text : String) : Json :=
  let (tokens, ok) := lex text.toList
  ReaderState.initial.run ok tokens

def parse? (text : String) : Option Json :=
  match read text with
  | cut _ => none
  | v => some v

end DeclarativeSql.Json
