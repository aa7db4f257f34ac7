import DeclarativeSql.Json.Basic

/-!
# Tokens of a JSON text

The text is read character by character. What has been read of an unfinished token is the state
between two characters.
-/
namespace DeclarativeSql.Json

inductive Token
  | openArray
  | closeArray
  | openObject
  | closeObject
  | comma
  | colon
  /-- A literal without parts. A text that names no character is `Json.malformed`. -/
  | literal (value : Json)

/-- The characters of a text in reverse. -/
structure Text where
  reversed : List Char
  /-- An escape named no character. -/
  broken : Bool

namespace Text

def empty : Text := ⟨[], false⟩

def push (t : Text) (c : Char) : Text := ⟨c :: t.reversed, t.broken⟩

def spoil (t : Text) : Text := ⟨t.reversed, true⟩

def value (t : Text) : Json :=
  if t.broken then .malformed else .string (String.ofList t.reversed.reverse)

end Text

/-- Where the reader stands. -/
inductive Mode
  | between
  | word (reversed : List Char)
  | number (reversed : List Char)
  | text (t : Text)
  /-- After a backslash. A leading half of a surrogate pair waits for the other half. -/
  | escape (t : Text) (leading : Option Nat)
  /-- After a backslash and `u`, with the value and number of the digits so far. -/
  | unit (t : Text) (leading : Option Nat) (value count : Nat)
  /-- After the leading half of a surrogate pair. -/
  | half (t : Text) (leading : Nat)

def isJsonBlank (c : Char) : Bool := c == ' ' || c == '\t' || c == '\n' || c == '\r'

def isNumeric (c : Char) : Bool :=
  c.isDigit || c == '-' || c == '+' || c == '.' || c == 'e' || c == 'E'

def hexValue? (c : Char) : Option Nat :=
  if c.isDigit then some (c.toNat - 48)
  else if 'a' ≤ c && c ≤ 'f' then some (c.toNat - 87)
  else if 'A' ≤ c && c ≤ 'F' then some (c.toNat - 55)
  else none

def wordValue? (word : List Char) : Option Json :=
  if word = "true".toList then some (.bool true)
  else if word = "false".toList then some (.bool false)
  else if word = "null".toList then some .null
  else none

def digitsValue (digits : List Char) : Nat :=
  digits.foldl (fun n c => 10 * n + (c.toNat - 48)) 0

/-- The digits of an exponent behind its `e`. -/
def exponent? (s : List Char) : Option Int :=
  let (negative, digits) := match s with
    | '-' :: rest => (true, rest)
    | '+' :: rest => (false, rest)
    | _ => (false, s)
  if digits.isEmpty || !digits.all Char.isDigit then none
  else some (if negative then -(digitsValue digits : Int) else digitsValue digits)

/-- Reads digits on top of a value as long as it fits into 64 bits, and returns those that are
left. -/
def takeDigits (value : Nat) : List Char → Nat × List Char
  | [] => (value, [])
  | c :: rest =>
    let next := 10 * value + (c.toNat - '0'.toNat)
    if next < UInt64.size then takeDigits next rest else (value, c :: rest)

/-- A number without its sign: the digits that fit, and the power of ten that makes up for the
others. A fraction goes on with the digits that fit, whether or not some were left before it. -/
def decimalOf (negative : Bool) (whole fraction : List Char) (exponent : Int) : Json :=
  let (value, left) := takeDigits 0 whole
  let (value, leftOver) := takeDigits value fraction
  .decimal (if negative then -(value : Int) else value)
    (exponent + left.length + leftOver.length - fraction.length)

/-- Integers of 64 bits, with or without a sign, are kept as they are. A negative zero is a
decimal. -/
def integerOf (negative : Bool) (digits : List Char) : Json :=
  let n := digitsValue digits
  if negative then
    if 0 < n && n ≤ Nat.pow 2 63 then .integer (-(n : Int)) else decimalOf negative digits [] 0
  else if n < UInt64.size then .integer n
  else decimalOf negative digits [] 0

/-- An integer part without a leading zero, then a fraction and an exponent, each of which may be
missing. -/
def number? (s : List Char) : Option Json := do
  let (negative, s) := match s with
    | '-' :: rest => (true, rest)
    | _ => (false, s)
  let whole := s.takeWhile Char.isDigit
  if whole.isEmpty || (whole.head? == some '0' && 1 < whole.length) then none
  match s.dropWhile Char.isDigit with
  | [] => return integerOf negative whole
  | '.' :: s =>
    let fraction := s.takeWhile Char.isDigit
    if fraction.isEmpty then none
    match s.dropWhile Char.isDigit with
    | [] => return decimalOf negative whole fraction 0
    | e :: s =>
      if e != 'e' && e != 'E' then none
      return decimalOf negative whole fraction (← exponent? s)
  | e :: s =>
    if e != 'e' && e != 'E' then none
    return decimalOf negative whole [] (← exponent? s)

/-- A character where no token is unfinished. -/
def start (c : Char) : Option (List Token × Mode) :=
  if isJsonBlank c then some ([], .between)
  else if c.isAlpha then some ([], .word [c])
  else if c.isDigit || c == '-' then some ([], .number [c])
  else match c with
    | '"' => some ([], .text .empty)
    | '[' => some ([.openArray], .between)
    | ']' => some ([.closeArray], .between)
    | '\x7b' => some ([.openObject], .between)
    | '\x7d' => some ([.closeObject], .between)
    | ',' => some ([.comma], .between)
    | ':' => some ([.colon], .between)
    | _ => none

/-- The token that ends where the text or a character of another kind begins. -/
def finish : Mode → Option (List Token)
  | .between => some []
  | .word reversed => (wordValue? reversed.reverse).map fun v => [.literal v]
  | .number reversed => (number? reversed.reverse).map fun v => [.literal v]
  | _ => none

def simpleEscape? (c : Char) : Option Char :=
  match c with
  | '"' => some '"'
  | '\\' => some '\\'
  | '/' => some '/'
  | 'b' => some '\x08'
  | 'f' => some '\x0c'
  | 'n' => some '\n'
  | 'r' => some '\r'
  | 't' => some '\t'
  | _ => none

def isLeading (unit : Nat) : Bool := 0xd800 ≤ unit && unit < 0xdc00

def isTrailing (unit : Nat) : Bool := 0xdc00 ≤ unit && unit < 0xe000

/-- A complete unit of four hexadecimal digits. Two halves of a pair make one character; a half on
its own makes none. -/
def closeUnit (t : Text) (leading : Option Nat) (unit : Nat) : Mode :=
  match leading with
  | some first =>
    if isTrailing unit then
      .text (t.push (Char.ofNat (0x10000 + (first - 0xd800) * 0x400 + (unit - 0xdc00))))
    else if isLeading unit then .half t.spoil unit
    else .text t.spoil
  | none =>
    if isLeading unit then .half t unit
    else if isTrailing unit then .text t.spoil
    else .text (t.push (Char.ofNat unit))

/-- A character inside a text. -/
def inText (t : Text) (c : Char) : Option (List Token × Mode) :=
  if c = '"' then some ([.literal t.value], .between)
  else if c = '\\' then some ([], .escape t none)
  else if c.toNat < 32 then none
  else some ([], .text (t.push c))

/-- A character behind a word or a number, which ends there. -/
def startAfter (mode : Mode) (c : Char) : Option (List Token × Mode) := do
  let done ← finish mode
  let (more, mode) ← start c
  return (done ++ more, mode)

def step (mode : Mode) (c : Char) : Option (List Token × Mode) :=
  match mode with
  | .between => start c
  | .word reversed =>
    if c.isAlpha then some ([], .word (c :: reversed)) else startAfter mode c
  | .number reversed =>
    if isNumeric c then some ([], .number (c :: reversed)) else startAfter mode c
  | .text t => inText t c
  | .half t leading =>
    if c = '\\' then some ([], .escape t (some leading)) else inText t.spoil c
  | .escape t leading =>
    if c = 'u' then some ([], .unit t leading 0 0)
    else
      let t := if leading.isSome then t.spoil else t
      (simpleEscape? c).map fun c => ([], .text (t.push c))
  | .unit t leading value count => do
    let digit ← hexValue? c
    let value := 16 * value + digit
    if count < 3 then return ([], .unit t leading value (count + 1))
    else return ([], closeUnit t leading value)

/-- The tokens from a mode on, and whether the text is free of faults. Tokens in front of a fault
are kept. -/
def lexFrom (mode : Mode) : List Char → List Token × Bool
  | [] =>
    match finish mode with
    | some last => (last, true)
    | none => ([], false)
  | c :: rest =>
    match step mode c with
    | some (ts, mode) =>
      let (more, ok) := lexFrom mode rest
      (ts ++ more, ok)
    | none => ([], false)

def lex (s : List Char) : List Token × Bool := lexFrom .between s

end DeclarativeSql.Json
