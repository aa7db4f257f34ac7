import DeclarativeSql.Text.SourceToken

/-!
# Text tokens

What a text between double quotes stands for. A raw text stands for itself; in any other one a
backslash and what follows it stand for one character, or for none at the end of a line.
-/
namespace DeclarativeSql.TextToken

/-- Where the reader of a text stands. -/
inductive Mode
  | plain
  | escape
  /-- In an escape by two hexadecimal digits, with the value and number of those so far. -/
  | byte (value count : Nat)
  /-- In an escape by hexadecimal digits in braces. -/
  | unicode (value : Nat)
  /-- Blanks after a backslash at the end of a line. -/
  | blank

def hexValue (c : Char) : Nat :=
  if c.isDigit then c.toNat - '0'.toNat
  else if 'a' ≤ c then c.toNat - 'a'.toNat + 10
  else c.toNat - 'A'.toNat + 10

def escaped (c : Char) : Char :=
  match c with
  | 'n' => '\n'
  | 'r' => '\r'
  | 't' => '\t'
  | '0' => '\x00'
  | _ => c

/-- The characters up to the closing quote. A line ends in one character. -/
def unescape (mode : Mode) : List Char → List Char
  | [] => []
  | c :: rest =>
    match mode with
    | .escape =>
      match c with
      | 'x' => unescape (.byte 0 0) rest
      | 'u' => unescape (.unicode 0) rest
      | '\n' | '\r' => unescape .blank rest
      | _ => escaped c :: unescape .plain rest
    | .byte value count =>
      let value := 16 * value + hexValue c
      if count = 0 then unescape (.byte value 1) rest
      else Char.ofNat value :: unescape .plain rest
    | .unicode value =>
      match c with
      | '\x7b' | '_' => unescape (.unicode value) rest
      | '\x7d' => Char.ofNat value :: unescape .plain rest
      | _ => unescape (.unicode (16 * value + hexValue c)) rest
    | .blank | .plain =>
      match mode, c with
      | .blank, ' ' | .blank, '\t' | .blank, '\n' | .blank, '\r' => unescape .blank rest
      | _, '"' => []
      | _, '\\' => unescape .escape rest
      | _, '\r' => unescape .plain rest
      | _, _ => c :: unescape .plain rest

/-- The characters up to the last quote. -/
def rawContent (body : List Char) : List Char :=
  (body.reverse.dropWhile (· != '"')).tail.reverse

/-- The text of a token, if it is made of characters and not of bytes. -/
def value? (t : SourceToken) : Option String :=
  if t.kind ≠ .text then none
  else
    match t.spelling with
    | '"' :: body => some (String.ofList (unescape .plain body))
    | 'r' :: body => some (String.ofList (rawContent (body.dropWhile (· == '#')).tail))
    | _ => none

end DeclarativeSql.TextToken
