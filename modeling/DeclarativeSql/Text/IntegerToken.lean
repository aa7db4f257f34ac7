import DeclarativeSql.Text.SourceToken

/-!
# Integer tokens

An integer in source text: digits in base ten, or in base two, eight or sixteen after `0b`, `0o` and
`0x`, underscores between them, and a suffix that names a type. A minus in front of it is a token of
its own.
-/
namespace DeclarativeSql.IntegerToken

def digit? (base : Nat) (c : Char) : Option Nat :=
  if c.isDigit then some (c.toNat - '0'.toNat)
  else if base ≤ 10 then none
  else if 'a' ≤ c && c ≤ 'f' then some (c.toNat - 'a'.toNat + 10)
  else if 'A' ≤ c && c ≤ 'F' then some (c.toNat - 'A'.toNat + 10)
  else none

/-- A suffix is an identifier. -/
def isSuffix : List Char → Bool
  | [] => true
  | c :: rest => CharClass.isIdentifierStart c && rest.all CharClass.isIdentifier

/-- What follows an `e` makes the number a decimal fraction. -/
def isExponent (hasDigit : Bool) : List Char → Bool
  | [] => hasDigit
  | c :: rest =>
    if c = '_' then isExponent hasDigit rest
    else if c = '-' || c = '+' then true
    else if c.isDigit then isExponent true rest
    else hasDigit && isSuffix (c :: rest)

/-- Reads digits on top of a value, which is there if a digit was. -/
def digits? (base : Nat) (value : Option Nat) : List Char → Option Nat
  | [] => value
  | c :: rest =>
    if c = '_' then digits? base value rest
    else
      match digit? base c with
      | some d => if d < base then digits? base (some (base * value.getD 0 + d)) rest else none
      | none =>
        if base = 10 && (c == '.' || (c.toLower == 'e' && isExponent false rest)) then none
        else if isSuffix (c :: rest) then value
        else none

/-- The integer that a spelling stands for. -/
def magnitude? : List Char → Option Nat
  | '0' :: 'x' :: rest => digits? 16 none rest
  | '0' :: 'o' :: rest => digits? 8 none rest
  | '0' :: 'b' :: rest => digits? 2 none rest
  | c :: rest => if c.isDigit then digits? 10 none (c :: rest) else none
  | [] => none

/-- An integer at the front of some tokens: whether it is negative, its magnitude, and the tokens
that follow it. -/
def read? : List SourceToken → Option (Bool × Nat × List SourceToken)
  | ⟨.symbol, ['-']⟩ :: ⟨.number, spelling⟩ :: rest =>
    (magnitude? spelling).map fun n => (true, n, rest)
  | ⟨.number, spelling⟩ :: rest => (magnitude? spelling).map fun n => (false, n, rest)
  | _ => none

end DeclarativeSql.IntegerToken
