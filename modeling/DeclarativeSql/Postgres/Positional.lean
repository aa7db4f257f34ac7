import DeclarativeSql.Text.Placeholder

/-!
# Positional placeholders

The server takes its parameters by position, counted from one.
-/
namespace DeclarativeSql.Postgres

/-- Numbers of placeholders are 64-bit words, and the successor of the last one is zero. The digits
of a larger number are dropped. -/
def positionalPart : TextPart → List Char
  | .plain c => [c]
  | .placeholder digits =>
    let n := TextPart.number digits
    if n < UInt64.size then '$' :: Nat.toDigits 10 (n.toUInt64 + 1).toNat else ['@', 'p']

/-- `@p0` becomes `$1`, and so on. -/
def toPositional (text : String) : String :=
  String.ofList ((TextPart.split text.toList).flatMap positionalPart)

end DeclarativeSql.Postgres
