import DeclarativeSql.Value.Binary

/-!
# Positional decimals

A decimal is `digits * 10 ^ exponent`. A binary number is written with the fewest digits that read
back as the same number, in positional notation whatever its size.
-/
namespace DeclarativeSql

structure Decimal where
  digits : Nat
  exponent : Int
  deriving DecidableEq

namespace Decimal

/-- A fraction written in `places` digits, without the zeros at its end. -/
def fractionText (fraction places : Nat) : String :=
  let digits := Nat.toDigits 10 fraction
  let padded := List.replicate (places - digits.length) '0' ++ digits
  String.ofList (padded.reverse.dropWhile (· == '0')).reverse

/-- Plain digits, with a point only in front of a fraction that is not zero. -/
def positional : Decimal → String
  | ⟨digits, .ofNat zeros⟩ => toString (digits * Nat.pow 10 zeros)
  | ⟨digits, .negSucc n⟩ =>
    let unit := Nat.pow 10 (n + 1)
    let fraction := digits % unit
    let whole := toString (digits / unit)
    if fraction = 0 then whole else whole ++ "." ++ fractionText fraction (n + 1)

end Decimal

/-- A positive rational number. -/
structure Ratio where
  num : Nat
  den : Nat
  deriving DecidableEq

namespace Ratio

/-- `m * b ^ e`. -/
def scaled (m b : Nat) : Int → Ratio
  | .ofNat e => ⟨m * b.pow e, 1⟩
  | .negSucc e => ⟨m, b.pow (e + 1)⟩

def mul (a b : Ratio) : Ratio := ⟨a.num * b.num, a.den * b.den⟩

def floor (a : Ratio) : Nat := a.num / a.den

def lt (a b : Ratio) : Bool := a.num * b.den < b.num * a.den

def le (a b : Ratio) : Bool := a.num * b.den ≤ b.num * a.den

/-- How many times a number below one has to be multiplied by ten to reach one, at most `limit`. -/
def leadingZeros (a : Ratio) : Nat → Nat
  | 0 => 0
  | limit + 1 => if a.den ≤ a.num then 0 else leadingZeros ⟨a.num * 10, a.den⟩ limit + 1

/-- The `k` with `10 ^ (k - 1) ≤ a < 10 ^ k`. -/
def order (a : Ratio) : Int :=
  if a.den ≤ a.num then (Nat.toDigits 10 a.floor).length
  else 1 - (a.leadingZeros (Nat.toDigits 10 a.den).length : Int)

end Ratio

/-- The numbers that read back as a given one: from `low` to `high`, ends included or not. -/
structure Interval where
  value : Ratio
  low : Ratio
  high : Ratio
  closed : Bool

namespace Interval

def contains (i : Interval) (x : Ratio) : Bool :=
  if i.closed then i.low.le x && x.le i.high else i.low.lt x && x.lt i.high

/-- Of the two multiples of `10 ^ s` around the value, the one that reads back. Of two, the nearer,
and the larger if both are equally near. -/
def onGrid (i : Interval) (s : Int) : Option Decimal :=
  let below := (i.value.mul (.scaled 1 10 (-s))).floor
  let above := below + 1
  let twice := (Ratio.scaled 2 10 (-s)).mul i.value
  match i.contains (.scaled below 10 s), i.contains (.scaled above 10 s) with
  | true, true => some ⟨if twice.lt ⟨below + above, 1⟩ then below else above, s⟩
  | true, false => some ⟨below, s⟩
  | false, true => some ⟨above, s⟩
  | false, false => none

/-- The first hit on the grids of one digit, two digits, and so on up to seventeen, which always
suffice for a number of the 64-bit format. -/
def shortest (i : Interval) : Decimal :=
  let top := i.value.order
  match (List.range 17).findSome? fun (n : Nat) => i.onGrid (top - 1 - n) with
  | some d => d
  | none => ⟨i.value.floor, 0⟩

end Interval

namespace BinaryFormat

/-- Half a place on either side, and half of that below a power of two, where the numbers lie twice
as close together. The ends read back if the mantissa is even. -/
def interval (f : BinaryFormat) (m : Nat) (e : Int) : Interval :=
  let down := if m = Nat.pow 2 f.fractionBits && f.minExponent < e then 1 else 2
  { value := .scaled (4 * m) 2 (e - 2)
    low := .scaled (4 * m - down) 2 (e - 2)
    high := .scaled (4 * m + 2) 2 (e - 2)
    closed := m % 2 == 0 }

/-- The sign stays on a zero; a NaN has none. -/
def positional (f : BinaryFormat) (word : Nat) : String :=
  let sign := if f.isNegative word then "-" else ""
  match f.magnitude word with
  | .nan _ => "NaN"
  | .infinite => sign ++ "inf"
  | .finite 0 _ => sign ++ "0"
  | .finite m e => sign ++ (f.interval m e).shortest.positional

end BinaryFormat

def Double.positional (x : Double) : String := binary64.positional x.bits.toNat

end DeclarativeSql
