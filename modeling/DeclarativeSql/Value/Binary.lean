/-!
# Binary floating point formats

A word of a binary format is a sign, a biased exponent and a fraction. Words are decoded into
`m * 2 ^ e` exactly, and `m * 2 ^ e` is rounded to the nearest word, ties to the even one.
-/
namespace DeclarativeSql

/-- Widths of the exponent and the fraction of a format. -/
structure BinaryFormat where
  exponentBits : Nat
  fractionBits : Nat
  deriving DecidableEq

def binary32 : BinaryFormat := ⟨8, 23⟩
def binary64 : BinaryFormat := ⟨11, 52⟩

/-- What a word stands for. A NaN keeps its payload. -/
inductive Magnitude
  | finite (mantissa : Nat) (exponent : Int)
  | infinite
  | nan (payload : Nat)
  deriving DecidableEq

namespace BinaryFormat

variable (f : BinaryFormat)

/-- The exponent of the last place of the smallest numbers. -/
def minExponent : Int := 2 - Nat.pow 2 (f.exponentBits - 1) - f.fractionBits

def maxBiased : Nat := Nat.pow 2 f.exponentBits - 1

/-- The word of infinity, above those of all finite numbers. -/
def infinity : Nat := f.maxBiased * Nat.pow 2 f.fractionBits

def signBit : Nat := Nat.pow 2 (f.exponentBits + f.fractionBits)

def isNegative (word : Nat) : Bool := word / f.signBit % 2 == 1

def magnitude (word : Nat) : Magnitude :=
  let fraction := word % Nat.pow 2 f.fractionBits
  let biased := word / Nat.pow 2 f.fractionBits % Nat.pow 2 f.exponentBits
  if biased = f.maxBiased then
    if fraction = 0 then .infinite else .nan fraction
  else if biased = 0 then .finite fraction f.minExponent
  else .finite (Nat.pow 2 f.fractionBits + fraction) (f.minExponent + biased - 1)

def withSign (negative : Bool) (word : Nat) : Nat :=
  if negative then f.signBit + word else word

/-- `m / 2 ^ k` to the nearest integer, a half to the even neighbour. -/
def halve (m k : Nat) : Nat :=
  let unit := Nat.pow 2 k
  let quotient := m / unit
  let rest := 2 * (m % unit)
  if rest < unit then quotient
  else if unit < rest then quotient + 1
  else quotient + quotient % 2

/-- The word nearest to `m * 2 ^ e`. Counting words upwards, a mantissa that rounds up to the next
power of two lands on the next exponent by itself. -/
def round (m : Nat) (e : Int) : Nat :=
  if m = 0 then 0 else
    let last := max (e + m.log2 - f.fractionBits) f.minExponent
    let kept := if last ≤ e then m * Nat.pow 2 (e - last).toNat else halve m (last - e).toNat
    min (kept + (last - f.minExponent).toNat * Nat.pow 2 f.fractionBits) f.infinity

/-- The word nearest to the product of two positive finite numbers. -/
def multiply (x y : Nat) : Nat :=
  match f.magnitude x, f.magnitude y with
  | .finite m d, .finite n e => f.round (m * n) (d + e)
  | _, _ => f.infinity

/-- The word of format `g` nearest to a word of format `f`. A NaN stays one, quiet, with the leading
bits of its payload. -/
def convert (g : BinaryFormat) (word : Nat) : Nat :=
  g.withSign (f.isNegative word) <|
    match f.magnitude word with
    | .finite m e => g.round m e
    | .infinite => g.infinity
    | .nan payload =>
      let quiet := Nat.pow 2 (g.fractionBits - 1)
      let leading := payload * Nat.pow 2 g.fractionBits / Nat.pow 2 f.fractionBits
      g.infinity + (quiet + leading % quiet)

end BinaryFormat

/-- A number of the 64-bit format, told apart by its bits. -/
structure Double where
  bits : UInt64
  deriving DecidableEq

/-- A number of the 32-bit format, told apart by its bits. -/
structure Single where
  bits : UInt32
  deriving DecidableEq

namespace Double

def magnitude (x : Double) : Magnitude := binary64.magnitude x.bits.toNat

def isNaN (x : Double) : Bool :=
  match x.magnitude with
  | .nan _ => true
  | _ => false

def isZero (x : Double) : Bool := x.magnitude == .finite 0 binary64.minExponent

/-- Numeric equality: a NaN equals nothing and the two zeros are equal. -/
def sameNumber (x y : Double) : Bool :=
  !x.isNaN && !y.isNaN && (x.bits == y.bits || x.isZero && y.isZero)

def ofInt (n : Int) : Double :=
  ⟨.ofNat (binary64.withSign (n < 0) (binary64.round n.natAbs 0))⟩

def toSingle (x : Double) : Single := ⟨.ofNat (binary64.convert binary32 x.bits.toNat)⟩

end Double

def Single.toDouble (x : Single) : Double := ⟨.ofNat (binary32.convert binary64 x.bits.toNat)⟩

end DeclarativeSql
