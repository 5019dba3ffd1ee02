import WireShapes.Scalar.Integer

/-!
# Binary floating point

A decimal text denotes an exact rational number; its value in a binary format is the nearest
representable one, a tie going to the even neighbour, and infinity past the largest.  Values are
the bit patterns of the interchange formats.
-/

namespace WireShapes.Scalar

/-- A binary interchange format. -/
structure BinaryFormat where
  /-- Bits of the significand, the leading one included. -/
  precision : Nat
  exponentBits : Nat

namespace BinaryFormat

def single : BinaryFormat := ⟨24, 8⟩
def double : BinaryFormat := ⟨53, 11⟩

/-- The exponent of the smallest positive value. -/
def lowest (f : BinaryFormat) : Int :=
  3 - (1 <<< (f.exponentBits - 1) : Nat) - f.precision

/-- The bits of positive infinity. -/
def infinity (f : BinaryFormat) : Nat :=
  (1 <<< f.exponentBits - 1) <<< (f.precision - 1)

/-- The bits of a quiet NaN. -/
def nan (f : BinaryFormat) : Nat :=
  f.infinity + 1 <<< (f.precision - 2)

/-- The bit that makes a value negative. -/
def signBit (f : BinaryFormat) : Nat :=
  1 <<< (f.precision - 1 + f.exponentBits)

end BinaryFormat

/-- The quotient rounded to the nearest integer, a tie to the even one. -/
def roundQuotient (num den : Nat) : Nat :=
  let q := num / den
  let r := num % den
  if 2 * r < den then q
  else if den < 2 * r then q + 1
  else q + q % 2

/-- The exponent `e` with `2 ^ e ≤ num / den < 2 ^ (e + 1)`. -/
def binaryExponent (num den : Nat) : Int :=
  let k : Int := (num.log2 : Int) - den.log2
  let reached := if 0 ≤ k then den <<< k.toNat ≤ num else den ≤ num <<< (-k).toNat
  if reached then k else k - 1

/-- The bits of the value nearest to the positive quotient.  Counting up by one from a bit pattern
gives the next larger value, so a carry out of the significand lands in the exponent, and every
pattern from infinity on is infinity. -/
def BinaryFormat.nearest (f : BinaryFormat) (num den : Nat) : Nat :=
  let unit := max (binaryExponent num den - (f.precision - 1 : Nat)) f.lowest
  let significand :=
    if 0 ≤ unit then roundQuotient num (den <<< unit.toNat)
    else roundQuotient (num <<< (-unit).toNat) den
  min ((unit - f.lowest).toNat <<< (f.precision - 1) + significand) f.infinity

/-- A decimal number `digits · 10 ^ exponent`. -/
structure Decimal where
  digits : Nat
  exponent : Int

/-- The decimal places of a number. -/
def places (n : Nat) : Nat :=
  (Nat.toDigits 10 n).length

/-- The bits nearest to a decimal number.  Past 10 to the power 400 every format is at infinity, and
below its inverse at zero, so no larger power of ten is ever formed. -/
def BinaryFormat.ofDecimal (f : BinaryFormat) (d : Decimal) : Nat :=
  let magnitude := d.exponent + places d.digits
  if d.digits = 0 then 0
  else if 400 < magnitude then f.infinity
  else if magnitude < -400 then 0
  else if 0 ≤ d.exponent then f.nearest (d.digits * Nat.pow 10 d.exponent.toNat) 1
  else f.nearest d.digits (Nat.pow 10 (-d.exponent).toNat)

/-- Splits off the digits a text starts with. -/
def digitRun (cs : List Char) : List Char × List Char :=
  cs.span fun c => (digit? c).isSome

/-- The exponent part that ends a decimal text: nothing, or `e` and a signed numeral. -/
def exponentPart? : List Char → Option Int
  | [] => some 0
  | c :: rest => if c == 'e' || c == 'E' then signed? rest else none

/-- A decimal text without its sign: digits with an optional point, a digit on at least one side of
it, and an optional exponent. -/
def decimal? (cs : List Char) : Option Decimal :=
  let (whole, rest) := digitRun cs
  let (fraction, rest) := match rest with
    | '.' :: rest => digitRun rest
    | _ => ([], rest)
  match numeral? (whole ++ fraction), exponentPart? rest with
  | some digits, some exponent => some ⟨digits, exponent - fraction.length⟩
  | _, _ => none

/-- The bits of an unsigned floating-point text. -/
def BinaryFormat.magnitude? (f : BinaryFormat) (cs : List Char) : Option Nat :=
  let word := String.ofList (cs.map Char.toLower)
  if word = "inf" ∨ word = "infinity" then some f.infinity
  else if word = "nan" then some f.nan
  else (decimal? cs).map f.ofDecimal

/-- The bits a floating-point text stands for, blanks around it aside. -/
def BinaryFormat.ofText? (f : BinaryFormat) (text : String) : Option Nat :=
  match (Text.trim text).toList with
  | '-' :: rest => (f.magnitude? rest).map (f.signBit + ·)
  | '+' :: rest => f.magnitude? rest
  | cs => f.magnitude? cs

/-- Whether bits are those of a NaN. -/
def BinaryFormat.isNaN (f : BinaryFormat) (bits : Nat) : Bool :=
  f.infinity < bits % f.signBit

end WireShapes.Scalar
