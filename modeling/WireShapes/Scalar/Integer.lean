import WireShapes.Text.Blank

/-!
# Integers

An integer text is an optional sign and one or more ASCII digits, with any number of leading
zeros.  It stands for a value of a given width only when that value is in the signed range.
-/

namespace WireShapes.Scalar

/-- An ASCII digit's value. -/
def digit? (c : Char) : Option Nat :=
  if '0' ≤ c && c ≤ '9' then some (c.toNat - '0'.toNat) else none

/-- Continues a decimal numeral whose digits so far have the value `n`. -/
def numeralFrom? (n : Nat) : List Char → Option Nat
  | [] => some n
  | c :: rest => (digit? c).bind fun d => numeralFrom? (10 * n + d) rest

/-- The value of one or more digits. -/
def numeral? : List Char → Option Nat
  | [] => none
  | cs => numeralFrom? 0 cs

/-- The value of a signed numeral. -/
def signed? : List Char → Option Int
  | '+' :: rest => (numeral? rest).map Int.ofNat
  | '-' :: rest => (numeral? rest).map fun n => -Int.ofNat n
  | cs => (numeral? cs).map Int.ofNat

/-- The signed range of a width in bits. -/
def InRange (width : Nat) (n : Int) : Prop :=
  -(Nat.pow 2 (width - 1) : Int) ≤ n ∧ n < (Nat.pow 2 (width - 1) : Int)

instance (width : Nat) (n : Int) : Decidable (InRange width n) :=
  inferInstanceAs (Decidable (_ ∧ _))

/-- The integer of the given width that a text stands for, blanks around it aside. -/
def integer? (width : Nat) (text : String) : Option Int :=
  (signed? (Text.trim text).toList).filter fun n => InRange width n

end WireShapes.Scalar
