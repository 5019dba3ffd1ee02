import WireShapes.Text.Blank

/-!
# Base64

Bytes as text in the standard alphabet: three bytes are four characters, a last group of one or two
bytes is padded with `=` to four characters, and the bits a padded group leaves over are zero.
`encode` writes that text and `decode?` accepts exactly what it writes.
-/

namespace WireShapes.Scalar.Base64

/-- The character of a six-bit value. -/
def symbol (n : Nat) : Char :=
  if n < 26 then Char.ofNat ('A'.toNat + n)
  else if n < 52 then Char.ofNat ('a'.toNat + (n - 26))
  else if n < 62 then Char.ofNat ('0'.toNat + (n - 52))
  else if n = 62 then '+'
  else '/'

/-- The six-bit value of a character of the alphabet. -/
def sextet? (c : Char) : Option Nat :=
  if 'A' ≤ c && c ≤ 'Z' then some (c.toNat - 'A'.toNat)
  else if 'a' ≤ c && c ≤ 'z' then some (c.toNat - 'a'.toNat + 26)
  else if '0' ≤ c && c ≤ '9' then some (c.toNat - '0'.toNat + 52)
  else if c == '+' then some 62
  else if c == '/' then some 63
  else none

/-- The padded text of a byte sequence. -/
def encode : List UInt8 → List Char
  | [] => []
  | [a] =>
    [symbol (a.toNat / 4), symbol (a.toNat % 4 * 16), '=', '=']
  | [a, b] =>
    [symbol (a.toNat / 4), symbol (a.toNat % 4 * 16 + b.toNat / 16), symbol (b.toNat % 16 * 4), '=']
  | a :: b :: c :: rest =>
    symbol (a.toNat / 4) :: symbol (a.toNat % 4 * 16 + b.toNat / 16) ::
      symbol (b.toNat % 16 * 4 + c.toNat / 64) :: symbol (c.toNat % 64) :: encode rest

/-- The last group: a whole one, or a padded one without left-over bits. -/
def lastGroup? (a b c d : Char) : Option (List UInt8) :=
  match sextet? a, sextet? b with
  | some x, some y =>
    let first := UInt8.ofNat (x * 4 + y / 16)
    if c == '=' then
      if d == '=' && y % 16 == 0 then some [first] else none
    else match sextet? c with
      | none => none
      | some z =>
        let second := UInt8.ofNat (y % 16 * 16 + z / 4)
        if d == '=' then
          if z % 4 == 0 then some [first, second] else none
        else (sextet? d).map fun w => [first, second, UInt8.ofNat (z % 4 * 64 + w)]
  | _, _ => none

/-- The bytes of a padded text. -/
def decode? : List Char → Option (List UInt8)
  | [] => some []
  | [a, b, c, d] => lastGroup? a b c d
  | a :: b :: c :: d :: rest =>
    match sextet? a, sextet? b, sextet? c, sextet? d with
    | some x, some y, some z, some w =>
      (decode? rest).map fun bytes =>
        UInt8.ofNat (x * 4 + y / 16) :: UInt8.ofNat (y % 16 * 16 + z / 4) ::
          UInt8.ofNat (z % 4 * 64 + w) :: bytes
    | _, _, _, _ => none
  | _ => none

/-- The bytes of a text in which ASCII blanks may stand anywhere. -/
def ofText? (text : String) : Option (List UInt8) :=
  decode? (text.toList.filter fun c => !Text.isAsciiBlank c)

end WireShapes.Scalar.Base64
