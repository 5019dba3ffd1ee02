/-!
# Reading UTF-8

`decode` reads bytes as characters and reports where the first fault lies.  A fault is a maximal
malformed sequence of one to three bytes, or a sequence that the end of the input cuts off.
-/

namespace WireShapes.Text.Utf8

/-- Where and how a byte sequence stops being UTF-8. -/
inductive Fault
  | invalid (length : Nat) (index : Nat)
  | incomplete (index : Nat)
deriving DecidableEq

def Fault.message : Fault → String
  | .invalid length index =>
    "invalid utf-8 sequence of " ++ toString length ++ " bytes from index " ++ toString index
  | .incomplete index => "incomplete utf-8 byte sequence from index " ++ toString index

/-- How a character starts. -/
inductive Lead
  | ascii
  | two
  /-- Three bytes, the second of them between the bounds. -/
  | three (low high : Nat)
  /-- Four bytes, the second of them between the bounds. -/
  | four (low high : Nat)
  | none

/-- The class of a first byte.  The bounds keep out overlong forms, surrogates and values past the
last code point. -/
def Lead.ofByte (b : Nat) : Lead :=
  if b < 0x80 then .ascii
  else if b < 0xc2 then .none
  else if b < 0xe0 then .two
  else if b = 0xe0 then .three 0xa0 0xbf
  else if b = 0xed then .three 0x80 0x9f
  else if b < 0xf0 then .three 0x80 0xbf
  else if b = 0xf0 then .four 0x90 0xbf
  else if b < 0xf4 then .four 0x80 0xbf
  else if b = 0xf4 then .four 0x80 0x8f
  else .none

/-- A continuation byte. -/
def isTail (b : UInt8) : Bool :=
  0x80 ≤ b.toNat && b.toNat ≤ 0xbf

def inRange (low high : Nat) (b : UInt8) : Bool :=
  low ≤ b.toNat && b.toNat ≤ high

/-- Six bits of a continuation byte after the bits read so far. -/
def extend (high : Nat) (b : UInt8) : Nat :=
  high * 64 + b.toNat % 64

/-- Reads characters up to the end or the first fault; `index` counts the bytes already read. -/
def decodeFrom (index : Nat) : List UInt8 → Except Fault (List Char)
  | [] => .ok []
  | a :: rest =>
    match Lead.ofByte a.toNat with
    | .none => .error (.invalid 1 index)
    | .ascii => (Char.ofNat a.toNat :: ·) <$> decodeFrom (index + 1) rest
    | .two =>
      match rest with
      | [] => .error (.incomplete index)
      | b :: rest =>
        if isTail b then
          (Char.ofNat (extend (a.toNat % 32) b) :: ·) <$> decodeFrom (index + 2) rest
        else .error (.invalid 1 index)
    | .three low high =>
      match rest with
      | [] => .error (.incomplete index)
      | b :: rest =>
        if inRange low high b then
          match rest with
          | [] => .error (.incomplete index)
          | c :: rest =>
            if isTail c then
              (Char.ofNat (extend (extend (a.toNat % 16) b) c) :: ·) <$> decodeFrom (index + 3) rest
            else .error (.invalid 2 index)
        else .error (.invalid 1 index)
    | .four low high =>
      match rest with
      | [] => .error (.incomplete index)
      | b :: rest =>
        if inRange low high b then
          match rest with
          | [] => .error (.incomplete index)
          | c :: rest =>
            if isTail c then
              match rest with
              | [] => .error (.incomplete index)
              | d :: rest =>
                if isTail d then
                  (Char.ofNat (extend (extend (extend (a.toNat % 8) b) c) d) :: ·) <$>
                    decodeFrom (index + 4) rest
                else .error (.invalid 3 index)
            else .error (.invalid 2 index)
        else .error (.invalid 1 index)

/-- The characters of a byte sequence. -/
def decode (bytes : List UInt8) : Except Fault (List Char) :=
  decodeFrom 0 bytes

end WireShapes.Text.Utf8
