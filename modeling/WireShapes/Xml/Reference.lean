import WireShapes.Xml.Fault

/-!
# Character references

`expand` replaces the five named entities and numeric character references of a raw text.  A
reference runs from `&` to the next `;`; another `&` before it, or the end of the text, leaves the
reference unterminated.
-/

namespace WireShapes.Xml

/-- The UTF-8 bytes of a piece of text. -/
def utf8Bytes (cs : List Char) : List UInt8 :=
  (String.ofList cs).toUTF8.toList

/-- The length of a piece of text in bytes. -/
def utf8Length (cs : List Char) : Nat :=
  cs.foldr (fun c n => c.utf8Size + n) 0

namespace Reference

/-- The named entities. -/
def entity? (name : List Char) : Option Char :=
  if name = ['l', 't'] then some '<'
  else if name = ['g', 't'] then some '>'
  else if name = ['a', 'm', 'p'] then some '&'
  else if name = ['a', 'p', 'o', 's'] then some '\''
  else if name = ['q', 'u', 'o', 't'] then some '"'
  else none

/-- A hexadecimal digit of either case. -/
def hexDigit? (b : UInt8) : Option Nat :=
  let n := b.toNat
  if 48 ≤ n && n ≤ 57 then some (n - 48)
  else if 97 ≤ n && n ≤ 102 then some (n - 87)
  else if 65 ≤ n && n ≤ 70 then some (n - 55)
  else none

def decimalDigit? (b : UInt8) : Option Nat :=
  if 48 ≤ b.toNat && b.toNat ≤ 57 then some (b.toNat - 48) else none

/-- The value of a numeral in a base, or its first byte that is no digit. -/
def numeral (base : Nat) (digit? : UInt8 → Option Nat) (n : Nat) : List UInt8 → Except UInt8 Nat
  | [] => .ok n
  | b :: rest =>
    match digit? b with
    | some d => numeral base digit? (n * base + d) rest
    | none => .error b

/-- The number of a numeric reference, given what follows its `#`.  No code point needs more than
six hexadecimal or seven decimal digits. -/
def number (digits : List Char) : Except ReferenceFault Nat :=
  match digits with
  | 'x' :: hex =>
    let bytes := utf8Bytes hex
    if 6 < bytes.length then .error .longHexadecimal
    else (numeral 16 hexDigit? 0 bytes).mapError .badHexadecimal
  | _ =>
    let bytes := utf8Bytes digits
    if 7 < bytes.length then .error .longDecimal
    else (numeral 10 decimalDigit? 0 bytes).mapError .badDecimal

/-- The character that a reference between `start`, where its `&` is, and `stop`, where its `;` is,
stands for. -/
def resolve (start stop : Nat) (body : List Char) : Except ReferenceFault Char :=
  match body with
  | '#' :: digits => do
    let n ← number digits
    if n = 0 then .error (.nullCharacter start stop)
    else if n.isValidChar then .ok (Char.ofNat n)
    else .error (.badCodePoint n)
  | _ =>
    match entity? body with
    | some c => .ok c
    | none => .error (.unknownEntity (start + 1) stop (String.ofList body))

end Reference

/-- Where in a text the expansion is: outside references, or in one that began at a position. -/
inductive Expansion
  | plain
  | inside (start : Nat) (seen : List Char)

/-- Expands the rest of a text of `total` bytes, of which `index` have been read. -/
def expandFrom (total : Nat) (state : Expansion) (index : Nat) :
    List Char → Except ReferenceFault (List Char)
  | [] =>
    match state with
    | .plain => .ok []
    | .inside start _ => .error (.unterminated start total)
  | c :: rest =>
    let next := index + c.utf8Size
    match state with
    | .plain =>
      if c = '&' then expandFrom total (.inside index []) next rest
      else (c :: ·) <$> expandFrom total .plain next rest
    | .inside start seen =>
      if c = ';' then do
        let expanded ← Reference.resolve start index seen.reverse
        (expanded :: ·) <$> expandFrom total .plain next rest
      else if c = '&' then .error (.unterminated start total)
      else expandFrom total (.inside start (c :: seen)) next rest

/-- A raw text with its references replaced. -/
def expand (raw : List Char) : Except ReferenceFault String :=
  String.ofList <$> expandFrom (utf8Length raw) .plain 0 raw

end WireShapes.Xml
