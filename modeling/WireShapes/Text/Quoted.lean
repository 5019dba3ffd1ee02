import WireShapes.Text.Visible

/-!
# Quoted text

A text between double quotes: the quote and the backslash are escaped, line feed, carriage
return, tab and NUL have short escapes, and any other invisible character is written by its code
point.  Two writers share that rule: `quoted` for messages, `literal` for string literals of
generated code, which writes NUL as `\x00` before an octal digit.  `quotedBytes` is the form in
which raw markup appears in messages.
-/

namespace WireShapes.Text

/-- A number in lower-case hexadecimal. -/
def lowerHex (n : Nat) : String :=
  String.ofList (Nat.toDigits 16 n)

/-- One character inside quotes. -/
def escaped (c : Char) : String :=
  if c == '"' then "\\\""
  else if c == '\\' then "\\\\"
  else if c == '\n' then "\\n"
  else if c == '\r' then "\\r"
  else if c == '\t' then "\\t"
  else if c.toNat == 0 then "\\0"
  else if isVisible c then c.toString
  else "\\u\x7b" ++ lowerHex c.toNat ++ "\x7d"

/-- A text in quotes, as messages show it. -/
def quoted (s : String) : String :=
  "\"" ++ String.join (s.toList.map escaped) ++ "\""

/-- The characters of a string literal: a NUL before an octal digit needs the longer escape. -/
def literalBody : List Char → String
  | [] => ""
  | c :: rest =>
    let here :=
      if c.toNat == 0 && rest.head?.any (fun next => '0' ≤ next && next ≤ '7') then "\\x00"
      else escaped c
    here ++ literalBody rest

/-- A string literal of generated code. -/
def literal (s : String) : String :=
  "\"" ++ literalBody s.toList ++ "\""

/-- One byte of raw markup in a message. -/
def escapedByte (b : UInt8) : String :=
  let n := b.toNat
  if n == 34 then "\\\""
  else if 32 ≤ n && n ≤ 126 then (Char.ofNat n).toString
  else "0x" ++ (lowerHex n).map Char.toUpper

/-- Raw markup in quotes, byte by byte. -/
def quotedBytes (cs : List Char) : String :=
  "\"" ++ String.join ((String.ofList cs).toUTF8.toList.map escapedByte) ++ "\""

end WireShapes.Text
