import WireShapes.Text.Quoted

/-!
# Faults of markup

What can be wrong with the markup itself: with a tag as a whole, with the attributes inside a start
tag, or with a character reference in text.  Positions count bytes.
-/

namespace WireShapes.Xml

/-- A piece of markup that the input leaves unfinished or malformed. -/
inductive Part
  | element
  | instruction
  | bang
  | cdata
  | comment
  | doctype
deriving DecidableEq

def Part.label : Part → String
  | .element => "Element"
  | .instruction => "XmlDecl"
  | .bang => "Bang"
  | .cdata => "CData"
  | .comment => "Comment"
  | .doctype => "DOCTYPE"

/-- A fault of the reader itself; nothing after it can be read. -/
inductive ScanFault
  | unfinished (part : Part)
  /-- An end tag for another element than the one open, or for none. -/
  | mismatch (expected found : String)
  | unknownBang (byte : UInt8)
  | emptyDoctype
deriving DecidableEq

/-- A byte shown as the character of the same number. -/
def byteChar (b : UInt8) : String :=
  (Char.ofNat b.toNat).toString

def ScanFault.message : ScanFault → String
  | .unfinished part => "Unexpected EOF during reading " ++ part.label
  | .mismatch expected found => "Expecting </" ++ expected ++ "> found </" ++ found ++ ">"
  | .unknownBang byte =>
    "Only Comment (`--`), CDATA (`[CDATA[`) and DOCTYPE (`DOCTYPE`) nodes can start with a '!', " ++
      "but symbol `" ++ byteChar byte ++ "` found"
  | .emptyDoctype => "DOCTYPE declaration must not be empty"

/-- A fault in the attribute list of a start tag. -/
inductive AttributeFault
  | expectedEquals (position : Nat)
  | expectedValue (position : Nat)
  | unquotedValue (position : Nat)
  | expectedQuote (position : Nat) (quote : Char)
  | duplicate (position earlier : Nat)
deriving DecidableEq

def AttributeFault.message : AttributeFault → String
  | .expectedEquals p =>
    "position " ++ toString p ++ ": attribute key must be directly followed by `=` or space"
  | .expectedValue p => "position " ++ toString p ++ ": `=` must be followed by an attribute value"
  | .unquotedValue p =>
    "position " ++ toString p ++ ": attribute value must be enclosed in `\"` or `'`"
  | .expectedQuote p quote =>
    "position " ++ toString p ++ ": missing closing quote `" ++ quote.toString ++
      "` in attribute value"
  | .duplicate p earlier =>
    "position " ++ toString p ++ ": duplicated attribute, previous declaration at position " ++
      toString earlier

/-- A fault of a character or entity reference. -/
inductive ReferenceFault
  | unterminated (start stop : Nat)
  | unknownEntity (start stop : Nat) (name : String)
  | nullCharacter (start stop : Nat)
  | longHexadecimal
  | badHexadecimal (byte : UInt8)
  | longDecimal
  | badDecimal (byte : UInt8)
  | badCodePoint (n : Nat)
deriving DecidableEq

/-- A range of byte positions. -/
def rangeText (start stop : Nat) : String :=
  "Error while escaping character at range " ++ toString start ++ ".." ++ toString stop ++ ": "

def ReferenceFault.message : ReferenceFault → String
  | .unterminated start stop => rangeText start stop ++ "Cannot find ';' after '&'"
  | .unknownEntity start stop name =>
    rangeText start stop ++ "Unrecognized escape symbol: " ++ Text.quoted name
  | .nullCharacter start stop => rangeText start stop ++ "Null character entity not allowed"
  | .longHexadecimal => "Cannot convert hexadecimal to utf8"
  | .badHexadecimal byte => "'" ++ byteChar byte ++ "' is not a valid hexadecimal character"
  | .longDecimal => "Cannot convert decimal to utf8"
  | .badDecimal byte => "'" ++ byteChar byte ++ "' is not a valid decimal character"
  | .badCodePoint n => "'" ++ toString n ++ "' is not a valid codepoint"

/-- A fault of the markup outside attribute lists. -/
inductive Fault
  | scan (fault : ScanFault)
  | reference (fault : ReferenceFault)
deriving DecidableEq

def Fault.message : Fault → String
  | .scan fault => fault.message
  | .reference fault => fault.message

end WireShapes.Xml
