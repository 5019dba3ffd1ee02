import WireShapes.Scalar.Base64
import WireShapes.Scalar.Binary
import WireShapes.Scalar.Timestamp

/-!
# Scalar kinds and values

The ten kinds of scalar, the value each gives to a text, and the word that errors use for it.
Blanks around a text are ignored except in strings, which are taken as they are.
-/

namespace WireShapes.Scalar

/-- A kind of scalar. -/
inductive Kind
  | string
  | boolean
  | byte
  | short
  | integer
  | long
  | float
  | double
  | timestamp
  | blob
deriving DecidableEq

namespace Kind

/-- Every kind, in the order in which models declare them. -/
def all : List Kind :=
  [.string, .boolean, .byte, .short, .integer, .long, .float, .double, .timestamp, .blob]

/-- The name of the shape that stands for the kind. -/
def name : Kind → String
  | .string => "String"
  | .boolean => "Boolean"
  | .byte => "Byte"
  | .short => "Short"
  | .integer => "Integer"
  | .long => "Long"
  | .float => "Float"
  | .double => "Double"
  | .timestamp => "Timestamp"
  | .blob => "Blob"

/-- The kind of a name. -/
def ofName? (name : String) : Option Kind :=
  all.find? fun kind => kind.name == name

/-- The word for the kind in errors. -/
def label : Kind → String
  | .string => "string"
  | .boolean => "boolean"
  | .byte => "byte"
  | .short => "short"
  | .integer => "integer"
  | .long => "long"
  | .float => "float"
  | .double => "double"
  | .timestamp => "timestamp"
  | .blob => "blob"

end Kind

/-- A scalar value.  Floating-point values are their bits. -/
inductive Value
  | string (text : String)
  | boolean (b : Bool)
  | byte (n : Int)
  | short (n : Int)
  | integer (n : Int)
  | long (n : Int)
  | float (bits : Nat)
  | double (bits : Nat)
  | timestamp (t : Timestamp)
  | blob (bytes : List UInt8)
deriving DecidableEq

/-- `true` or `false`, in lower case. -/
def boolean? (text : String) : Option Bool :=
  let word := Text.trim text
  if word = "true" then some true else if word = "false" then some false else none

/-- The value of a text, if it has one of the kind. -/
def Kind.value? (kind : Kind) (text : String) : Option Value :=
  match kind with
  | .string => some (.string text)
  | .boolean => (boolean? text).map .boolean
  | .byte => (integer? 8 text).map .byte
  | .short => (integer? 16 text).map .short
  | .integer => (integer? 32 text).map .integer
  | .long => (integer? 64 text).map .long
  | .float => (BinaryFormat.single.ofText? text).map .float
  | .double => (BinaryFormat.double.ofText? text).map .double
  | .timestamp => (Timestamp.ofText? text).map .timestamp
  | .blob => (Base64.ofText? text).map .blob

end WireShapes.Scalar
