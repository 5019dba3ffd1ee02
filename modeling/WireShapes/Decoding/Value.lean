import WireShapes.Bindings.Declaration
import WireShapes.Wire.DecodeError

/-!
# Decoded values

What decoders give: data read from texts, lists, maps with the last value of each key, structures as
their members that were set, and unions as the member that was found.  An enumeration reads every
text, as one of its values or as a text it does not know, and writes the same text again.
-/

namespace WireShapes

/-- The value of an enumeration. -/
inductive Enumerated
  | known (case : Bindings.EnumCase)
  | unknown (text : String)
deriving DecidableEq

/-- A value read from one text. -/
inductive Datum
  | scalar (value : Scalar.Value)
  | enum (value : Enumerated)
deriving DecidableEq

/-- A decoded value.  Boxes do not show. -/
inductive Value
  | datum (datum : Datum)
  | list (items : List Value)
  | map (entries : List (Datum × Value))
  /-- Members that are set, by model name. -/
  | struct (members : List (String × Value))
  /-- A union that holds a member, by model name. -/
  | variant (member : String) (payload : Value)
  /-- A union that holds nothing the model knows. -/
  | unknownVariant

namespace Value

/-- The items of a list; nothing else has any. -/
def items : Value → List Value
  | .list items => items
  | _ => []

/-- The entries of a map; nothing else has any. -/
def entries : Value → List (Datum × Value)
  | .map entries => entries
  | _ => []

/-- Sets the value of a key, in its place if it has one. -/
def putEntry (entries : List (Datum × Value)) (key : Datum) (value : Value) :
    List (Datum × Value) :=
  Table.put key value entries

/-- The value of a member of a structure. -/
def member? (value : Value) (name : String) : Option Value :=
  match value with
  | .struct members => members.lookup name
  | _ => none

/-- The string that the value is, if it is one. -/
def string? : Value → Option String
  | .datum (.scalar (.string text)) => some text
  | _ => none

end Value

namespace Bindings

namespace EnumDecl

/-- The value of a text: the first declared value with that literal. -/
def ofText (decl : EnumDecl) (text : String) : Enumerated :=
  match decl.cases.find? fun case => case.literal == text with
  | some case => .known case
  | none => .unknown text

/-- The literals of the declared values, in order. -/
def literals (decl : EnumDecl) : List String :=
  decl.cases.map EnumCase.literal

/-- The place of a value in declaration order, what is unknown last. -/
def rank (decl : EnumDecl) : Enumerated → Nat
  | .known case => decl.cases.idxOf case
  | .unknown _ => decl.cases.length

end EnumDecl

namespace UnionDecl

/-- Whether a union holds a member. -/
def holds (case : UnionCase) (value : Value) : Bool :=
  match value with
  | .variant member _ => member == case.member
  | _ => false

/-- What a union holds as a member, if it holds that one. -/
def payload? (case : UnionCase) (value : Value) : Option Value :=
  match value with
  | .variant member payload => if member == case.member then some payload else none
  | _ => none

end UnionDecl

end Bindings

/-- The text of an enumeration's value on the wire. -/
def Enumerated.toText : Enumerated → String
  | .known case => case.literal
  | .unknown text => text

end WireShapes
