import WireShapes.Xml.Name
import WireShapes.Xml.Token

/-!
# Start tags

A start tag with its name split and its attribute values expanded.  `get?` looks an attribute up by
pattern: the first match in document order, namespace declarations left out.
-/

namespace WireShapes.Wire

open Xml (Name)

/-- An attribute of a start tag. -/
structure Attribute where
  name : Name
  value : String
deriving DecidableEq

/-- An opening tag. -/
structure StartTag where
  name : Name
  attributes : List Attribute
deriving DecidableEq

/-- What keeps a raw tag from being read. -/
inductive TagFault
  | attributeList (fault : Xml.AttributeFault)
  | reference (fault : Xml.ReferenceFault)
deriving DecidableEq

namespace StartTag

/-- The name and the expanded value of an attribute. -/
def readAttribute (raw : Xml.RawAttribute) : Except TagFault Attribute :=
  match Xml.expand raw.value with
  | .ok value => .ok ⟨Name.ofList raw.key, value⟩
  | .error fault => .error (.reference fault)

/-- Reads all attributes of a tag; the first fault in document order is the one reported. -/
def ofRaw (tag : Xml.RawTag) : Except TagFault StartTag := do
  let attributes ← tag.attributes.found.mapM readAttribute
  match tag.attributes.fault with
  | some fault => .error (.attributeList fault)
  | none => .ok ⟨Name.ofList tag.name, attributes⟩

/-- Whether the tag's name satisfies a pattern. -/
def matchesPattern (tag : StartTag) (pattern : String) : Bool :=
  tag.name.matchesPattern pattern

/-- The value of the first attribute that a pattern matches.  Namespace declarations never match. -/
def get? (tag : StartTag) (pattern : String) : Option String :=
  ((tag.attributes.filter fun a => !a.name.declaresNamespace).find? fun a =>
    a.name.matchesPattern pattern).map Attribute.value

end StartTag

end WireShapes.Wire
