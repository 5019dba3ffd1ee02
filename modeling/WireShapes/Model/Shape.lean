import WireShapes.Scalar.Kind

/-!
# Shapes

A shape is a named type of the model: a scalar, a list, a map, a structure, a union or an
enumeration.  Shapes refer to each other by name.  A reference has a place in its shape, its `Slot`;
`Shape.refs` lists the slots with their references in declaration order, and `Shape.modifyRef?`
changes the reference at one slot.
-/

namespace WireShapes

open Scalar (Kind)

/-- A reference to a shape by name.  An indirect one is held behind a pointer. -/
structure Reference where
  target : String
  indirect : Bool := false
deriving DecidableEq

/-- A direct reference. -/
def Reference.to (target : String) : Reference := { target }

/-- The item of a list, or the key or value of a map. -/
structure Item where
  target : Reference
  xmlName : Option String := none
deriving DecidableEq

/-- A member of a structure or union. -/
structure Member where
  name : String
  target : Reference
  xmlName : Option String := none
  /-- The qualifier of the member's wire name. -/
  xmlQualifier : Option String := none
  isAttribute : Bool := false
  flattened : Bool := false
  required : Bool := false
  doc : Option String := none
deriving DecidableEq

/-- A value of an enumeration. -/
structure EnumValue where
  name : String
  literal : Option String := none
  doc : Option String := none
deriving DecidableEq

/-- The text that the value has on the wire. -/
def EnumValue.wireText (value : EnumValue) : String :=
  value.literal.getD value.name

/-- What a shape is made of. -/
inductive Form
  | scalar (kind : Kind)
  | list (item : Item)
  | map (key value : Item)
  | struct (members : List Member)
  | union (members : List Member)
  | enum (values : List EnumValue)
deriving DecidableEq

/-- Where a reference sits in its shape. -/
inductive Slot
  | member (index : Nat)
  | item
  | key
  | value
deriving DecidableEq

/-- The namespace of a shape's elements. -/
structure Namespace where
  uri : String
  qualifier : Option String
deriving DecidableEq

structure Shape where
  name : String
  form : Form
  xmlName : Option String := none
  xmlNamespace : Option Namespace := none
  isError : Bool := false
  doc : Option String := none
deriving DecidableEq

namespace Shape

/-- The element name of the shape as a document root. -/
def outerName (shape : Shape) : String :=
  shape.xmlName.getD shape.name

/-- The qualifier that the shape's namespace gives to names inside it. -/
def qualifier (shape : Shape) : Option String :=
  shape.xmlNamespace.bind Namespace.qualifier

/-- The members of a structure or union; no others have any. -/
def members (shape : Shape) : List Member :=
  match shape.form with
  | .struct members | .union members => members
  | _ => []

/-- The references of members, numbered from an index on. -/
def memberRefs (index : Nat) : List Member → List (Slot × Reference)
  | [] => []
  | m :: rest => (.member index, m.target) :: memberRefs (index + 1) rest

/-- Every reference with its slot: members first to last, a map's key before its value. -/
def refs (shape : Shape) : List (Slot × Reference) :=
  match shape.form with
  | .scalar _ | .enum _ => []
  | .list item => [(.item, item.target)]
  | .map key value => [(.key, key.target), (.value, value.target)]
  | .struct members | .union members => memberRefs 0 members

end Shape

namespace Form

/-- Changes the reference of an item. -/
def onItem (f : Reference → Reference) (item : Item) : Item :=
  { item with target := f item.target }

/-- Changes the reference of the member at an index, if there is one. -/
def onMember? (f : Reference → Reference) : List Member → Nat → Option (List Member)
  | [], _ => none
  | m :: rest, 0 => some ({ m with target := f m.target } :: rest)
  | m :: rest, index + 1 => (onMember? f rest index).map (m :: ·)

/-- Changes the reference at a slot, if the form has the slot. -/
def modifyRef? (form : Form) (slot : Slot) (f : Reference → Reference) : Option Form :=
  match form, slot with
  | .struct members, .member index => (onMember? f members index).map .struct
  | .union members, .member index => (onMember? f members index).map .union
  | .list item, .item => some (.list (onItem f item))
  | .map key value, .key => some (.map (onItem f key) value)
  | .map key value, .value => some (.map key (onItem f value))
  | _, _ => none

end Form

namespace Shape

/-- Changes the reference at a slot, if the shape has the slot. -/
def modifyRef? (shape : Shape) (slot : Slot) (f : Reference → Reference) : Option Shape :=
  (shape.form.modifyRef? slot f).map fun form => { shape with form }

/-- The reference at a slot. -/
def ref? (shape : Shape) (slot : Slot) : Option Reference :=
  shape.refs.lookup slot

end Shape

/-- An operation, which decoding starts from. -/
structure Operation where
  name : String
  input : Option String := none
  output : Option String := none
  errors : List String := []
  doc : Option String := none
deriving DecidableEq

/-- The shapes an operation starts from: input, output, errors. -/
def Operation.roots (op : Operation) : List String :=
  op.input.toList ++ op.output.toList ++ op.errors

end WireShapes
