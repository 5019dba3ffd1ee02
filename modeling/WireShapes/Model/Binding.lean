import WireShapes.Model.Basic
import WireShapes.Model.GenerateError
import WireShapes.Xml.Name

/-!
# Wire bindings

Where each member stands on the wire: as an attribute, as one element, or flattened into repeated
elements, and under which name.  A name may carry its own qualifier; otherwise the member, its
shape and the protocol are asked for one, in that order.  Two members that one name could satisfy
make a model ambiguous.
-/

namespace WireShapes

open Scalar (Kind)
open Xml (Name)

/-- How a member stands on the wire. -/
inductive Placement
  | attribute
  | element
  /-- One element for each item or entry, without one around them. -/
  | flattened
deriving DecidableEq

/-- The name that a text spells, with a qualifier for one that has none of its own. -/
def Xml.Name.within (text : String) (qualifier : Option String) : Name :=
  match Name.ofText text with
  | ⟨none, base⟩ => ⟨qualifier, base⟩
  | name => name

/-- Whether one element or attribute could satisfy both names as patterns. -/
def Xml.Name.overlaps (a b : Name) : Bool :=
  a.base == b.base &&
    match a.qualifier, b.qualifier with
    | some p, some q => p == q
    | _, _ => true

/-- The names of the elements inside a collection. -/
inductive InnerNames
  | list (item : Name)
  | map (entry key value : Name)
deriving DecidableEq

/-- The place and name of a member, and the names inside the collection it targets, if it does. -/
structure Binding where
  name : Name
  placement : Placement
  collection : Option InnerNames
deriving DecidableEq

/-- How operation outputs are enclosed. -/
inductive Envelope
  /-- The output is the document root. -/
  | bare
  /-- The output is a result element inside a response element. -/
  | wrapped
deriving DecidableEq

/-- Protocol-wide settings, which apply where the model says nothing. -/
structure Defaults where
  envelope : Envelope := .bare
  /-- Errors arrive inside an error response rather than as the root. -/
  errorWrapping : Bool := true
  qualifier : Option String := none
  itemName : String := "member"
  entryName : String := "entry"
  keyName : String := "key"
  valueName : String := "value"
deriving DecidableEq

/-- The qualifier for names inside a shape. -/
def Shape.wireQualifier (shape : Shape) (defaults : Defaults) : Option String :=
  shape.qualifier <|> defaults.qualifier

/-- The names inside a collection; no other shape has any. -/
def Shape.innerNames? (shape : Shape) (defaults : Defaults) : Option InnerNames :=
  let qualifier := shape.wireQualifier defaults
  match shape.form with
  | .list item => some (.list (.within (item.xmlName.getD defaults.itemName) qualifier))
  | .map key value =>
    some (.map (.within defaults.entryName qualifier)
      (.within (key.xmlName.getD defaults.keyName) qualifier)
      (.within (value.xmlName.getD defaults.valueName) qualifier))
  | _ => none

/-- The name of a shape as a document root. -/
def Shape.documentName (shape : Shape) (defaults : Defaults) : Name :=
  .within shape.outerName (shape.wireQualifier defaults)

def unionAttributeReason : String := "union members cannot be attributes"

def attributeTargetReason : String := "attributes must target a scalar or an enum"

/-- The placement of a member of `owner` that targets `target`. -/
def Member.placement (member : Member) (owner target : Shape) : Except GenerateError Placement :=
  if member.isAttribute then
    match owner.form, target.form with
    | .union _, _ => .error (.invalidAttribute owner.name member.name unionAttributeReason)
    | _, .scalar _ | _, .enum _ => .ok .attribute
    | _, _ => .error (.invalidAttribute owner.name member.name attributeTargetReason)
  else if member.flattened then
    match target.form with
    | .list _ | .map _ _ => .ok .flattened
    | _ => .error (.invalidFlattening owner.name member.name target.name)
  else .ok .element

/-- The binding of a member of `owner`. -/
def Model.bind (m : Model) (owner : Shape) (member : Member) (defaults : Defaults) :
    Except GenerateError Binding :=
  match m.shape? member.target.target with
  | none => .error (.unknownShape owner.name member.target.target)
  | some target => do
    let placement ← member.placement owner target
    let qualifier := member.xmlQualifier <|> owner.wireQualifier defaults
    return {
      name := .within (member.xmlName.getD member.name) qualifier
      placement
      collection := target.innerNames? defaults }

/-- The bindings of a model's members, by shape and member name, and the names inside its
collections. -/
structure BindingMap where
  members : Table (String × String) Binding
  collections : Table String InnerNames

namespace BindingMap

def empty : BindingMap := ⟨.empty, .empty⟩

/-- What a member decodes from, in errors. -/
def wireText (binding : Binding) : String :=
  match binding.placement with
  | .attribute => "attribute `" ++ binding.name.toText ++ "`"
  | _ => "<" ++ binding.name.toText ++ ">"

/-- Whether two members of one shape are looked for in the same place. -/
def sharePlace (a b : Binding) : Bool :=
  (a.placement == .attribute) == (b.placement == .attribute)

/-- Adds the members of a structure or union; `seen` are its members so far. -/
def addMembers (m : Model) (owner : Shape) (defaults : Defaults) (seen : List (Member × Binding))
    (table : BindingMap) : List Member → Except GenerateError BindingMap
  | [] => .ok table
  | member :: rest => do
    let binding ← m.bind owner member defaults
    match seen.find? fun (_, other) => sharePlace other binding && other.name.overlaps binding.name
    with
    | some (first, _) =>
      .error (.ambiguousBinding owner.name first.name member.name (wireText binding))
    | none =>
      let table := { table with
        members := table.members.insert (owner.name, member.name) binding }
      addMembers m owner defaults (seen ++ [(member, binding)]) table rest

/-- Whether a shape can be the key of a map. -/
def isKey (shape : Option Shape) : Bool :=
  match shape.map Shape.form with
  | some (.scalar .string) | some (.enum _) => true
  | _ => false

/-- Adds a map. -/
def addMap (m : Model) (shape : Shape) (key : Item) (defaults : Defaults) (table : BindingMap) :
    Except GenerateError BindingMap :=
  if !isKey (m.shape? key.target.target) then
    .error (.invalidMapKey shape.name key.target.target)
  else match shape.innerNames? defaults with
    | some (.map entry key value) =>
      if key.overlaps value then
        .error (.ambiguousBinding shape.name "key" "value" ("<" ++ key.toText ++ ">"))
      else .ok { table with
        collections := table.collections.insert shape.name (.map entry key value) }
    | _ => .ok table

/-- Adds a shape. -/
def addShape (m : Model) (defaults : Defaults) (table : BindingMap) (shape : Shape) :
    Except GenerateError BindingMap :=
  match shape.form with
  | .struct members | .union members => addMembers m shape defaults [] table members
  | .map key _ => addMap m shape key defaults table
  | .list _ =>
    match shape.innerNames? defaults with
    | some names => .ok { table with collections := table.collections.insert shape.name names }
    | none => .ok table
  | .scalar _ | .enum _ => .ok table

/-- The bindings of every member and collection of a model. -/
def ofModel (m : Model) (defaults : Defaults) : Except GenerateError BindingMap :=
  m.shapes.values.foldlM (addShape m defaults) empty

def member? (t : BindingMap) (shape member : String) : Option Binding :=
  t.members.get? (shape, member)

def collection? (t : BindingMap) (shape : String) : Option InnerNames :=
  t.collections.get? shape

end BindingMap

end WireShapes
