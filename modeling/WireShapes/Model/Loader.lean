import WireShapes.Model.Basic
import WireShapes.Model.LoadError
import WireShapes.Xml.Token

/-!
# Model documents

A model is written as a `model` element that declares shapes and operations:

```
<model>
  <structure name="Top" xml-name="Top" namespace-prefix="p" namespace-uri="urn:p">
    <member name="id" target="String" attribute="true" required="true"/>
  </structure>
  <list name="Names" member="String" member-name="item"/>
  <map name="Index" key="String" value="Integer" key-name="k" value-name="v"/>
  <enum name="Color"><value name="Red" literal="red"/></enum>
  <operation name="GetTop" output="Top" errors="NotFound Throttled"/>
</model>
```

`Model.ofBytes` loads it.  Nothing after the end of the `model` element is read.
-/

namespace WireShapes

open Scalar (Kind)
open Xml (RawTag Token)

/-- A declaration element: its name in errors, and its tag. -/
structure Declaration where
  element : String
  tag : RawTag

namespace Declaration

/-- The value of an attribute.  A fault of the attribute list counts only when the look-up gets to
it. -/
def find? (d : Declaration) (key : String) : Except LoadError (Option String) :=
  match d.tag.attributes.found.find? fun a => a.key = key.toList with
  | some a =>
    match Xml.expand a.value with
    | .ok value => .ok (some value)
    | .error fault => .error (.markup (.reference fault))
  | none =>
    match d.tag.attributes.fault with
    | some fault => .error (.attributeList fault)
    | none => .ok none

/-- The value of an attribute that must be there. -/
def get (d : Declaration) (key : String) : Except LoadError String := do
  match ← d.find? key with
  | some value => return value
  | none => throw (.missingAttribute d.element key)

/-- A flag is absent, `false` or `true`. -/
def flag (d : Declaration) (key : String) : Except LoadError Bool := do
  match ← d.find? key with
  | none => return false
  | some value =>
    if value = "false" then return false
    else if value = "true" then return true
    else throw (.invalidAttribute d.element key value)

/-- The attributes that every shape has. -/
def shape (d : Declaration) (form : Form) : Except LoadError Shape := do
  let name ← d.get "name"
  let xmlName ← d.find? "xml-name"
  let uri ← d.find? "namespace-uri"
  let qualifier ← d.find? "namespace-prefix"
  let xmlNamespace :=
    if uri.isSome || qualifier.isSome then some { uri := uri.getD "", qualifier } else none
  let isError ← d.flag "error"
  let doc ← d.find? "doc"
  return { name, form, xmlName, xmlNamespace, isError, doc }

/-- A collection's item, key or value: its target under one key, its wire name under another. -/
def item (d : Declaration) (target xmlName : String) : Except LoadError Item := do
  let target ← d.get target
  return { target := { target }, xmlName := ← d.find? xmlName }

def list (d : Declaration) : Except LoadError Shape := do
  d.shape (.list (← d.item "member" "member-name"))

def map (d : Declaration) : Except LoadError Shape := do
  let key ← d.item "key" "key-name"
  let value ← d.item "value" "value-name"
  d.shape (.map key value)

def scalar (d : Declaration) : Except LoadError Shape := do
  let name ← d.get "kind"
  match Kind.ofName? name with
  | some kind => d.shape (.scalar kind)
  | none => throw (.invalidAttribute "scalar" "kind" name)

def member (d : Declaration) : Except LoadError Member := do
  let name ← d.get "name"
  let target ← d.get "target"
  let xmlName ← d.find? "xml-name"
  let xmlQualifier ← d.find? "xml-prefix"
  let isAttribute ← d.flag "attribute"
  let flattened ← d.flag "flattened"
  let required ← d.flag "required"
  let doc ← d.find? "doc"
  return {
    name, target := { target }, xmlName, xmlQualifier, isAttribute, flattened, required, doc }

def enumValue (d : Declaration) : Except LoadError EnumValue := do
  let name ← d.get "name"
  let literal ← d.find? "literal"
  return { name, literal, doc := ← d.find? "doc" }

def operation (d : Declaration) : Except LoadError Operation := do
  let name ← d.get "name"
  let input ← d.find? "input"
  let output ← d.find? "output"
  let errors ← d.find? "errors"
  let doc ← d.find? "doc"
  return { name, input, output, errors := (errors.map Text.blankSeparated).getD [], doc }

end Declaration

/-- Where in a model document the loader is. -/
inductive LoadState
  | start
  | model (m : Model)
  /-- Inside a structure, union or enumeration. -/
  | shape (m : Model) (s : Shape)
  /-- Inside a member or value of the shape. -/
  | child (m : Model) (s : Shape)
  /-- Inside a list, map or scalar, which have no children. -/
  | leaf (m : Model) (s : Shape)
  | operation (m : Model) (op : Operation)

namespace LoadState

/-- The error of an element that has no place where it stands. -/
def unexpectedTag (expected : String) (tag : RawTag) : LoadError :=
  .unexpected expected (String.ofList tag.name)

/-- A declaration of the model. -/
def declare (m : Model) (tag : RawTag) : Except LoadError LoadState :=
  let element := String.ofList tag.name
  let d : Declaration := ⟨element, tag⟩
  match element with
  | "structure" => (.shape m ·) <$> d.shape (.struct [])
  | "union" => (.shape m ·) <$> d.shape (.union [])
  | "enum" => (.shape m ·) <$> d.shape (.enum [])
  | "list" => (.leaf m ·) <$> d.list
  | "map" => (.leaf m ·) <$> d.map
  | "scalar" => (.leaf m ·) <$> d.scalar
  | "operation" => (.operation m ·) <$> d.operation
  | _ =>
    .error (unexpectedTag
      "<structure>, <union>, <enum>, <list>, <map>, <scalar>, or <operation>" tag)

/-- A member or value of a shape. -/
def addChild (s : Shape) (tag : RawTag) : Except LoadError Shape :=
  let element := String.ofList tag.name
  let d : Declaration := ⟨element, tag⟩
  match s.form, element with
  | .struct members, "member" => do
    return { s with form := .struct (members ++ [← d.member]) }
  | .union members, "member" => do
    return { s with form := .union (members ++ [← d.member]) }
  | .enum values, "value" => do
    return { s with form := .enum (values ++ [← d.enumValue]) }
  | _, _ => .error (unexpectedTag "<member> or <value>" tag)

/-- A start tag. -/
def onStart (state : LoadState) (tag : RawTag) : Except LoadError LoadState :=
  match state with
  | .start =>
    if String.ofList tag.name = "model" then .ok (.model .fresh)
    else .error (unexpectedTag "<model>" tag)
  | .model m => declare m tag
  | .shape m s => (.child m ·) <$> addChild s tag
  | .child _ _ | .leaf _ _ | .operation _ _ => .error (unexpectedTag "a closing tag" tag)

/-- How raw text appears in the error that refuses it. -/
def unexpectedContent (event wrapper field : String) (raw : List Char) : LoadError :=
  .unexpected "an element"
    (event ++ "(" ++ wrapper ++ " \x7b " ++ field ++ ": Borrowed(" ++ Text.quotedBytes raw ++
      ") \x7d)")

/-- Reads the rest of a model document; `declared` holds the names of the shapes so far. -/
def run (fault : Option Xml.ScanFault) (declared : List String) (state : LoadState) :
    List Token → Except LoadError Model
  | [] =>
    match fault with
    | some fault => .error (.markup (.scan fault))
    | none => .error .unfinished
  | .aside :: rest => run fault declared state rest
  | .text raw :: rest =>
    if raw.all Text.isAsciiBlank then run fault declared state rest
    else .error (unexpectedContent "Text" "BytesText" "content" raw)
  | .cdata raw :: _ => .error (unexpectedContent "CData" "BytesCData" "content" raw)
  | .start tag :: rest =>
    match state.onStart tag with
    | .ok state => run fault declared state rest
    | .error error => .error error
  | .close name :: rest =>
    match state with
    | .start => .error (unexpectedContent "End" "BytesEnd" "name" name)
    | .model m => .ok m
    | .shape m s | .leaf m s =>
      if s.name ∈ declared then .error (.duplicateShape s.name)
      else run fault (s.name :: declared) (.model (m.insert s)) rest
    | .child m s => run fault declared (.shape m s) rest
    | .operation m op => run fault declared (.model (m.addOperation op)) rest

end LoadState

/-- Loads a model document. -/
def Model.ofBytes (bytes : List UInt8) : Except LoadError Model :=
  match Text.Utf8.decode bytes with
  | .error fault => .error (.encoding fault)
  | .ok cs =>
    let stream := (Xml.Stream.ofChars cs).trimmed
    LoadState.run stream.fault [] .start stream.tokens

end WireShapes
