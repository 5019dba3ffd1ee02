import WireShapes.Text.Blank
import WireShapes.Xml.Reference

/-!
# Attribute lists

`Attributes.scan` reads the part of a start tag after its name into raw attributes, up to the first
fault.  What precedes a fault is kept, because a look-up that ends before the fault never sees it.
Positions count bytes from the tag name's first byte.
-/

namespace WireShapes.Xml

/-- An attribute as written: its value still holds references. -/
structure RawAttribute where
  key : List Char
  value : List Char
deriving DecidableEq

/-- What the reader of an attribute list is in the middle of. -/
inductive AttributeStage
  /-- Between two attributes. -/
  | between
  /-- In a key that began at a position; letters are kept last first. -/
  | key (start : Nat) (seen : List Char)
  /-- After a key and a blank, before its equals sign. -/
  | equals (start : Nat) (key : List Char)
  /-- After the equals sign, before the opening quote. -/
  | opening (key : List Char)
  /-- Between the quotes. -/
  | value (key : List Char) (quote : Char) (seen : List Char)

/-- The attributes of a tag up to its first fault. -/
structure Attributes where
  found : List RawAttribute
  fault : Option AttributeFault

namespace Attributes

/-- An attribute in front of those that follow it. -/
def cons (first : RawAttribute) (rest : Attributes) : Attributes :=
  { rest with found := first :: rest.found }

/-- No attribute, only a fault. -/
def faulty (fault : AttributeFault) : Attributes :=
  ⟨[], some fault⟩

/-- Where a key was declared before. -/
def declaredAt? (known : List (List Char × Nat)) (key : List Char) : Option Nat :=
  (known.find? fun entry => entry.1 = key).map Prod.snd

/-- The fault of a list that ends in the middle of an attribute. -/
def atEnd (stage : AttributeStage) (index : Nat) : Attributes :=
  match stage with
  | .between => ⟨[], none⟩
  | .key _ _ | .equals _ _ => faulty (.expectedEquals index)
  | .opening _ => faulty (.expectedValue index)
  | .value _ quote _ => faulty (.expectedQuote index quote)

/-- Reads the rest of an attribute list; `known` holds the keys so far and where they start. -/
def scanFrom (known : List (List Char × Nat)) (stage : AttributeStage) (index : Nat) :
    List Char → Attributes
  | [] => atEnd stage index
  | c :: rest =>
    let next := index + c.utf8Size
    match stage with
    | .between =>
      if Text.isMarkupBlank c then scanFrom known .between next rest
      else scanFrom known (.key index [c]) next rest
    | .key start seen =>
      if c = '=' then
        match declaredAt? known seen.reverse with
        | some earlier => faulty (.duplicate start earlier)
        | none => scanFrom ((seen.reverse, start) :: known) (.opening seen.reverse) next rest
      else if Text.isMarkupBlank c then scanFrom known (.equals start seen.reverse) next rest
      else scanFrom known (.key start (c :: seen)) next rest
    | .equals start key =>
      if Text.isMarkupBlank c then scanFrom known (.equals start key) next rest
      else if c = '=' then
        match declaredAt? known key with
        | some earlier => faulty (.duplicate start earlier)
        | none => scanFrom ((key, start) :: known) (.opening key) next rest
      else faulty (.expectedEquals index)
    | .opening key =>
      if Text.isMarkupBlank c then scanFrom known (.opening key) next rest
      else if c = '"' ∨ c = '\'' then scanFrom known (.value key c []) next rest
      else faulty (.unquotedValue index)
    | .value key quote seen =>
      if c = quote then cons ⟨key, seen.reverse⟩ (scanFrom known .between next rest)
      else scanFrom known (.value key quote (c :: seen)) next rest

end Attributes

/-- A start tag as written: its name, and what stands between the name and the end of the tag. -/
structure RawTag where
  name : List Char
  rest : List Char
deriving DecidableEq

namespace RawTag

/-- Splits the inside of a tag after its name. -/
def ofContent (content : List Char) : RawTag :=
  let (name, rest) := content.span fun c => !Text.isMarkupBlank c
  ⟨name, rest⟩

/-- The attributes of the tag. -/
def attributes (tag : RawTag) : Attributes :=
  Attributes.scanFrom [] .between (utf8Length tag.name) tag.rest

end RawTag

end WireShapes.Xml
