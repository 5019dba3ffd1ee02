import WireShapes.Decoding.Builder
import WireShapes.Wire.ErrorReport

/-!
# Running decoders

What the declared decoders do with a document.  A structure's decoder reads its attributes and then
its children in order; the first arm whose pattern a child's name satisfies says what the child is,
and a child that no arm knows is passed over.  Decoders call each other only for children, so the
nesting limit of the document bounds their recursion: `levels` is how deep the element in hand may
still nest.
-/

namespace WireShapes

open Wire (Element Reading DecodeError ErrorReport StartTag)
open Code (Ident)

namespace Bindings

/-! ## Looking declarations up -/

def structDecl? (b : Bindings) (ident : Ident) : Option StructDecl :=
  b.types.findSome? fun
    | .struct decl => if decl.ident = ident then some decl else none
    | _ => none

def unionDecl? (b : Bindings) (ident : Ident) : Option UnionDecl :=
  b.types.findSome? fun
    | .union decl => if decl.ident = ident then some decl else none
    | _ => none

def enumDecl? (b : Bindings) (ident : Ident) : Option EnumDecl :=
  b.types.findSome? fun
    | .enum decl => if decl.ident = ident then some decl else none
    | _ => none

/-- The identifier of a decoder. -/
def DecoderDecl.ident : DecoderDecl → Ident
  | .struct decl => decl.ident
  | .union decl => decl.ident
  | .list decl => decl.ident
  | .map decl => decl.ident

def decoder? (b : Bindings) (ident : Ident) : Option DecoderDecl :=
  b.decoders.find? fun decl => decl.ident = ident

/-- The map decoder that has an entry decoder. -/
def entryDecoder? (b : Bindings) (ident : Ident) : Option MapDecoder :=
  b.decoders.findSome? fun
    | .map decl => if decl.entryIdent = ident then some decl else none
    | _ => none

/-- What was looked up, or the error of a call of something undeclared. -/
def declared {α : Type} (ident : Ident) (found : Option α) : Except DecodeError α :=
  match found with
  | some decl => .ok decl
  | none => .error (.undeclared ident.toText)

/-! ## Values -/

/-- The value of a text. -/
def datum (b : Bindings) (source : TextSource) (text : String) : Except DecodeError Datum :=
  match source with
  | .string => .ok (.scalar (.string text))
  | .scalar kind =>
    match kind.value? text with
    | some value => .ok (.scalar value)
    | none => .error (.scalar kind.label text)
  | .enum type => (fun decl => .enum (decl.ofText text)) <$> declared type (b.enumDecl? type)

/-- Builds a structure. -/
def build (b : Bindings) (type : Ident) (builder : Builder) : Except DecodeError Value := do
  builder.build (← declared type (b.structDecl? type))

/-- The way in which an element is read as a value. -/
abbrev Reader := Source → Element → Reading Value

/-- The arm for a child: the first whose pattern its name satisfies. -/
def armFor {α : Type} (pattern : α → String) (arms : List α) (start : StartTag) : Option α :=
  arms.find? fun arm => start.matchesPattern (pattern arm)

/-- The key and value of an entry so far. -/
abbrev EntryParts := Option Datum × Option Value

/-- What a child of a map entry is. -/
inductive EntryPart
  | key
  | value
deriving DecidableEq

def MapDecoder.part? (d : MapDecoder) (start : StartTag) : Option EntryPart :=
  if start.matchesPattern d.keyPattern then some .key
  else if start.matchesPattern d.valuePattern then some .value
  else none

/-- Reads one child of a map entry. -/
def entryChild (b : Bindings) (read : Reader) (d : MapDecoder) (parts : EntryParts)
    (child : Element) : Reading EntryParts :=
  match d.part? child.start with
  | some .key => do
    let text ← child.text
    let key ← Reading.give (b.datum d.key.source text)
    return (some key, parts.2)
  | some .value => do return (parts.1, some (← read d.value.source child))
  | none => pure parts

/-- The entry that its parts make up. -/
def entryOf (d : MapDecoder) (e : Element) : EntryParts → Except DecodeError (Datum × Value)
  | (some key, some value) => .ok (key, value)
  | (none, _) => .error (.incompleteEntry e.name d.keyPattern)
  | (_, none) => .error (.incompleteEntry e.name d.valuePattern)

/-- Reads one entry of a map. -/
def readEntry (b : Bindings) (read : Reader) (d : MapDecoder) (e : Element) :
    Reading (Datum × Value) := do
  let parts ← e.foldChildren (b.entryChild read d) (none, none)
  Reading.give (entryOf d e parts)

/-- Reads one entry by the entry decoder of an identifier. -/
def readEntryBy (b : Bindings) (read : Reader) (entry : Ident) (e : Element) :
    Reading (Datum × Value) := do
  let d ← Reading.give (declared entry (b.entryDecoder? entry))
  b.readEntry read d e

/-! ## Shapes -/

/-- Sets the members that attributes give. -/
def readAttributes (b : Bindings) (start : StartTag) (builder : Builder) :
    List AttributeArm → Except DecodeError Builder
  | [] => .ok builder
  | arm :: rest =>
    match start.get? arm.pattern with
    | none => readAttributes b start builder rest
    | some text => do
      let value ← b.datum arm.value.source text
      readAttributes b start (builder.set arm.member (some (.datum value))) rest

/-- Reads one child of a structure. -/
def structChild (b : Bindings) (read : Reader) (d : StructDecoder) (builder : Builder)
    (child : Element) : Reading Builder :=
  match armFor StructArm.pattern d.arms child.start with
  | none => pure builder
  | some arm =>
    match arm.action with
    | .set _ value => do
      return builder.set arm.member (some (← read value.source child))
    | .push _ item => do return builder.push arm.member (← read item.source child)
    | .insert _ entry => do
      let (key, value) ← b.readEntryBy read entry child
      return builder.insert arm.member key value

/-- Reads the members of a structure into a builder. -/
def fill (b : Bindings) (read : Reader) (d : StructDecoder) (builder : Builder) (e : Element) :
    Reading Builder := do
  let builder ← Reading.give (b.readAttributes e.start builder d.attributes)
  e.foldChildren (b.structChild read d) builder

/-- Reads the members of a structure by the decoder of an identifier. -/
def fillBy (b : Bindings) (read : Reader) (decoder : Ident) (e : Element) : Reading Builder :=
  match b.decoder? decoder with
  | some (.struct d) => b.fill read d .empty e
  | _ => Reading.fail (.undeclared decoder.toText)

/-- The member that a union holds so far. -/
abbrev Held := Option (String × Value)

/-- What a union holds of a member, if it is that one. -/
def heldOf (held : Held) (member : String) : Option Value :=
  match held with
  | some (holder, value) => if holder = member then some value else none
  | none => none

/-- Reads one child of a union. -/
def unionChild (b : Bindings) (read : Reader) (d : UnionDecoder) (held : Held) (child : Element) :
    Reading Held :=
  match armFor UnionArm.pattern d.arms child.start with
  | none => pure held
  | some arm =>
    match arm.action with
    | .set value => do return some (arm.member, ← read value.source child)
    | .push item => do
      let items := ((heldOf held arm.member).map Value.items).getD []
      return some (arm.member, .list (items ++ [← read item.source child]))
    | .insert entry => do
      let entries := ((heldOf held arm.member).map Value.entries).getD []
      let (key, value) ← b.readEntryBy read entry child
      return some (arm.member, .map (Value.putEntry entries key value))

/-- The union that holds a member, or nothing known. -/
def unionValue : Held → Value
  | some (member, value) => .variant member value
  | none => .unknownVariant

/-- Reads a union. -/
def readUnion (b : Bindings) (read : Reader) (d : UnionDecoder) (e : Element) : Reading Value := do
  let held ← e.foldChildren (b.unionChild read d) none
  return unionValue held

/-- Reads a list whose items stand inside an element of its own. -/
def readList (read : Reader) (d : ListDecoder) (e : Element) : Reading Value := do
  let item (items : List Value) (child : Element) : Reading (List Value) :=
    if child.start.matchesPattern d.pattern then do
      return items ++ [← read d.item.source child]
    else pure items
  return .list (← e.foldChildren item [])

/-- Reads a map whose entries stand inside an element of its own. -/
def readMap (b : Bindings) (read : Reader) (d : MapDecoder) (e : Element) : Reading Value := do
  let entry (entries : List (Datum × Value)) (child : Element) : Reading (List (Datum × Value)) :=
    if child.start.matchesPattern d.entryPattern then do
      let (key, value) ← b.readEntryBy read d.entryIdent child
      return Value.putEntry entries key value
    else pure entries
  return .map (← e.foldChildren entry [])

/-- Reads a union, list or map by the decoder of an identifier. -/
def readShape (b : Bindings) (read : Reader) (decoder : Ident) (e : Element) : Reading Value :=
  match b.decoder? decoder with
  | some (.union d) => b.readUnion read d e
  | some (.list d) => readList read d e
  | some (.map d) => b.readMap read d e
  | _ => Reading.fail (.undeclared decoder.toText)

/-- Reads an element as a value; it may nest `levels` deep, itself included. -/
def read (b : Bindings) : (levels : Nat) → Reader
  | _, .text source, e => do
    let text ← e.text
    Reading.give (.datum <$> b.datum source text)
  | 0, _, _ => Reading.fail (.tooDeep Wire.defaultMaxDepth)
  | levels + 1, .struct decoder type, e => do
    let builder ← b.fillBy (b.read levels) decoder e
    Reading.give (b.build type builder)
  | levels + 1, .shape decoder, e => b.readShape (b.read levels) decoder e

/-! ## Entry points -/

/-- Reads an element of a document with the usual nesting limit. -/
def readElement (b : Bindings) : Reader := b.read Wire.defaultMaxDepth

/-- Decodes the input of an operation. -/
def parseInput (b : Bindings) (decl : InputDecl) (bytes : List UInt8) : Except DecodeError Value :=
  Wire.decodeRoot bytes fun root => do
    Reading.give (root.expect decl.root)
    b.readElement (.struct decl.decoder decl.type) root

/-- Reads one child of a response: each result replaces the one before. -/
def responseChild (b : Bindings) (decl : OutputDecl) (result : String) (builder : Option Builder)
    (child : Element) : Reading (Option Builder) :=
  if child.start.matchesPattern result then do
    return some (← b.fillBy b.readElement decl.decoder child)
  else pure builder

/-- Decodes the output of an operation. -/
def parseOutput (b : Bindings) (decl : OutputDecl) (bytes : List UInt8) :
    Except DecodeError Value :=
  Wire.decodeRoot bytes fun root =>
    match decl.place with
    | .root pattern => do
      Reading.give (root.expect pattern)
      b.readElement (.struct decl.decoder decl.type) root
    | .result response result => do
      Reading.give (root.expect response)
      match ← root.foldChildren (b.responseChild decl result) none with
      | some builder => Reading.give (b.build decl.type builder)
      | none => Reading.fail (.missingElement result)

/-- A decoded error of an operation. -/
inductive Failure
  | modeled (case : CodeCase) (value : Value)
  | unhandled (report : ErrorReport)

/-- Decodes an error of an operation: the code of its report selects the structure. -/
def parseFailure (b : Bindings) (decl : FailureDecl) (bytes : List UInt8) :
    Except DecodeError Failure := do
  let report ← ErrorReport.parse bytes decl.wrapped
  match decl.cases.find? fun case => report.code == some case.code with
  | none => return .unhandled report
  | some case => do
    let builder ← Wire.inErrorElement bytes decl.wrapped (b.fillBy b.readElement case.decoder)
    return .modeled case (← b.build case.type builder)

/-- A decoded error on one line. -/
def displayFailure (b : Bindings) : Failure → String
  | .unhandled report => report.toText
  | .modeled case value =>
    match b.structDecl? case.type with
    | some decl => decl.displayText value
    | none => case.shape

/-- What a function of the bindings gives. -/
inductive Answer
  | value (value : Value)
  | entry (key : Datum) (value : Value)
  | failure (failure : Failure)

/-- The decoder of a shape run on the root of a document; a structure is built afterwards. -/
def runDecoder (b : Bindings) (decl : DecoderDecl) (bytes : List UInt8) :
    Except DecodeError Answer :=
  let source : Source := match decl with
    | .struct d => .struct d.ident (Code.camelIdent d.shape)
    | _ => .shape decl.ident
  .value <$> Wire.decodeRoot bytes (b.readElement source)

/-- The function of an operation's entry points that a name stands for. -/
def operationCall? (b : Bindings) (function : String) (op : OperationDecl) :
    Option (List UInt8 → Except DecodeError Answer) :=
  let input := (op.input.filter fun d => d.ident.toText = function).map fun d bytes =>
    .value <$> b.parseInput d bytes
  let output := (op.output.filter fun d => d.ident.toText = function).map fun d bytes =>
    .value <$> b.parseOutput d bytes
  let failure := ((some op.failure).filter fun d => d.ident.toText = function).map fun d bytes =>
    .failure <$> b.parseFailure d bytes
  input <|> output <|> failure

/-- The function of the bindings that a name stands for, applied to documents. -/
def call? (b : Bindings) (function : String) : Option (List UInt8 → Except DecodeError Answer) :=
  let decoder := (b.decoders.find? fun d => d.ident.toText = function).map b.runDecoder
  let entry := (b.decoders.findSome? fun
    | .map d => if d.entryIdent.toText = function then some d else none
    | _ => none).map fun d bytes =>
      (fun (key, value) => .entry key value) <$> Wire.decodeRoot bytes (b.readEntry b.readElement d)
  b.operations.findSome? (b.operationCall? function) <|> decoder <|> entry

end Bindings

end WireShapes
