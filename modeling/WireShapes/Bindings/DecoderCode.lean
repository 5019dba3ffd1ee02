import WireShapes.Bindings.Phrases

/-!
# Code for decoders

The functions that declared decoders are written as.  Each walks the children of an element and
matches their names against the patterns of its arms, in order; a child that no arm knows is passed
over.
-/

namespace WireShapes.Bindings

open Code (Ty Expr Stmt Arm Decl Pattern Path Ident)
open Scalar (Kind)

/-! ## Values -/

/-- Runs the scalar reader of a kind on a text. -/
def readScalar (kind : Kind) (text : Expr) : Expr :=
  .attempt (.apply (.ofTrait (kindType kind) (wire ["Primitive"]) "parse_wire") [text])

/-- Puts a value into a box where one is asked for. -/
def inBox {σ : Type} (boxing : Boxing σ) (value : σ → Expr) : Expr :=
  if boxing.boxed then .applyPath (std ["boxed", "Box", "new"]) [value boxing.source]
  else value boxing.source

/-- The child at hand, for a decoder. -/
def tagArgument : Expr := .reference true (.name "tag")

/-- The text of the child at hand. -/
def tagText : Expr := .attempt (.method (.name "tag") "read_text" [])

/-- A text from an element as a value. -/
def TextSource.ofElement : TextSource → Expr
  | .string => tagText
  | .scalar kind => readScalar kind (.reference false tagText)
  | .enum type => .applyPath (.member type.toText "from") [.method tagText "as_str" []]

/-- A text from an attribute as a value. -/
def TextSource.ofAttribute : TextSource → Expr
  | .string => .method (.name "value") "to_owned" []
  | .scalar kind => readScalar kind (.name "value")
  | .enum type => .applyPath (.member type.toText "from") [.name "value"]

/-- A fresh builder of a structure. -/
def freshBuilder (type : Ident) : Expr := .applyPath (.member type.toText "builder") []

/-- The decoder of a structure, run with a fresh builder. -/
def fillStruct (decoder type : Ident) (element : Expr) : Expr :=
  .applyPath (.single decoder.toText) [element, freshBuilder type]

/-- The child at hand as a value. -/
def Source.ofElement : Source → Expr
  | .text source => source.ofElement
  | .struct decoder type =>
    .attempt (.method (.attempt (fillStruct decoder type tagArgument)) "build" [])
  | .shape decoder => .attempt (.applyPath (.single decoder.toText) [tagArgument])

/-- The entry at hand, taken apart. -/
def bindEntry (entry : Ident) : Stmt :=
  .bind (.tuple [.name "key", .name "value"]) none
    (.attempt (.applyPath (.single entry.toText) [tagArgument]))

/-! ## Functions -/

/-- The parameter that an element is decoded from. -/
def decoderParameter : Code.Parameter :=
  .typed false "decoder" (.reference none true
    (.path (wire ["ScopedDecoder"]) [.lifetime "'_", .lifetime "'_"]))

/-- The mark for a variable that may not change. -/
def unusedMut : Code.Heading := { mark := some ⟨"allow", ["unused_mut"]⟩ }

/-- A function that decodes an element. -/
def decoderFn (heading : Code.Heading) (name : Ident) (parameters : List Code.Parameter)
    (result : Ty) (body : List Stmt) : Decl :=
  .fn {
    heading, name := name.toText, parameters := decoderParameter :: parameters, isOpen := true
    result := decoded result, body }

/-- The arm for children that a pattern matches. -/
def matchingArm (pattern : String) (body : List Stmt) : Arm :=
  .mk (.name "s") (some (.method (.name "s") "matches" [.text pattern])) (.block body)

/-- Walks the children of an element, each with the first arm that matches. -/
def walk (arms : List Arm) : Stmt :=
  .give (.whileLet (.variant (.single "Some") [.mutable "tag"])
    (.attempt (.method (.name "decoder") "next_tag" []))
    [.give (.cases (.method (.name "tag") "start_el" [])
      (arms ++ [.mk (.name "_") none (.block [])]))])

/-- As `walk`, but without arms the element is passed over as a whole. -/
def walkOrSkip (arms : List Arm) : Stmt :=
  if arms.isEmpty then .run (.attempt (.method (.name "decoder") "skip" [])) else walk arms

/-- Sets a variable. -/
def assign (name : String) (value : Expr) : Stmt := .run (.assign (.name name) value)

/-- Changes the builder by one of its methods. -/
def changeBuilder (method : Ident) (arguments : List Expr) : Stmt :=
  assign "builder" (.method (.name "builder") method.toText arguments)

/-! ## Structures -/

/-- Reads a member from an attribute. -/
def AttributeArm.code (arm : AttributeArm) : Stmt :=
  .give (.ifLet (.variant (.single "Some") [.name "value"])
    (.method (.method (.name "decoder") "start_el" []) "attr" [.text arm.pattern])
    [changeBuilder arm.setter [.some (inBox arm.value TextSource.ofAttribute)]])

def StructAction.code : StructAction → List Stmt
  | .set setter value =>
    [.bind (.name "value") none (inBox value Source.ofElement),
      changeBuilder setter [.some (.name "value")]]
  | .push method item =>
    [.bind (.name "item") none (inBox item Source.ofElement),
      changeBuilder method [.name "item"]]
  | .insert method entry => [bindEntry entry, changeBuilder method [.name "key", .name "value"]]

def StructDecoder.code (decl : StructDecoder) : List Decl :=
  let builder : Ty := .named decl.builder.toText
  [decoderFn unusedMut decl.ident [.typed true "builder" builder] builder
    (decl.attributes.map AttributeArm.code ++
      [walkOrSkip (decl.arms.map fun arm => matchingArm arm.pattern arm.action.code),
        .give (.ok (.name "builder"))])]

/-! ## Unions -/

/-- Takes what a variant has gathered so far out of the union, or its default. -/
def takeGathered (variant : Path) : Stmt :=
  .bind (.mutable "acc") none (.cases (.method (.name "base") "take" [])
    [.mk (.variant (.single "Some") [.variant variant [.name "acc"]]) none (.name "acc"),
      .mk (.name "_") none (.applyPath (std ["default", "Default", "default"]) [])])

/-- Adds to what a variant has gathered. -/
def addGathered (method : String) (arguments : List Expr) : Stmt :=
  .run (.method (.name "acc") method arguments)

/-- Puts a variant into the union. -/
def putVariant (variant : Path) (payload : String) : Stmt :=
  assign "base" (.some (.applyPath variant [.name payload]))

def UnionAction.code (variant : Path) : UnionAction → List Stmt
  | .set value =>
    [.bind (.name "value") none (inBox value Source.ofElement), putVariant variant "value"]
  | .push item =>
    [takeGathered variant, .bind (.name "item") none (inBox item Source.ofElement),
      addGathered "push" [.name "item"], putVariant variant "acc"]
  | .insert entry =>
    [takeGathered variant, bindEntry entry,
      addGathered "insert" [.name "key", .name "value"], putVariant variant "acc"]

def UnionDecoder.code (decl : UnionDecoder) : List Decl :=
  let name := decl.type.toText
  let arm (arm : UnionArm) : Arm :=
    matchingArm arm.pattern (arm.action.code (.member name arm.variant.toText))
  [decoderFn unusedMut decl.ident [] (.named name)
    [.bind (.mutable "base") (some (optionOf (.named name))) .none,
      walkOrSkip (decl.arms.map arm),
      .give (.ok (.method (.name "base") "unwrap_or" [.path (.member name "Unknown")]))]]

/-! ## Lists and maps -/

/-- Starts an empty collection. -/
def bindEmpty (type : List String) : Stmt :=
  .bind (.mutable "out") none (.applyPath (std (type ++ ["new"])) [])

def ListDecoder.code (decl : ListDecoder) : List Decl :=
  [decoderFn {} decl.ident [] decl.type.tree
    [bindEmpty ["vec", "Vec"],
      walk [matchingArm decl.pattern
        [.run (.method (.name "out") "push" [inBox decl.item Source.ofElement])]],
      .give (.ok (.name "out"))]]

namespace MapDecoder

/-- Sets one part of an entry. -/
def partArm (pattern part : String) (value : Expr) : Arm :=
  matchingArm pattern [assign part (.some value)]

/-- The error of an entry that lacks a part. -/
def incomplete (missing : String) : Expr :=
  .error (.record (wire ["DecodeError", "IncompleteEntry"])
    [.mk "entry" (.method (.method (.method (.name "decoder") "start_el" []) "name" [])
        "to_string" []),
      .mk "missing" (.text missing)])

/-- The entry that two parts make up. -/
def entryOfParts (decl : MapDecoder) : Expr :=
  let found (name : String) : Pattern := .variant (.single "Some") [.name name]
  .cases (.tuple [.name "key", .name "value"])
    [.mk (.tuple [found "key", found "value"]) none
        (.ok (.tuple [.name "key", .name "value"])),
      .mk (.tuple [.name "None", .name "_"]) none (incomplete decl.keyPattern),
      .mk (.tuple [.name "_", .name "None"]) none (incomplete decl.valuePattern)]

def code (decl : MapDecoder) : List Decl :=
  [ decoderFn {} decl.ident [] decl.type.tree
      [bindEmpty ["collections", "HashMap"],
        walk [matchingArm decl.entryPattern
          [bindEntry decl.entryIdent,
            .run (.method (.name "out") "insert" [.name "key", .name "value"])]],
        .give (.ok (.name "out"))],
    decoderFn {} decl.entryIdent [] (.tuple [decl.keyType.tree, decl.valueType.tree])
      [.bind (.mutable "key") none .none,
        .bind (.mutable "value") none .none,
        walk
          [partArm decl.keyPattern "key" (inBox decl.key TextSource.ofElement),
            partArm decl.valuePattern "value" (inBox decl.value Source.ofElement)],
        .give decl.entryOfParts] ]

end MapDecoder

def DecoderDecl.code : DecoderDecl → List Decl
  | .struct decl => decl.code
  | .union decl => decl.code
  | .list decl => decl.code
  | .map decl => decl.code

end WireShapes.Bindings
