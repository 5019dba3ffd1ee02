import WireShapes.Bindings.Phrases

/-!
# Code for types

What declared types are written as: a structure with its builder, a union with its
accessors, an enumeration with its conversions, and the errors of an operation.
-/

namespace WireShapes.Bindings

open Code (Ty Expr Stmt Arm Decl Part Path)

/-! ## Structures -/

namespace Field

def name (field : Field) : String := field.ident.toText

/-- The type of the field: an option unless the member is required. -/
def fieldType (field : Field) : Ty :=
  if field.required then field.type.tree else optionOf field.type.tree

/-- The field of the object at hand. -/
def ofSelf (field : Field) : Expr := .field .self field.name

/-- The value of the field in a structure that is built. -/
def built (shape : String) (field : Field) : Code.Field :=
  .mk field.name (if field.required then
      .attempt (.method field.ofSelf "ok_or" [.record (wire ["BuildError", "MissingMember"])
        [.mk "shape" (.text shape), .mk "member" (.text field.member)]])
    else field.ofSelf)

/-- A method that changes a builder and hands it on. -/
def builderMethod (name : String) (docs : List Code.DocLine) (parameters : List Code.Parameter)
    (change : Expr) : Part :=
  .fn {
    heading := { docs }, name, parameters := .receiver .changing :: parameters
    result := selfType, body := [.run change, .give .self] }

/-- Adds to the collection of the field, which starts out as its default. -/
def addTo (field : Field) (method : String) (arguments : List Expr) : Expr :=
  .method (.method field.ofSelf "get_or_insert_with" [defaultValue]) method arguments

/-- The method that adds to the field. -/
def adderMethod (field : Field) : Adder → Part
  | .push method item =>
    builderMethod method.toText [] [.typed false "item" item.tree]
      (field.addTo "push" [.name "item"])
  | .insert method key value =>
    builderMethod method.toText []
      [.typed false "key" key.tree, .typed false "value" value.tree]
      (field.addTo "insert" [.name "key", .name "value"])

/-- The builder methods of the field. -/
def methods (field : Field) : List Part :=
  let setValue := builderMethod field.name (docLines field.doc)
    [.typed false "value" field.type.tree] (.assign field.ofSelf (.some (.name "value")))
  let setOption := builderMethod field.setter.toText []
    [.typed false "value" (optionOf field.type.tree)] (.assign field.ofSelf (.name "value"))
  let get := .fn {
    name := field.getter.toText, parameters := [.receiver .borrowed]
    result := .to (optionOf field.type.tree), body := [.give (.reference false field.ofSelf)] }
  [setValue, setOption, get] ++ field.adder.toList.map field.adderMethod

end Field

/-- The statements that display a structure which describes a failure. -/
def Display.statements (shape : String) (display : Display) : List Stmt :=
  .run (.attempt (.method (.name "f") "write_str" [.text shape])) ::
    (display.message.toList.map fun field =>
      if field.required then .run (writeAfterColon field.ofSelf)
      else .give (.ifLet (.variant (.single "Some") [.name "message"])
        (.reference false field.ofSelf) [.run (writeAfterColon (.name "message"))])) ++
    [.give (.ok (.tuple []))]

namespace StructDecl

def type (decl : StructDecl) : Ty := .named decl.ident.toText

def builderType (decl : StructDecl) : Ty := .named decl.builder.toText

/-- The function that starts a builder. -/
def start (decl : StructDecl) : Part :=
  .fn {
    name := "builder", parameters := [], result := decl.builderType
    body := [.give (.apply
      (.ofTrait decl.builderType (std ["default", "Default"]) "default") [])] }

/-- The method that builds the structure. -/
def finish (decl : StructDecl) : Part :=
  .fn {
    name := "build", parameters := [.receiver .owned]
    result := resultOf decl.type (.plain (wire ["BuildError"]))
    body := [.give (.ok (.record (.single decl.ident.toText)
      (decl.fields.map fun field => field.built decl.shape)))] }

def code (decl : StructDecl) : List Decl :=
  [ .record { docs := docLines decl.doc, mark := deriving? ["Debug", "Clone", "PartialEq"] }
      decl.ident.toText
      (decl.fields.map fun field => ⟨docLines field.doc, true, field.name, field.fieldType⟩),
    .implementation none decl.type [decl.start],
    .record { mark := deriving? ["Debug", "Clone", "Default", "PartialEq"] } decl.builder.toText
      (decl.fields.map fun field => ⟨[], false, field.name, optionOf field.type.tree⟩),
    .implementation none decl.builderType (decl.fields.flatMap Field.methods ++ [decl.finish]) ] ++
  decl.display.toList.flatMap fun display =>
    [displayFor decl.type (display.statements decl.shape), errorFor decl.type]

end StructDecl

/-! ## Unions -/

namespace UnionDecl

def name (decl : UnionDecl) : String := decl.ident.toText

def type (decl : UnionDecl) : Ty := .named decl.name

/-- The accessors of a variant: the value or the union itself, and whether there is one. -/
def accessors (decl : UnionDecl) (case : UnionCase) : List Part :=
  [ .fn {
      name := case.asMethod.toText, parameters := [.receiver .borrowed]
      result := resultOf (.to case.type.tree) (.to selfType)
      body := [.give (.ifLetElse
        (.variant (.member decl.name case.variant.toText) [.name "value"]) .self
        [.give (.ok (.name "value"))] [.give (.error .self)])] },
    .fn {
      name := case.isMethod.toText, parameters := [.receiver .borrowed]
      result := .named "bool"
      body := [.give (.method (.method .self case.asMethod.toText []) "is_ok" [])] } ]

/-- Tells whether the union holds nothing known. -/
def isUnknown (decl : UnionDecl) : Part :=
  .fn {
    name := "is_unknown", parameters := [.receiver .borrowed], result := .named "bool"
    body := [.give (.expand "matches" [.self, .path (.member decl.name "Unknown")])] }

def code (decl : UnionDecl) : List Decl :=
  [ .choice { docs := docLines decl.doc, mark := deriving? ["Debug", "Clone", "PartialEq"] }
      decl.name
      ((decl.cases.map fun case =>
          ⟨docLines case.doc, case.variant.toText, some case.type.tree⟩) ++
        [⟨[.own "A member this version of the model does not know about."], "Unknown", none⟩]),
    .implementation none decl.type (decl.cases.flatMap decl.accessors ++ [decl.isUnknown]) ]

end UnionDecl

/-! ## Enumerations -/

namespace EnumDecl

def name (decl : EnumDecl) : String := decl.ident.toText

def type (decl : EnumDecl) : Ty := .named decl.name

def variantPath (decl : EnumDecl) (case : EnumCase) : Path := .member decl.name case.variant.toText

def unknownPath (decl : EnumDecl) : Path := .member decl.name "Unknown"

def textType : Ty := .to (.named "str")

/-- Gives the text of a value. -/
def asText (decl : EnumDecl) : Part :=
  .fn {
    name := "as_str", parameters := [.receiver .borrowed], result := textType
    body := [.give (.cases .self
      ((decl.cases.map fun case =>
          .mk (.path (decl.variantPath case)) none (.text case.literal)) ++
        [.mk (.variant decl.unknownPath [.name "value"]) none
          (.method (.name "value") "as_str" [])]))] }

/-- Gives the texts of all known values. -/
def allTexts (decl : EnumDecl) : Part :=
  .fn {
    heading := { docs := [.own "Every known value, in declaration order."] }
    isConst := true, name := "values", parameters := []
    result := .reference (some "'static") false
      (.slice (.reference (some "'static") false (.named "str")))
    body := [.give (.reference false (.array (decl.cases.map fun case => .text case.literal)))] }

/-- Gives the value of a text. -/
def fromText (decl : EnumDecl) : Part :=
  .fn {
    isPublic := false, name := "from", parameters := [.typed false "s" textType]
    result := selfType
    body := [.give (.cases (.name "s")
      ((decl.cases.map fun case =>
          .mk (.text case.literal) none (.path (decl.variantPath case))) ++
        [.mk (.name "other") none
          (.applyPath decl.unknownPath [.method (.name "other") "to_owned" []])]))] }

/-- The conversion of a text, which never fails. -/
def parsing (decl : EnumDecl) : List Part :=
  [ .alias "Err" (.plain (std ["convert", "Infallible"])),
    .fn {
      isPublic := false, name := "from_str", parameters := [.typed false "s" textType]
      result := resultOf selfType (.plain (.member "Self" "Err"))
      body := [.give (.ok (.applyPath (.member decl.name "from") [.name "s"]))] } ]

def asReference : Part :=
  .fn {
    isPublic := false, name := "as_ref", parameters := [.receiver .borrowed]
    result := textType, body := [.give (.method .self "as_str" [])] }

def code (decl : EnumDecl) : List Decl :=
  [ .choice {
        docs := docLines decl.doc
        mark := deriving? ["Debug", "Clone", "PartialEq", "Eq", "Hash", "PartialOrd", "Ord"] }
      decl.name
      ((decl.cases.map fun case => ⟨docLines case.doc, case.variant.toText, none⟩) ++
        [⟨[.own "A value this version of the model does not know about."], "Unknown",
          some stringType⟩]),
    .implementation none decl.type [decl.asText, decl.allTexts],
    .implementation (some (.path (std ["convert", "From"]) [textType])) decl.type [decl.fromText],
    .implementation (some (.plain (std ["str", "FromStr"]))) decl.type decl.parsing,
    .implementation (some (.path (std ["convert", "AsRef"]) [.named "str"])) decl.type
      [asReference],
    displayFor decl.type
      [.give (.method (.name "f") "write_str" [.method .self "as_str" []])] ]

end EnumDecl

def TypeDecl.code : TypeDecl → List Decl
  | .struct decl => decl.code
  | .union decl => decl.code
  | .enum decl => decl.code

/-! ## Errors of operations -/

namespace OperationErrorDecl

def name (decl : OperationErrorDecl) : String := decl.ident.toText

def type (decl : OperationErrorDecl) : Ty := .named decl.name

/-- The arm that displays what a variant holds. -/
def displayArm (decl : OperationErrorDecl) (variant held : String) : Arm :=
  .mk (.variant (.member decl.name variant) [.name held]) none
    (.applyPath (std ["fmt", "Display", "fmt"]) [.name held, .name "f"])

def code (decl : OperationErrorDecl) : List Decl :=
  [ .choice {
        docs := docLines (some ("Errors `" ++ decl.operation ++ "` can return."))
        mark := deriving? ["Debug"] }
      decl.name
      ((decl.cases.map fun case => ⟨[], case.variant.toText, some case.type.tree⟩) ++
        [⟨[.own "An error code the model does not describe."], "Unhandled",
          some (.plain (wire ["ErrorMetadata"]))⟩]),
    displayFor decl.type [.give (.cases .self
      ((decl.cases.map fun case => decl.displayArm case.variant.toText "err") ++
        [decl.displayArm "Unhandled" "meta"]))],
    errorFor decl.type ]

end OperationErrorDecl

end WireShapes.Bindings
