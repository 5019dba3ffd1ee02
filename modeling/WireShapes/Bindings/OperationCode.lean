import WireShapes.Bindings.DecoderCode
import WireShapes.Bindings.TypeCode

/-!
# Code for operations

The functions that an operation's entry points are written as.  Each takes the bytes of a document.
-/

namespace WireShapes.Bindings

open Code (Ty Expr Stmt Arm Decl Path Ident)

/-- A function that decodes a document. -/
def entryPoint (name result : Ident) (body : List Stmt) : Decl :=
  .fn {
    name := name.toText, parameters := [.typed false "input" (.to (.slice (.named "u8")))]
    result := decoded (.named result.toText), body }

/-- Opens the document and finds its root. -/
def openRoot : List Stmt :=
  [.bind (.mutable "doc") none
      (.attempt (.applyPath (wire ["Document", "try_from_bytes"]) [.name "input"])),
    .bind (.mutable "root") none (.attempt (.method (.name "doc") "root_element" []))]

/-- Insists on the name of the root. -/
def expectRoot (pattern : String) : Stmt :=
  .run (.attempt (.method (.name "root") "expect_element" [.text pattern]))

/-- The structure that the builder at hand builds. -/
def builtStruct : Expr := .attempt (.method (.name "builder") "build" [])

/-- Decodes the root as a structure. -/
def decodeRootStruct (pattern : String) (decoder type : Ident) : List Stmt :=
  [expectRoot pattern,
    .bind (.name "builder") none
      (.attempt (fillStruct decoder type (.reference true (.name "root")))),
    .give (.ok builtStruct)]

def InputDecl.code (decl : InputDecl) : Decl :=
  entryPoint decl.ident decl.type (openRoot ++ decodeRootStruct decl.root decl.decoder decl.type)

/-- Decodes the last result inside a response. -/
def decodeResult (response result : String) (decoder type : Ident) : List Stmt :=
  [expectRoot response,
    .bind (.mutable "builder") none .none,
    .give (.whileLet (.variant (.single "Some") [.mutable "tag"])
      (.attempt (.method (.name "root") "next_tag" []))
      [.give (.ifThen
        (.method (.method (.name "tag") "start_el" []) "matches" [.text result])
        [assign "builder" (.some (.attempt (fillStruct decoder type tagArgument)))])]),
    .give (.cases (.name "builder")
      [.mk (.variant (.single "Some") [.name "builder"]) none (.ok builtStruct),
        .mk (.name "None") none (.error (.call (.path (wire ["DecodeError", "MissingElement"]))
          [.applyPath (std ["borrow", "Cow", "Borrowed"]) [.text result]] true))])]

def OutputDecl.code (decl : OutputDecl) : Decl :=
  entryPoint decl.ident decl.type (openRoot ++
    match decl.place with
    | .root pattern => decodeRootStruct pattern decl.decoder decl.type
    | .result response result => decodeResult response result decl.decoder decl.type)

namespace FailureDecl

/-- The arm for the code of an error. -/
def arm (decl : FailureDecl) (case : CodeCase) : Arm :=
  .mk (.variant (.single "Some") [.text case.code]) none (.block
    [.bind (.name "builder") none (.attempt (.applyPath (wire ["within_error"])
        [.name "input", .flag decl.wrapped,
          .closure "decoder" (.block
            [.give (fillStruct case.decoder case.type (.name "decoder"))])])),
      .give (.applyPath (.member decl.type.toText case.variant.toText) [builtStruct])])

def code (decl : FailureDecl) : Decl :=
  entryPoint decl.ident decl.type
    [.bind (.name "meta") none (.attempt (.applyPath (wire ["ErrorMetadata", "parse"])
        [.name "input", .flag decl.wrapped])),
      .bind (.name "code") none (.method (.method (.name "meta") "code" []) "map"
        [.path (.member "str" "to_owned")]),
      .give (.ok (.cases (.method (.name "code") "as_deref" [])
        (decl.cases.map decl.arm ++
          [.mk (.name "_") none
            (.applyPath (.member decl.type.toText "Unhandled") [.name "meta"])])))]

end FailureDecl

def OperationDecl.code (decl : OperationDecl) : List Decl :=
  decl.input.toList.map InputDecl.code ++ decl.output.toList.map OutputDecl.code ++
    [decl.failure.code]

end WireShapes.Bindings

namespace WireShapes

/-- Generated code, in order. -/
def Bindings.code (b : Bindings) : List Code.Decl :=
  b.types.flatMap Bindings.TypeDecl.code ++
    b.errors.flatMap Bindings.OperationErrorDecl.code ++
    b.decoders.flatMap Bindings.DecoderDecl.code ++
    b.operations.flatMap Bindings.OperationDecl.code

end WireShapes
