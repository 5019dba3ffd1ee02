import WireShapes.Bindings.Declaration
import WireShapes.Code.Tree
import WireShapes.Text.Blank

/-!
# Phrases of generated code

The types and expressions that declarations of every sort are written with.
-/

namespace WireShapes

open Code (Path Ty Expr DocLine)
open Scalar (Kind)

namespace Bindings

/-- Something of the standard library. -/
def std (names : List String) : Path := .global ("std" :: names)

/-- Something of the library that generated code decodes with. -/
def wire (names : List String) : Path := .global ("xml_wire" :: names)

/-- The type of a scalar kind. -/
def kindType : Kind → Ty
  | .string => .plain (std ["string", "String"])
  | .boolean => .named "bool"
  | .byte => .named "i8"
  | .short => .named "i16"
  | .integer => .named "i32"
  | .long => .named "i64"
  | .float => .named "f32"
  | .double => .named "f64"
  | .timestamp => .plain (wire ["DateTime"])
  | .blob => .plain (wire ["Blob"])

end Bindings

open Bindings

/-- A type as generated code spells it. -/
def TypeExpr.tree : TypeExpr → Ty
  | .scalar kind => kindType kind
  | .vec item => .path (std ["vec", "Vec"]) [item.tree]
  | .hashMap key value => .path (std ["collections", "HashMap"]) [key.tree, value.tree]
  | .named name => .named (Code.Ident.ofText name).toText
  | .boxed inner => .path (std ["boxed", "Box"]) [inner.tree]

namespace Bindings

/-- The documentation of a model, a line each, without blanks around them. -/
def docLines (doc : Option String) : List DocLine :=
  doc.toList.flatMap fun text => (Text.lines text).map fun line => .model (Text.trim line)

def optionOf (type : Ty) : Ty := .path (std ["option", "Option"]) [type]

def resultOf (type error : Ty) : Ty := .path (std ["result", "Result"]) [type, error]

/-- A result whose error is a decoding error. -/
def decoded (type : Ty) : Ty := resultOf type (.plain (wire ["DecodeError"]))

def selfType : Ty := .named "Self"

def stringType : Ty := kindType .string

/-- The parameter that a value is displayed to. -/
def formatter : Code.Parameter :=
  .typed false "f"
    (.reference none true (.path (std ["fmt", "Formatter"]) [.lifetime "'_"]))

/-- The method that displays a value. -/
def displayMethod (body : List Code.Stmt) : Code.Part :=
  .fn {
    isPublic := false, name := "fmt", parameters := [.receiver .borrowed, formatter]
    result := .plain (std ["fmt", "Result"]), body }

/-- The implementation of displaying for a type. -/
def displayFor (type : Ty) (body : List Code.Stmt) : Code.Decl :=
  .implementation (some (.plain (std ["fmt", "Display"]))) type [displayMethod body]

/-- A type that is an error. -/
def errorFor (type : Ty) : Code.Decl :=
  .implementation (some (.plain (std ["error", "Error"]))) type []

/-- The default of whatever type is asked for. -/
def defaultValue : Expr := .path (std ["default", "Default", "default"])

/-- Writes something after a colon. -/
def writeAfterColon (value : Expr) : Expr :=
  .attempt (.expand "write" [.name "f", .text ": \x7b\x7d", value])

/-- The mark for derived instances. -/
def deriving? (names : List String) : Option Code.Mark := some ⟨"derive", names⟩

end Bindings

end WireShapes
