import WireShapes.Text.Words

/-!
# Identifiers

Identifiers of generated code are made from model names, which may be any text: the words of the
name are put into the case of their kind, everything but ASCII letters, digits and underscores is
dropped, and what is left is kept from being empty or starting with a digit.  A keyword becomes a
raw identifier, except for the few that cannot be raw, which get an underscore.
-/

namespace WireShapes.Code

/-- Words that are no identifiers as they are. -/
def keywords : List String := [
  "abstract", "as", "async", "await", "become", "box", "break", "const", "continue", "do", "dyn",
  "else", "enum", "extern", "false", "final", "fn", "for", "if", "impl", "in", "let", "loop",
  "macro", "match", "mod", "move", "mut", "override", "priv", "pub", "ref", "return", "static",
  "struct", "trait", "true", "try", "type", "typeof", "union", "unsafe", "unsized", "use",
  "virtual", "where", "while", "yield"]

/-- Words that cannot be raw identifiers either. -/
def neverRaw : List String := ["self", "Self", "super", "crate", "_"]

/-- An identifier; a raw one is written with `r#` before it. -/
structure Ident where
  name : String
  raw : Bool := false
deriving DecidableEq

namespace Ident

/-- The identifier for a word. -/
def ofText (word : String) : Ident :=
  if word ∈ neverRaw then ⟨word ++ "_", false⟩
  else if word ∈ keywords then ⟨word, true⟩
  else ⟨word, false⟩

/-- The identifier as printed. -/
def toText (ident : Ident) : String :=
  if ident.raw then "r#" ++ ident.name else ident.name

end Ident

/-- Keeps the characters of an identifier from being none, or from starting with a digit. -/
def completed (fallback : String) (cs : List Char) : String :=
  match cs with
  | [] => fallback
  | c :: rest => String.ofList (if c.isDigit then '_' :: c :: rest else c :: rest)

/-- The name of a type or variant. -/
def camelName (name : String) : String :=
  completed "Empty" (Text.camelCase name)

/-- The name of a field or function. -/
def snakeName (name : String) : String :=
  completed "empty" (Text.snakeCase name)

def camelIdent (name : String) : Ident := Ident.ofText (camelName name)

def snakeIdent (name : String) : Ident := Ident.ofText (snakeName name)

/-- The identifier of a function that is named after something, with text before and after. -/
def functionIdent (before name after : String) : Ident :=
  Ident.ofText (before ++ snakeName name ++ after)

/-- The builder of a structure. -/
def builderTypeIdent (shape : String) : Ident := Ident.ofText (camelName shape ++ "Builder")

/-- The enumeration of an operation's errors. -/
def errorTypeIdent (operation : String) : Ident := Ident.ofText (camelName operation ++ "Error")

end WireShapes.Code
