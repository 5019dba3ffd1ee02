import WireShapes.Code.Tree
import WireShapes.Text.Quoted

/-!
# Code in one line

The words of generated code with one blank between any two.  There is none inside round and square
brackets, and one on each side inside braces, also around nothing.
-/

namespace WireShapes.Code

/-- Words with a blank between any two. -/
def spaced (words : List String) : String := " ".intercalate words

def parenthesized (words : List String) : String := "(" ++ spaced words ++ ")"

def bracketed (words : List String) : String := "[" ++ spaced words ++ "]"

def braced (words : List String) : String :=
  if words.isEmpty then "\x7b \x7d" else "\x7b " ++ spaced words ++ " \x7d"

/-- Puts a comma between lists of words. -/
def commaSeparated : List (List String) → List String
  | [] => []
  | [words] => words
  | words :: rest => words ++ "," :: commaSeparated rest

/-- Puts a comma after each list of words. -/
def commaEnded (lists : List (List String)) : List String :=
  lists.flatMap fun words => words ++ [","]

/-- Puts `::` between names. -/
def joined : List String → List String
  | [] => []
  | [name] => [name]
  | name :: rest => name :: "::" :: joined rest

def Path.words (path : Path) : List String :=
  (if path.absolute then ["::"] else []) ++ joined path.names

mutual

def Ty.words : Ty → List String
  | .path names [] => names.words
  | .path names (argument :: rest) =>
    names.words ++ "<" :: commaSeparated (Ty.wordsOf (argument :: rest)) ++ [">"]
  | .lifetime name => [name]
  | .reference lifetime? mutable inner =>
    "&" :: lifetime?.toList ++ (if mutable then ["mut"] else []) ++ inner.words
  | .slice item => [bracketed item.words]
  | .tuple items => [parenthesized (commaSeparated (Ty.wordsOf items))]

def Ty.wordsOf : List Ty → List (List String)
  | [] => []
  | type :: rest => type.words :: Ty.wordsOf rest

end

mutual

def Pattern.words : Pattern → List String
  | .name word => [word]
  | .mutable word => ["mut", word]
  | .text value => [Text.literal value]
  | .path names => names.words
  | .variant names fields =>
    names.words ++ [parenthesized (commaSeparated (Pattern.wordsOf fields))]
  | .tuple items => [parenthesized (commaSeparated (Pattern.wordsOf items))]

def Pattern.wordsOf : List Pattern → List (List String)
  | [] => []
  | pattern :: rest => pattern.words :: Pattern.wordsOf rest

end

/-- Whether the arm of an expression ends without a comma. -/
def Expr.isBlock : Expr → Bool
  | .block _ => true
  | _ => false

mutual

def Expr.words : Expr → List String
  | .path names => names.words
  | .ofTrait type trait name => "<" :: type.words ++ "as" :: trait.words ++ [">", "::", name]
  | .text value => [Text.literal value]
  | .flag value => [toString value]
  | .call function arguments isOpen =>
    let arguments := commaSeparated (Expr.wordsOf arguments) ++ (if isOpen then [","] else [])
    function.words ++ [parenthesized arguments]
  | .method receiver name arguments =>
    receiver.words ++ [".", name, parenthesized (commaSeparated (Expr.wordsOf arguments))]
  | .field base name => base.words ++ [".", name]
  | .attempt inner => inner.words ++ ["?"]
  | .reference mutable inner => "&" :: (if mutable then ["mut"] else []) ++ inner.words
  | .array items => [bracketed (commaSeparated (Expr.wordsOf items))]
  | .tuple items => [parenthesized (commaSeparated (Expr.wordsOf items))]
  | .record type fields => type.words ++ [braced (Field.wordsOf fields)]
  | .assign place value => place.words ++ "=" :: value.words
  | .expand name arguments =>
    [name, "!", parenthesized (commaSeparated (Expr.wordsOf arguments))]
  | .closure parameter body => "|" :: parameter :: "|" :: body.words
  | .block statements => [braced (Stmt.wordsOf statements)]
  | .ifThen condition body => "if" :: condition.words ++ [braced (Stmt.wordsOf body)]
  | .ifLet pattern value body =>
    "if" :: "let" :: pattern.words ++ "=" :: value.words ++ [braced (Stmt.wordsOf body)]
  | .ifLetElse pattern value body otherwise =>
    "if" :: "let" :: pattern.words ++ "=" :: value.words ++
      [braced (Stmt.wordsOf body), "else", braced (Stmt.wordsOf otherwise)]
  | .whileLet pattern value body =>
    "while" :: "let" :: pattern.words ++ "=" :: value.words ++ [braced (Stmt.wordsOf body)]
  | .cases value arms => "match" :: value.words ++ [braced (Arm.wordsOf arms)]

def Expr.wordsOf : List Expr → List (List String)
  | [] => []
  | expr :: rest => expr.words :: Expr.wordsOf rest

def Field.words : Field → List String
  | .mk name value => name :: ":" :: value.words ++ [","]

def Field.wordsOf : List Field → List String
  | [] => []
  | field :: rest => field.words ++ Field.wordsOf rest

def Stmt.words : Stmt → List String
  | .bind pattern none value => "let" :: pattern.words ++ "=" :: value.words ++ [";"]
  | .bind pattern (some type) value =>
    "let" :: pattern.words ++ ":" :: type.words ++ "=" :: value.words ++ [";"]
  | .run value => value.words ++ [";"]
  | .give value => value.words

def Stmt.wordsOf : List Stmt → List String
  | [] => []
  | stmt :: rest => stmt.words ++ Stmt.wordsOf rest

def Arm.words : Arm → List String
  | .mk pattern none body =>
    pattern.words ++ "=>" :: body.words ++ (if body.isBlock then [] else [","])
  | .mk pattern (some guard) body =>
    pattern.words ++ "if" :: guard.words ++ "=>" :: body.words ++
      (if body.isBlock then [] else [","])

def Arm.wordsOf : List Arm → List String
  | [] => []
  | arm :: rest => arm.words ++ Arm.wordsOf rest

end

/-- A line of documentation as an attribute.  Lines of the code's own are raw literals. -/
def DocLine.words : DocLine → List String
  | .own text => ["#", bracketed ["doc", "=", "r\" " ++ text ++ "\""]]
  | .model text => ["#", bracketed ["doc", "=", Text.literal (" " ++ text)]]

def Mark.words (mark : Mark) : List String :=
  ["#", bracketed [mark.name, parenthesized (commaSeparated (mark.arguments.map fun a => [a]))]]

def Heading.words (heading : Heading) : List String :=
  heading.docs.flatMap DocLine.words ++ heading.mark.toList.flatMap Mark.words

def visibility (isPublic : Bool) : List String :=
  if isPublic then ["pub"] else []

def Receiver.words : Receiver → List String
  | .owned => ["self"]
  | .changing => ["mut", "self"]
  | .borrowed => ["&", "self"]

def Parameter.words : Parameter → List String
  | .receiver r => r.words
  | .typed mutable name type =>
    (if mutable then ["mut"] else []) ++ name :: ":" :: type.words

def Fn.words (fn : Fn) : List String :=
  fn.heading.words ++ visibility fn.isPublic ++ (if fn.isConst then ["const"] else []) ++
    ["fn", fn.name, parenthesized (commaSeparated (fn.parameters.map Parameter.words) ++
      (if fn.isOpen then [","] else []))] ++
    "->" :: fn.result.words ++ [braced (Stmt.wordsOf fn.body)]

def RecordField.words (field : RecordField) : List String :=
  field.docs.flatMap DocLine.words ++ visibility field.isPublic ++
    field.name :: ":" :: field.type.words

def Variant.words (variant : Variant) : List String :=
  variant.docs.flatMap DocLine.words ++ variant.name ::
    match variant.payload with
    | some type => [parenthesized type.words]
    | none => []

def Part.words : Part → List String
  | .fn f => f.words
  | .alias name type => "type" :: name :: "=" :: type.words ++ [";"]

def Decl.words : Decl → List String
  | .record heading name fields =>
    heading.words ++ ["pub", "struct", name, braced (commaEnded (fields.map RecordField.words))]
  | .choice heading name variants =>
    heading.words ++ ["pub", "enum", name, braced (commaEnded (variants.map Variant.words))]
  | .implementation none type members =>
    "impl" :: type.words ++ [braced (members.flatMap Part.words)]
  | .implementation (some trait) type members =>
    "impl" :: trait.words ++ "for" :: type.words ++ [braced (members.flatMap Part.words)]
  | .fn f => f.words

/-- A declaration in one line. -/
def Decl.inline (decl : Decl) : String := spaced decl.words

end WireShapes.Code
