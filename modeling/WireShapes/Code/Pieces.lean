import WireShapes.Code.Tree
import WireShapes.Layout.Lines
import WireShapes.Text.Quoted

/-!
# Code laid out

The pieces that generated code is laid out from.  Brackets that hold a list put its items on one
line or on a line each; a chain of calls breaks before every dot or before none; a block has a line
for each statement, unless it is a lone expression that fits.
-/

namespace WireShapes.Code

open Layout

/-- A single word. -/
def word (text : String) : List Piece := [.word text]

/-- What follows an item of a list: after the last one nothing, or a comma before the end of a
line. -/
def afterItem (last : Bool) : List Piece :=
  if last then [.commaZero] else [.word ",", .space]

/-- As `afterItem`, with a blank after the last item where the line does not end. -/
def afterField (last : Bool) : List Piece :=
  if last then [.commaSpace] else [.word ",", .space]

/-- The width up to which a record is written on one line. -/
def recordWidth : Nat := 34

/-- A list inside the brackets around it. -/
def enclosed (items : List (List Piece)) : List Piece :=
  together step (shiftLast (-step) (.zero :: separated afterItem items))

/-- A list in round brackets. -/
def inParens (items : List (List Piece)) : List Piece :=
  word "(" ++ enclosed items ++ word ")"

/-- The names of a path. -/
def namePieces : List String → List Piece
  | [] => []
  | [name] => word name
  | name :: rest => word name ++ word "::" ++ namePieces rest

def Path.pieces (path : Path) : List Piece :=
  (if path.absolute then word "::" else []) ++ namePieces path.names

mutual

def Ty.pieces : Ty → List Piece
  | .path names [] => names.pieces
  | .path names (argument :: rest) =>
    names.pieces ++ word "<" ++ enclosed (Ty.piecesOf (argument :: rest)) ++ word ">"
  | .lifetime name => word name
  | .reference none mutable inner => word (if mutable then "&mut " else "&") ++ inner.pieces
  | .reference (some region) mutable inner =>
    word ("&" ++ region ++ (if mutable then " mut " else " ")) ++ inner.pieces
  | .slice item => word "[" ++ item.pieces ++ word "]"
  | .tuple items => inParens (Ty.piecesOf items)

def Ty.piecesOf : List Ty → List (List Piece)
  | [] => []
  | type :: rest => type.pieces :: Ty.piecesOf rest

end

mutual

def Pattern.pieces : Pattern → List Piece
  | .name word => [.word word]
  | .mutable word => [.word ("mut " ++ word)]
  | .text value => word (Text.literal value)
  | .path names => names.pieces
  | .variant names fields => names.pieces ++ inParens (Pattern.piecesOf fields)
  | .tuple items => inParens (Pattern.piecesOf items)

def Pattern.piecesOf : List Pattern → List (List Piece)
  | [] => []
  | pattern :: rest => pattern.pieces :: Pattern.piecesOf rest

end

namespace Expr

/-- A name so short that a chain of calls does not break after it at the start of a line. -/
def isShortName : Expr → Bool
  | .path ⟨false, [name]⟩ => name.utf8ByteSize ≤ 4
  | _ => false

/-- An argument that needs no line of its own when it is the only one. -/
def hugs : Expr → Bool
  | .array _ | .tuple _ | .record _ _ | .closure _ _ | .block _ => true
  | _ => false

/-- Whether an arm of this expression needs a comma after it. -/
def needsComma : Expr → Bool
  | .block _ | .ifThen _ _ | .ifLet _ _ _ | .ifLetElse _ _ _ _ | .whileLet _ _ _
  | .cases _ _ => false
  | _ => true

/-- Whether a place to break follows the expression when it stands before a block. -/
def breaksBeforeBlock : Expr → Bool
  | .method _ _ _ | .field _ _ | .assign _ _ => true
  | .attempt inner | .reference _ inner | .call inner _ _ => breaksBeforeBlock inner
  | _ => false

end Expr

/-- Where an expression stands. -/
structure Place where
  /-- At the start of a line. -/
  starts : Bool
  /-- Before a link of a chain of calls. -/
  linked : Bool

namespace Place

def inside : Place := ⟨false, false⟩

def lineStart : Place := ⟨true, false⟩

/-- The place of what a link is applied to. -/
def link (place : Place) : Place := { place with linked := true }

/-- The place of a function that is called. -/
def function (place : Place) : Place := { place with starts := false }

/-- Whether a chain goes on from an expression without a break. -/
def keeps (place : Place) (receiver : Expr) : Bool := place.starts && receiver.isShortName

/-- An expression that is no link. -/
def atom (place : Place) (pieces : List Piece) : List Piece :=
  if place.linked then together (-step) pieces else pieces

/-- The last link of a chain so far. -/
def chain (place : Place) (pieces : List Piece) : List Piece :=
  if place.linked then pieces else together step pieces

/-- A link that names a field or method. -/
def dot (place : Place) (receiver : Expr) (name : String) : List Piece :=
  (if place.keeps receiver then [] else [.zero]) ++ word "." ++ word name

/-- The arguments of a link. -/
def arguments (place : Place) (receiver : Expr) (pieces : List Piece) : List Piece :=
  together (if place.keeps receiver && !place.linked then -step else 0)
    (word "(" ++ pieces ++ word ")")

end Place

/-- The arguments of a call, which are laid out already. -/
def argumentPieces : List Expr → List (List Piece) → List Piece
  | [argument], [pieces] => if argument.hugs then pieces else enclosed [pieces]
  | _, items => enclosed items

/-- Statements, each on a line. -/
def lines (statements : List (List Piece)) : List Piece :=
  statements.flatMap fun statement => filled 0 statement ++ [.newline]

/-- A block whose lines are laid out already. -/
def blockPieces (lines : List Piece) : List Piece :=
  word "\x7b" ++ [.solid] ++ together step (shiftLast (-step) (.newlineBefore :: lines)) ++
    word "\x7d"

/-- A block on one line if it is a lone expression that fits. -/
def smallBlock : List Stmt → List (List Piece) → List Piece
  | [], _ => word "\x7b\x7d"
  | [.give _], [value] =>
    word "\x7b" ++ [.space] ++ filled 0 value ++ [Piece.space.shifted (-step)] ++ word "\x7d"
  | _, statements => word "\x7b" ++ shiftLast (-step) (.space :: lines statements) ++ word "\x7d"

/-- The block of a condition without an alternative. -/
def openBlock : List (List Piece) → List Piece
  | [] => word "\x7b\x7d"
  | statements => word "\x7b" ++ shiftLast (-step) (.newline :: lines statements) ++ word "\x7d"

/-- A condition before a block. -/
def beforeBlock (value : Expr) (pieces : List Piece) : List Piece :=
  together 0 (pieces ++ if value.breaksBeforeBlock then [.space] else word " ")

/-- A value matched against a pattern, before a block. -/
def matchBeforeBlock (pattern : Pattern) (value : Expr) (pieces : List Piece) : List Piece :=
  beforeBlock value
    (filled step (word "let " ++ filled (-step) pattern.pieces ++ [.space] ++ word "= " ++ pieces))

/-- The value of an arm, in braces if it does not fit. -/
def armValue (value : Expr) (pieces : List Piece) : List Piece :=
  word " " ++ [.solid] ++ together step ([.gap { closing := some '{' }] ++ pieces ++
    [.gap {
      shift := -step, opening := some '}'
      inline := if value.needsComma then some ',' else none }])

/-- What stands on the right of an arm, given the expression and its statements laid out. -/
def armBody (body : Expr) (pieces : List Piece) (statements : List (List Piece)) : List Piece :=
  match body, statements with
  | .block [.give value], [pieces] => armValue value pieces
  | .block _, statements => word " " ++ blockPieces (lines statements)
  | other, _ => armValue other pieces

mutual

def Expr.pieces (place : Place) : Expr → List Piece
  | .path names => place.atom names.pieces
  | .ofTrait type trait name =>
    place.atom (word "<" ++ type.pieces ++ word " as " ++ trait.pieces ++ word ">::" ++ word name)
  | .text value => place.atom (word (Text.literal value))
  | .flag value => place.atom (word (toString value))
  | .call function arguments _ =>
    function.pieces place.function ++ word "(" ++
      argumentPieces arguments (Expr.piecesOf arguments) ++ word ")"
  | .method receiver name arguments =>
    place.chain (receiver.pieces place.link ++ place.dot receiver name ++
      place.arguments receiver (argumentPieces arguments (Expr.piecesOf arguments)))
  | .field base name => place.chain (base.pieces place.link ++ place.dot base name)
  | .attempt inner => inner.pieces place ++ word "?"
  | .reference mutable inner =>
    place.atom (word (if mutable then "&mut " else "&") ++ inner.pieces .inside)
  | .array items => place.atom (word "[" ++ enclosed (Expr.piecesOf items) ++ word "]")
  | .tuple items => place.atom (inParens (Expr.piecesOf items))
  | .record type fields =>
    place.atom (narrow recordWidth step (filled (-step) type.pieces ++ word " \x7b" ++
      shiftLast (-step) (.spaceBefore :: separated afterField (Field.piecesOf fields))) ++
      word "\x7d")
  | .assign target value =>
    place.atom (filled 0 (target.pieces .inside ++ word " = " ++ value.pieces .inside))
  | .expand name arguments =>
    place.atom (word (name ++ "!(") ++ together step (.zero ::
      filled 0 (separated (fun last => if last then [] else [.word ",", .space])
        (Expr.piecesOf arguments)) ++ [Piece.zero.shifted (-step)]) ++ word ")")
  | .closure parameter body =>
    place.atom (filled 0 (together step (word "|" ++ [.zero] ++ word parameter ++ word "|" ++
      [Piece.space.shifted (-step)]) ++ [.solid] ++ body.pieces .inside))
  | .block statements =>
    place.atom (together step (smallBlock statements (Stmt.piecesOf statements)))
  | .ifThen condition body =>
    place.atom (together step (word "if " ++
      together (-step) (beforeBlock condition (condition.pieces .inside)) ++
      openBlock (Stmt.piecesOf body)))
  | .ifLet pattern value body =>
    place.atom (together step (word "if " ++
      together (-step) (matchBeforeBlock pattern value (value.pieces .inside)) ++
      openBlock (Stmt.piecesOf body)))
  | .ifLetElse pattern value body otherwise =>
    place.atom (together step (word "if " ++
      together (-step) (matchBeforeBlock pattern value (value.pieces .inside)) ++
      smallBlock body (Stmt.piecesOf body) ++ word " else " ++
      smallBlock otherwise (Stmt.piecesOf otherwise)))
  | .whileLet pattern value body =>
    place.atom (word "while " ++ matchBeforeBlock pattern value (value.pieces .inside) ++
      blockPieces (lines (Stmt.piecesOf body)))
  | .cases value arms =>
    place.atom (filled 0 (word "match " ++ beforeBlock value (value.pieces .inside) ++
      blockPieces (Arm.piecesOf arms)))

/-- The statements of a block; nothing else has any. -/
def Expr.statementPieces : Expr → List (List Piece)
  | .block statements => Stmt.piecesOf statements
  | _ => []

def Expr.piecesOf : List Expr → List (List Piece)
  | [] => []
  | expr :: rest => expr.pieces .inside :: Expr.piecesOf rest

def Field.pieces : Field → List Piece
  | .mk name value => word (name ++ ": ") ++ filled 0 (value.pieces .inside)

def Field.piecesOf : List Field → List (List Piece)
  | [] => []
  | field :: rest => field.pieces :: Field.piecesOf rest

def Stmt.pieces : Stmt → List Piece
  | .bind pattern none value =>
    word "let " ++ pattern.pieces ++ word " = " ++ [.solid] ++ value.pieces .inside ++ word ";"
  | .bind pattern (some type) value =>
    word "let " ++ pattern.pieces ++ word ": " ++ type.pieces ++ word " = " ++ [.solid] ++
      value.pieces .inside ++ word ";"
  | .run value => value.pieces .lineStart ++ word ";"
  | .give value => value.pieces .lineStart

def Stmt.piecesOf : List Stmt → List (List Piece)
  | [] => []
  | stmt :: rest => stmt.pieces :: Stmt.piecesOf rest

def Arm.pieces : Arm → List Piece
  | .mk pattern none body =>
    filled 0 (pattern.pieces ++ word " =>" ++
      armBody body (body.pieces .lineStart) body.statementPieces)
  | .mk pattern (some guard) body =>
    filled 0 (pattern.pieces ++ word " if " ++ guard.pieces .inside ++ word " =>" ++
      armBody body (body.pieces .lineStart) body.statementPieces)

def Arm.piecesOf : List Arm → List Piece
  | [] => []
  | arm :: rest => arm.pieces ++ [.newline] ++ Arm.piecesOf rest

end

/-- Drops the blanks at the end of a text. -/
def trimEnd (text : String) : String :=
  String.ofList ((text.toList.reverse.dropWhile (· == ' ')).reverse)

def DocLine.text : DocLine → String
  | .own text => " " ++ text
  | .model text => " " ++ text

def DocLine.pieces (line : DocLine) : List Piece :=
  word ("///" ++ trimEnd line.text) ++ [.newline]

def Mark.pieces (mark : Mark) : List Piece :=
  word ("#[" ++ mark.name ++ "(" ++ ", ".intercalate mark.arguments ++ ")]") ++ [.space]

def Heading.pieces (heading : Heading) : List Piece :=
  heading.docs.flatMap DocLine.pieces ++ heading.mark.toList.flatMap Mark.pieces

def Receiver.pieces : Receiver → List Piece
  | .owned => word "self"
  | .changing => word "mut self"
  | .borrowed => word "&self"

def Parameter.pieces : Parameter → List Piece
  | .receiver r => r.pieces
  | .typed mutable name type =>
    word ((if mutable then "mut " else "") ++ name ++ ": ") ++ type.pieces

/-- A declaration with the declarations inside it. -/
def declarationPieces (opening inside : List Piece) : List Piece :=
  together step (opening ++ word " \x7b" ++ shiftLast (-step) (.newlineBefore :: inside)) ++
    word "\x7d" ++ [.newline]

def Fn.pieces (fn : Fn) : List Piece :=
  let parameters :=
    together 0
      (shiftLast (-step) (.zero :: separated afterItem (fn.parameters.map Parameter.pieces)))
  fn.heading.pieces ++ declarationPieces
    (word ((if fn.isPublic then "pub " else "") ++ (if fn.isConst then "const " else "") ++
      "fn " ++ fn.name ++ "(") ++ [.solid] ++ parameters ++ word ")" ++
      together (-step) (word " -> " ++ fn.result.pieces))
    (lines (Stmt.piecesOf fn.body))

def RecordField.pieces (field : RecordField) : List Piece :=
  field.docs.flatMap DocLine.pieces ++
    word ((if field.isPublic then "pub " else "") ++ field.name ++ ": ") ++ field.type.pieces ++
    word "," ++ [.newline]

def Variant.pieces (variant : Variant) : List Piece :=
  variant.docs.flatMap DocLine.pieces ++ word variant.name ++
    (match variant.payload with
      | some type => together step (shiftLast (-step)
          (word "(" ++ .zero :: separated afterItem [type.pieces]) ++ word ")")
      | none => []) ++
    word "," ++ [.newline]

def Part.pieces : Part → List Piece
  | .fn f => f.pieces
  | .alias name type =>
    together step (word ("type " ++ name ++ " = ") ++ [.solid] ++ filled (-step) type.pieces ++
      word ";") ++ [.newline]

/-- The part of an implementation before its braces. -/
def implementationOpening (trait : List Piece) (type : Ty) : List Piece :=
  filled (-step) (together step (word "impl") ++ word " " ++ trait ++ type.pieces)

def Decl.pieces : Decl → List Piece
  | .record heading name fields =>
    heading.pieces ++
      declarationPieces (word ("pub struct " ++ name)) (fields.flatMap RecordField.pieces)
  | .choice heading name variants =>
    heading.pieces ++
      declarationPieces (word ("pub enum " ++ name)) (variants.flatMap Variant.pieces)
  | .implementation none type members =>
    declarationPieces (implementationOpening [] type) (members.flatMap Part.pieces)
  | .implementation (some trait) type members =>
    declarationPieces
      (implementationOpening (trait.pieces ++ [.space] ++ word "for ") type)
      (members.flatMap Part.pieces)
  | .fn f => f.pieces

/-- Declarations laid out one after another. -/
def toText (code : List Decl) : String :=
  Layout.toText (together 0 (code.flatMap Decl.pieces))

end WireShapes.Code
