/-!
# Pieces of laid out text

Text that is to be laid out is a list of pieces: words, breaks between them, and boxes around pieces
that belong together.  A box that fits on its line is written on it.  In one that does not, every
break ends the line if the box is consistent, and otherwise those breaks do after which the text up
to the next break has no room.
-/

namespace WireShapes.Layout

/-- A place where a line can end. -/
structure Break where
  /-- The blanks written where the line does not end. -/
  blanks : Nat := 0
  /-- The change of the indentation of the next line. -/
  shift : Int := 0
  /-- Written before the end of the line. -/
  closing : Option Char := none
  /-- Written at the start of the next line. -/
  opening : Option Char := none
  /-- Written where the line does not end. -/
  inline : Option Char := none
  /-- Left out at the end of a box. -/
  separates : Bool := false
  /-- The line never ends here. -/
  solid : Bool := false
  /-- Left out on a line that holds too much already. -/
  yields : Bool := false
deriving DecidableEq

/-- How the breaks of a box that does not fit behave. -/
inductive Breaking
  | consistent
  | inconsistent
deriving DecidableEq

inductive Piece
  | word (text : String)
  | gap (b : Break)
  /-- Pieces that belong together; a box that does not fit changes the indentation. -/
  | box (breaking : Breaking) (shift : Int) (pieces : List Piece)

/-- More blanks than any line has room for. -/
def endless : Nat := 65535

/-- The change of indentation between a line and one nested in it. -/
def step : Int := 4

namespace Piece

/-- A break without blanks. -/
def zero : Piece := .gap {}

/-- A break of one blank. -/
def space : Piece := .gap { blanks := 1 }

/-- The end of a line. -/
def newline : Piece := .gap { blanks := endless }

/-- The end of a line, unless nothing follows in the box. -/
def newlineBefore : Piece := .gap { blanks := endless, separates := true }

/-- A break of one blank, unless nothing follows in the box. -/
def spaceBefore : Piece := .gap { blanks := 1, separates := true }

/-- A break where the line never ends. -/
def solid : Piece := .gap { solid := true }

/-- A break that ends the line after a comma. -/
def commaZero : Piece := .gap { closing := some ',' }

/-- A break of one blank that ends the line after a comma. -/
def commaSpace : Piece := .gap { blanks := 1, closing := some ',' }

/-- Changes the indentation after a break. -/
def shifted (n : Int) : Piece → Piece
  | .gap b => .gap { b with shift := b.shift + n }
  | piece => piece

end Piece

/-- Changes the indentation after the last piece, if that is a break. -/
def shiftLast (n : Int) : List Piece → List Piece
  | [] => []
  | [piece] => [piece.shifted n]
  | piece :: rest => piece :: shiftLast n rest

/-- Leaves a break that only separates out at the end of a box.  The place still ends what has to fit
before it. -/
def dropSeparator : List Piece → List Piece
  | [] => []
  | [.gap b] => if b.separates then [.solid] else [.gap b]
  | piece :: rest => piece :: dropSeparator rest

/-- A box; one that holds a break alone is left out. -/
def boxed (breaking : Breaking) (shift : Int) (pieces : List Piece) : List Piece :=
  match pieces with
  | [.gap _] => []
  | pieces => [.box breaking shift (dropSeparator pieces)]

/-- A consistent box. -/
def together (shift : Int) (pieces : List Piece) : List Piece := boxed .consistent shift pieces

/-- An inconsistent box. -/
def filled (shift : Int) (pieces : List Piece) : List Piece := boxed .inconsistent shift pieces

/-! ## Width -/

mutual

/-- The width of a piece that is written on one line. -/
def Piece.width : Piece → Nat
  | .word text => text.utf8ByteSize
  | .gap b => b.blanks
  | .box _ _ pieces => width pieces

/-- The width of pieces that are written on one line. -/
def width : List Piece → Nat
  | [] => 0
  | piece :: rest => piece.width + width rest

end

/-- The width of the pieces before the next break, given what follows them. -/
def widthToBreak (following : Nat) : List Piece → Nat
  | [] => following
  | .gap _ :: _ => 0
  | piece :: rest => piece.width + widthToBreak following rest

/-- Makes the last piece, if it is a break, end the line.  A break that only separates yields on a
line that holds too much already. -/
def endLast : List Piece → List Piece
  | [] => []
  | [.gap b] => [.gap { b with blanks := endless, separates := false, yields := b.separates }]
  | piece :: rest => piece :: endLast rest

/-- A consistent box that fits on its line only if it is no wider than `most`. -/
def narrow (most : Nat) (shift : Int) (pieces : List Piece) : List Piece :=
  together shift (if width pieces ≤ most then pieces else endLast pieces)

/-- Lists of pieces one after another, each followed by pieces that depend on whether it is the
last. -/
def separated (after : Bool → List Piece) : List (List Piece) → List Piece
  | [] => []
  | [last] => last ++ after true
  | item :: rest => item ++ after false ++ separated after rest

end WireShapes.Layout
