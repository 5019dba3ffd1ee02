import WireShapes.Layout.Piece

/-!
# Lines of laid out text

`Layout.toText` writes pieces out.  A line has room for 89 bytes; one that is indented far still has
room for 60.  Blanks are held back until something follows them on their line, so no line ends in a
blank.
-/

namespace WireShapes.Layout

/-- The bytes on a line, its indentation included. -/
def margin : Int := 89

/-- The least room on a line after its indentation. -/
def leastRoom : Int := 60

/-- What has been written so far. -/
structure Page where
  text : String
  /-- Blanks held back. -/
  blanks : Nat
  /-- Bytes for which the line has room. -/
  room : Int

namespace Page

def blank : Page := ⟨"", 0, margin⟩

/-- Writes a text after the blanks held back. -/
def write (p : Page) (text : String) : Page :=
  { text := p.text ++ String.ofList (List.replicate p.blanks ' ') ++ text, blanks := 0
    room := p.room - text.utf8ByteSize }

/-- Writes a character if there is one. -/
def writeChar? (p : Page) (c : Option Char) : Page :=
  match c with
  | some c => p.write c.toString
  | none => p

/-- Writes a break on the line. -/
def goOn (p : Page) (b : Break) : Page :=
  let p := { p with blanks := p.blanks + b.blanks, room := p.room - b.blanks }
  p.writeChar? b.inline

/-- Ends the line, and indents the next one. -/
def endLine (p : Page) (b : Break) (indent : Int) : Page :=
  let p := p.writeChar? b.closing
  let indent := indent + b.shift
  let next : Page := {
    text := p.text ++ "\n", blanks := indent.toNat, room := max (margin - indent) leastRoom }
  next.writeChar? b.opening

end Page

/-- How the breaks around a piece are written. -/
inductive Frame
  | fits
  | broken (breaking : Breaking)
deriving DecidableEq

/-- Whether the line goes on at a break with text of a width behind it. -/
def Frame.goesOn (frame : Frame) (b : Break) (behind : Nat) (room : Int) : Bool :=
  b.solid ||
    match frame with
    | .fits => true
    | .broken .consistent => false
    | .broken .inconsistent => b.blanks + behind ≤ room

mutual

/-- Writes a piece, given the width of what follows up to the next break. -/
def Piece.layOut (frame : Frame) (indent : Int) (following : Nat) (p : Page) : Piece → Page
  | .word text => p.write text
  | .gap b =>
    if b.yields && p.room < 0 then p
    else if frame.goesOn b following p.room then p.goOn b
    else p.endLine b indent
  | .box breaking shift pieces =>
    if (width pieces + following : Nat) > p.room then
      layOut (.broken breaking) (indent + shift) following p pieces
    else layOut .fits indent following p pieces

/-- Writes pieces in order, given the width of what follows them up to the next break. -/
def layOut (frame : Frame) (indent : Int) (following : Nat) (p : Page) : List Piece → Page
  | [] => p
  | piece :: rest =>
    layOut frame indent following
      (piece.layOut frame indent (widthToBreak following rest) p) rest

end

/-- The text that pieces are laid out as. -/
def toText (pieces : List Piece) : String :=
  (layOut (.broken .inconsistent) 0 0 .blank pieces).text

end WireShapes.Layout
