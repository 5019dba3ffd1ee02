/-!
# Blanks

Three classes of blank characters: those of Unicode's White_Space property, which are trimmed
around scalar texts and separate the names of a list; the four of markup; and the five ASCII ones
that may be scattered over binary data.
-/

namespace WireShapes.Text

/-- The White_Space property. -/
def isBlank (c : Char) : Bool :=
  let n := c.toNat
  (9 ≤ n && n ≤ 13) || n == 0x20 || n == 0x85 || n == 0xa0 || n == 0x1680 ||
    (0x2000 ≤ n && n ≤ 0x200a) || n == 0x2028 || n == 0x2029 || n == 0x202f || n == 0x205f ||
    n == 0x3000

/-- The blanks that separate the parts of a tag. -/
def isMarkupBlank (c : Char) : Bool :=
  c == ' ' || c == '\t' || c == '\n' || c == '\r'

/-- Space, tab, line feed, form feed and carriage return; not the vertical tab. -/
def isAsciiBlank (c : Char) : Bool :=
  c == ' ' || c == '\t' || c == '\n' || c == '\x0c' || c == '\r'

/-- Drops the characters of a class from both ends. -/
def trimBy (blank : Char → Bool) (cs : List Char) : List Char :=
  ((cs.dropWhile blank).reverse.dropWhile blank).reverse

/-- Drops blanks from both ends. -/
def trim (s : String) : String :=
  String.ofList (trimBy isBlank s.toList)

/-- Collects the maximal runs of characters outside a class, with the run read so far. -/
def piecesFrom (separator : Char → Bool) (run : List Char) : List Char → List (List Char)
  | [] => [run.reverse]
  | c :: rest =>
    if separator c then run.reverse :: piecesFrom separator [] rest
    else piecesFrom separator (c :: run) rest

/-- The pieces between the characters of a class, empty pieces included. -/
def pieces (separator : Char → Bool) (cs : List Char) : List (List Char) :=
  piecesFrom separator [] cs

/-- The names of a blank-separated list. -/
def blankSeparated (s : String) : List String :=
  ((pieces isBlank s.toList).filter fun piece => !piece.isEmpty).map String.ofList

/-- The lines of a text: line feeds end lines, a carriage return before one goes with it, and a
text that ends in a line feed has no empty last line. -/
def lines (s : String) : List String :=
  let all := pieces (· == '\n') s.toList
  let closed := all.dropLast.map fun line =>
    match line.reverse with
    | '\r' :: rest => rest.reverse
    | _ => line
  let last := match all.getLast? with
    | some [] | none => []
    | some line => [line]
  (closed ++ last).map String.ofList

end WireShapes.Text
