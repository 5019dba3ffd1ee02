import WireShapes.Text.Blank
import WireShapes.Text.Letter

/-!
# Words of a name

Names are cut into words at every character that is neither a letter nor a digit, before an
upper-case letter that follows a lower-case one, and before the last letter of a run of capitals
that a lower-case letter follows (`URLList` is `URL`, `List`).  `camelCase` and `snakeCase` join
the words again and keep only ASCII letters, digits and underscores.
-/

namespace WireShapes.Text

/-- Which case the last cased letter of the current word had. -/
inductive Casing
  | boundary
  | lower
  | upper
deriving DecidableEq

/-- The casing after a character that ends no word. -/
def Casing.after (casing : Casing) (c : Char) : Casing :=
  if isLowercase c then .lower else if isUppercase c then .upper else casing

/-- Cuts a run of letters and digits into words; `word` is the current word, last letter first. -/
def cutWords (casing : Casing) (word : List Char) : List Char → List (List Char)
  | [] => []
  | [c] => [(c :: word).reverse]
  | c :: next :: rest =>
    let following := casing.after c
    if following = .lower && isUppercase next then
      (c :: word).reverse :: cutWords .boundary [] (next :: rest)
    else if casing = .upper && isUppercase c && isLowercase next then
      word.reverse :: cutWords .boundary [c] (next :: rest)
    else
      cutWords following (c :: word) (next :: rest)

/-- The words of a name, in order. -/
def wordsOf (name : String) : List (List Char) :=
  (pieces (fun c => !isAlphanumeric c) name.toList).flatMap (cutWords .boundary [])

/-- A character that identifiers are made of. -/
def isWordChar (c : Char) : Bool :=
  c.toNat < 128 && c.isAlphanum || c == '_'

/-- A word with its first letter in upper case and the rest in lower case. -/
def capitalize : List Char → List Char
  | [] => []
  | c :: rest => asciiUpper c ++ rest.flatMap asciiLower

/-- The words capitalized and run together. -/
def camelCase (name : String) : List Char :=
  ((wordsOf name).flatMap capitalize).filter isWordChar

/-- The words in lower case, joined by underscores. -/
def snakeCase (name : String) : List Char :=
  (List.intercalate ['_'] ((wordsOf name).map fun word => word.flatMap asciiLower)).filter
    isWordChar

end WireShapes.Text
