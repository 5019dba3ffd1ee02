import WireShapes.Model.Basic

/-!
# A model of corner cases

Shapes that the showcase does not have: enumerations with an empty literal and with no values,
collections of collections, flattened collections inside unions, boxes in every place, qualifiers on
members and items, and members named like keywords.
-/

namespace WireShapes.Samples.Corners

def amount : Shape :=
  { name := "Amount", form := .scalar .long }

def flag : Shape :=
  { name := "Flag", form := .scalar .boolean }

def color : Shape := {
  name := "Color"
  form := .enum [
    { name := "red" },
    { name := "DarkBlue", literal := "dark blue" },
    { name := "empty", literal := "" }] }

def never : Shape :=
  { name := "Never", form := .enum [] }

def names : Shape :=
  { name := "Names", form := .list { target := .to "String" } }

def colors : Shape :=
  { name := "Colors", form := .list { target := .to "Color", xmlName := "c" } }

def times : Shape :=
  { name := "Times", form := .list { target := .to "Timestamp", xmlName := "t:at" } }

def matrix : Shape :=
  { name := "Matrix", form := .list { target := .to "Row", xmlName := "row" } }

def row : Shape :=
  { name := "Row", form := .list { target := .to "Integer", xmlName := "cell" } }

def blobs : Shape :=
  { name := "Blobs", form := .list { target := .to "Blob" } }

def points : Shape :=
  { name := "Points", form := .list { target := .to "Point", xmlName := "point" } }

def indexes : Shape :=
  { name := "Indexes", form := .list { target := .to "Index" } }

def trees : Shape :=
  { name := "Trees", form := .list { target := .to "Tree", xmlName := "tree" } }

def indexMap : Shape :=
  { name := "Index", form := .map { target := .to "String" } { target := .to "Names" } }

def byColor : Shape :=
  { name := "ByColor"
    form := .map { target := .to "Color", xmlName := "color" }
      { target := .to "Point", xmlName := "at" } }

def nested : Shape :=
  { name := "Nested"
    form := .map { target := .to "String", xmlName := "k" }
      { target := .to "Index", xmlName := "v" } }

def spaced : Shape :=
  { name := "Spaced", xmlNamespace := some ⟨"urn:m", some "m"⟩
    form := .map { target := .to "String" } { target := .to "Amount" } }

def treeMap : Shape :=
  { name := "TreeMap", form := .map { target := .to "String" } { target := .to "Tree" } }

def choices : Shape :=
  { name := "Choices", form := .map { target := .to "String" } { target := .to "Pick" } }

def empty : Shape :=
  { name := "Empty", form := .struct [] }

def point : Shape := {
  name := "Point"
  form := .struct [
    { name := "x", target := .to "Double", isAttribute := true, required := true },
    { name := "y", target := .to "Float", isAttribute := true },
    { name := "color", target := .to "Color", isAttribute := true },
    { name := "on", target := .to "Flag", isAttribute := true },
    { name := "size", target := .to "Byte", xmlName := "s:size", isAttribute := true },
    { name := "data", target := .to "Blob", isAttribute := true },
    { name := "time", target := .to "Timestamp", xmlQualifier := "q", isAttribute := true }] }

def pick : Shape := {
  name := "Pick"
  form := .union [
    { name := "self", target := .to "Pick" },
    { name := "type", target := .to "String" },
    { name := "amount", target := .to "Amount" },
    { name := "tree", target := .to "Tree" },
    { name := "many", target := .to "Points", xmlName := "one", flattened := true },
    { name := "table", target := .to "ByColor" },
    { name := "rows", target := .to "Matrix", xmlName := "r", flattened := true },
    { name := "byName", target := .to "Choices", xmlName := "named", flattened := true },
    { name := "nothing", target := .to "Empty" }] }

def hollow : Shape :=
  { name := "Hollow", form := .union [] }

def tree : Shape := {
  name := "Tree"
  form := .struct [
    { name := "type", target := .to "String", xmlName := "Type" },
    { name := "left", target := .to "Tree" },
    { name := "right", target := .to "Tree", xmlName := "r:right", required := true },
    { name := "kids", target := .to "Trees" }] }

def forest : Shape := {
  name := "Forest"
  form := .struct [
    { name := "trees", target := .to "Bushes", xmlName := "tree", flattened := true },
    { name := "named", target := .to "BushMap", flattened := true },
    { name := "parent", target := .to "Forest" }] }

def bushes : Shape :=
  { name := "Bushes", form := .list { target := .to "Forest" } }

def bushMap : Shape :=
  { name := "BushMap", form := .map { target := .to "String" } { target := .to "Forest" } }

def request : Shape := {
  name := "Request", xmlName := "Req", xmlNamespace := some ⟨"urn:r", some "r"⟩
  form := .struct [
    { name := "id", target := .to "Short", isAttribute := true, required := true },
    { name := "self", target := .to "String" },
    { name := "match", target := .to "Boolean", xmlName := "plain" },
    { name := "own", target := .to "Integer", xmlQualifier := "o" },
    { name := "fixed", target := .to "String", xmlName := "f:fixed", xmlQualifier := "ignored" },
    { name := "names", target := .to "Names" }] }

def response : Shape := {
  name := "Response"
  form := .struct [
    {
      name := "names", target := .to "Names", xmlName := "name", flattened := true
      required := true },
    { name := "colors", target := .to "Colors" },
    { name := "times", target := .to "Times" },
    { name := "matrix", target := .to "Matrix" },
    { name := "blobs", target := .to "Blobs" },
    { name := "points", target := .to "Points", xmlName := "point", flattened := true },
    { name := "indexes", target := .to "Indexes" },
    { name := "index", target := .to "Index" },
    { name := "byColor", target := .to "ByColor" },
    { name := "flatByColor", target := .to "ByColor", xmlName := "fbc", flattened := true },
    { name := "nested", target := .to "Nested" },
    { name := "spaced", target := .to "Spaced" },
    { name := "pick", target := .to "Pick" },
    { name := "hollow", target := .to "Hollow" },
    { name := "empty", target := .to "Empty" },
    { name := "never", target := .to "Never" },
    { name := "forest", target := .to "Forest" },
    { name := "amount", target := .to "Amount" },
    { name := "short", target := .to "Short" },
    { name := "float", target := .to "Float" },
    { name := "double", target := .to "Double" }] }

def bad : Shape := {
  name := "Bad", isError := true
  form := .struct [
    { name := "Message", target := .to "String", required := true },
    { name := "severity", target := .to "Integer", isAttribute := true }] }

def worse : Shape := {
  name := "Worse", xmlName := "WorseCode"
  form := .struct [
    { name := "message", target := .to "Integer" },
    { name := "names", target := .to "Names", xmlName := "name", flattened := true }] }

/-- The shapes and operations of the corner cases. -/
def model : Model :=
  .ofShapes
    [amount, flag, color, never, names, colors, times, matrix, row, blobs, points,
      indexes, trees, indexMap, byColor, nested, spaced, treeMap, choices, empty, point, pick,
      hollow, tree, forest, bushes, bushMap, request, response, bad, worse]
    [
      {
        name := "doIt", input := "Request", output := "Response"
        errors := ["Bad", "Worse", "Bad"] },
      { name := "Grow", output := "Tree" },
      { name := "Ping", input := "Empty" }]

end WireShapes.Samples.Corners
