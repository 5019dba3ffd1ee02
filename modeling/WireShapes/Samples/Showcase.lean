import WireShapes.Model.Basic

/-!
# The showcase model

A model of everyday shapes: a large structure with members of every kind, a union, maps keyed by
strings and by an enumeration, a qualified structure, two recursive ones, and two operations with
errors.  It is what the document says that stands after it.
-/

namespace WireShapes.Samples.Showcase

def top : Shape := {
  name := "Top", doc := "Everything a GetTop response carries."
  form := .struct [
    { name := "id", target := .to "String", isAttribute := true, required := true },
    { name := "version", target := .to "Integer", isAttribute := true },
    { name := "field", target := .to "String", xmlName := "Field" },
    { name := "extra", target := .to "Long" },
    { name := "level", target := .to "Byte" },
    { name := "weight", target := .to "Float" },
    { name := "ratio", target := .to "Double" },
    { name := "enabled", target := .to "Boolean" },
    { name := "color", target := .to "FooEnum" },
    { name := "created", target := .to "Timestamp" },
    { name := "payload", target := .to "Blob" },
    { name := "choice", target := .to "Choice" },
    {
      name := "choiceMap", target := .to "ChoiceMap", xmlName := "choice_entry", flattened := true
      doc := "Every choice_entry sibling, by key." },
    { name := "tags", target := .to "StringList" },
    { name := "notes", target := .to "StringList", xmlName := "note", flattened := true },
    { name := "counts", target := .to "CountMap" },
    { name := "tagged", target := .to "Tagged" },
    { name := "chain", target := .to "Chain" }] }

def choice : Shape := {
  name := "Choice", doc := "One of several kinds of value."
  form := .union [
    { name := "text", target := .to "String" },
    { name := "number", target := .to "Integer" },
    { name := "color", target := .to "FooEnum" },
    { name := "nested", target := .to "Nested" },
    { name := "items", target := .to "StringList" },
    { name := "flat", target := .to "StringList", xmlName := "flatItem", flattened := true },
    { name := "pairs", target := .to "CountMap", xmlName := "pair", flattened := true }] }

def nested : Shape := {
  name := "Nested"
  form := .struct [
    { name := "label", target := .to "String", isAttribute := true },
    { name := "value", target := .to "Integer", required := true }] }

def fooEnum : Shape := {
  name := "FooEnum"
  form := .enum [
    { name := "Foo" },
    { name := "Baz" },
    { name := "Bar" },
    { name := "FooBar", literal := "Foo Bar" },
    { name := "Zero", literal := "0" }] }

def stringList : Shape :=
  { name := "StringList", form := .list { target := .to "String" } }

def choiceMap : Shape :=
  { name := "ChoiceMap", form := .map { target := .to "String" } { target := .to "Choice" } }

def countMap : Shape :=
  { name := "CountMap"
    form := .map { target := .to "FooEnum", xmlName := "Name" }
      { target := .to "Long", xmlName := "Count" } }

def tagged : Shape := {
  name := "Tagged", xmlName := "TaggedThing", xmlNamespace := some ⟨"urn:example:tagged", some "t"⟩
  form := .struct [
    { name := "id", target := .to "String", isAttribute := true },
    { name := "name", target := .to "String" },
    { name := "note", target := .to "String", xmlQualifier := "n" }] }

def chain : Shape := {
  name := "Chain"
  form := .struct [
    { name := "label", target := .to "String" },
    { name := "next", target := .to "Chain" }] }

def node : Shape := {
  name := "Node", doc := "A tree of labelled nodes."
  form := .struct [
    { name := "value", target := .to "String", required := true },
    { name := "children", target := .to "NodeList" }] }

def nodeList : Shape :=
  { name := "NodeList", form := .list { target := .to "Node", xmlName := "node" } }

def getTopInput : Shape := {
  name := "GetTopInput", xmlName := "GetTopRequest"
  form := .struct [
    { name := "id", target := .to "String", required := true },
    { name := "depth", target := .to "Short" }] }

def notFound : Shape := {
  name := "NotFound", isError := true
  form := .struct [
    { name := "message", target := .to "String", xmlName := "Message" },
    { name := "resource", target := .to "String", xmlName := "Resource" }] }

def throttled : Shape := {
  name := "Throttled", xmlName := "ThrottlingException", isError := true
  form := .struct [
    { name := "retryAfter", target := .to "Integer", xmlName := "RetryAfterSeconds" }] }

/-- The shapes and operations of the showcase. -/
def model : Model :=
  .ofShapes
    [top, choice, nested, fooEnum, stringList, choiceMap, countMap, tagged, chain,
      node, nodeList, getTopInput, notFound, throttled]
    [
      {
        name := "GetTop", input := "GetTopInput", output := "Top"
        errors := ["NotFound", "Throttled"] },
      { name := "GetTree", output := "Node", errors := ["NotFound"] }]

/-- The document of the showcase, line by line. -/
def document : List String := [
  "<?xml version=\"1.0\" encoding=\"UTF-8\"?>\n",
  "<model>\n",
  "  <structure name=\"Top\" doc=\"Everything a GetTop response carries.\">\n",
  "    <member name=\"id\" target=\"String\" attribute=\"true\" required=\"true\"/>\n",
  "    <member name=\"version\" target=\"Integer\" attribute=\"true\"/>\n",
  "    <member name=\"field\" target=\"String\" xml-name=\"Field\"/>\n",
  "    <member name=\"extra\" target=\"Long\"/>\n",
  "    <member name=\"level\" target=\"Byte\"/>\n",
  "    <member name=\"weight\" target=\"Float\"/>\n",
  "    <member name=\"ratio\" target=\"Double\"/>\n",
  "    <member name=\"enabled\" target=\"Boolean\"/>\n",
  "    <member name=\"color\" target=\"FooEnum\"/>\n",
  "    <member name=\"created\" target=\"Timestamp\"/>\n",
  "    <member name=\"payload\" target=\"Blob\"/>\n",
  "    <member name=\"choice\" target=\"Choice\"/>\n",
  "    <member name=\"choiceMap\" target=\"ChoiceMap\" flattened=\"true\" ",
  "xml-name=\"choice_entry\"\n",
  "            doc=\"Every choice_entry sibling, by key.\"/>\n",
  "    <member name=\"tags\" target=\"StringList\"/>\n",
  "    <member name=\"notes\" target=\"StringList\" flattened=\"true\" xml-name=\"note\"/>\n",
  "    <member name=\"counts\" target=\"CountMap\"/>\n",
  "    <member name=\"tagged\" target=\"Tagged\"/>\n",
  "    <member name=\"chain\" target=\"Chain\"/>\n",
  "  </structure>\n",
  "\n",
  "  <union name=\"Choice\" doc=\"One of several kinds of value.\">\n",
  "    <member name=\"text\" target=\"String\"/>\n",
  "    <member name=\"number\" target=\"Integer\"/>\n",
  "    <member name=\"color\" target=\"FooEnum\"/>\n",
  "    <member name=\"nested\" target=\"Nested\"/>\n",
  "    <member name=\"items\" target=\"StringList\"/>\n",
  "    <member name=\"flat\" target=\"StringList\" flattened=\"true\" xml-name=\"flatItem\"/>\n",
  "    <member name=\"pairs\" target=\"CountMap\" flattened=\"true\" xml-name=\"pair\"/>\n",
  "  </union>\n",
  "\n",
  "  <structure name=\"Nested\">\n",
  "    <member name=\"label\" target=\"String\" attribute=\"true\"/>\n",
  "    <member name=\"value\" target=\"Integer\" required=\"true\"/>\n",
  "  </structure>\n",
  "\n",
  "  <enum name=\"FooEnum\">\n",
  "    <value name=\"Foo\"/>\n",
  "    <value name=\"Baz\"/>\n",
  "    <value name=\"Bar\"/>\n",
  "    <value name=\"FooBar\" literal=\"Foo Bar\"/>\n",
  "    <value name=\"Zero\" literal=\"0\"/>\n",
  "  </enum>\n",
  "\n",
  "  <list name=\"StringList\" member=\"String\"/>\n",
  "  <map name=\"ChoiceMap\" key=\"String\" value=\"Choice\"/>\n",
  "  <map name=\"CountMap\" key=\"FooEnum\" value=\"Long\" key-name=\"Name\" ",
  "value-name=\"Count\"/>\n",
  "\n",
  "  <structure name=\"Tagged\" xml-name=\"TaggedThing\" ",
  "namespace-uri=\"urn:example:tagged\" namespace-prefix=\"t\">\n",
  "    <member name=\"id\" target=\"String\" attribute=\"true\"/>\n",
  "    <member name=\"name\" target=\"String\"/>\n",
  "    <member name=\"note\" target=\"String\" xml-prefix=\"n\"/>\n",
  "  </structure>\n",
  "\n",
  "  <structure name=\"Chain\">\n",
  "    <member name=\"label\" target=\"String\"/>\n",
  "    <member name=\"next\" target=\"Chain\"/>\n",
  "  </structure>\n",
  "\n",
  "  <structure name=\"Node\" doc=\"A tree of labelled nodes.\">\n",
  "    <member name=\"value\" target=\"String\" required=\"true\"/>\n",
  "    <member name=\"children\" target=\"NodeList\"/>\n",
  "  </structure>\n",
  "  <list name=\"NodeList\" member=\"Node\" member-name=\"node\"/>\n",
  "\n",
  "  <structure name=\"GetTopInput\" xml-name=\"GetTopRequest\">\n",
  "    <member name=\"id\" target=\"String\" required=\"true\"/>\n",
  "    <member name=\"depth\" target=\"Short\"/>\n",
  "  </structure>\n",
  "\n",
  "  <structure name=\"NotFound\" error=\"true\">\n",
  "    <member name=\"message\" target=\"String\" xml-name=\"Message\"/>\n",
  "    <member name=\"resource\" target=\"String\" xml-name=\"Resource\"/>\n",
  "  </structure>\n",
  "  <structure name=\"Throttled\" xml-name=\"ThrottlingException\" error=\"true\">\n",
  "    <member name=\"retryAfter\" target=\"Integer\" xml-name=\"RetryAfterSeconds\"/>\n",
  "  </structure>\n",
  "\n",
  "  <operation name=\"GetTop\" input=\"GetTopInput\" output=\"Top\" ",
  "errors=\"NotFound Throttled\"/>\n",
  "  <operation name=\"GetTree\" output=\"Node\" errors=\"NotFound\"/>\n",
  "</model>\n"]

/-- The bytes of the document. -/
def documentBytes : List UInt8 :=
  document.flatMap fun piece ↦ piece.toUTF8.data.toList

end WireShapes.Samples.Showcase
