/-!
# Names and patterns

An element or attribute name has a base and possibly a qualifier, which ends at the first colon.  A
pattern is a name in text form: a qualified pattern matches qualifier and base, a bare one matches
the base under any qualifier.
-/

namespace WireShapes.Xml

/-- A name as it stands in a tag. -/
structure Name where
  qualifier : Option String
  base : String
deriving DecidableEq

namespace Name

/-- Splits a text at its first colon. -/
def splitColon (cs : List Char) : Option (List Char × List Char) :=
  match cs.span (· ≠ ':') with
  | (before, _ :: after) => some (before, after)
  | (_, []) => none

/-- The name that a text spells. -/
def ofList (cs : List Char) : Name :=
  match splitColon cs with
  | some (before, after) => ⟨some (String.ofList before), String.ofList after⟩
  | none => ⟨none, String.ofList cs⟩

/-- The name that a text spells. -/
def ofText (text : String) : Name :=
  ofList text.toList

/-- The text of a name. -/
def toText (name : Name) : String :=
  match name.qualifier with
  | some qualifier => qualifier ++ ":" ++ name.base
  | none => name.base

/-- Whether the name satisfies the pattern that a text spells. -/
def matchesPattern (name : Name) (pattern : String) : Bool :=
  match ofText pattern with
  | ⟨some qualifier, base⟩ => name.qualifier == some qualifier && name.base == base
  | ⟨none, base⟩ => name.base == base

/-- A namespace declaration: `xmlns`, or any name qualified by it. -/
def declaresNamespace (name : Name) : Bool :=
  match name.qualifier with
  | some qualifier => qualifier == "xmlns"
  | none => name.base == "xmlns"

end Name

end WireShapes.Xml
