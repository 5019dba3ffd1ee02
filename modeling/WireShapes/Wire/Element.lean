import WireShapes.Wire.Document

/-!
# Elements of a document

An `Element` is a view of one element of a document: reading through it never leaves the element.
`nextChild` hands out the next direct child, `takeText` gathers the text directly inside.  A child
that was handed out and not read to its end is passed over by the next call on its parent, because a
call tells its own level by the depth of the cursor alone.
-/

namespace WireShapes.Wire

/-- One element: its tag, the depth inside it, and whether its end tag has been read. -/
structure Element where
  start : StartTag
  depth : Nat
  closed : Bool

/-- What a call on an element comes to: the answer, and the element and document after it. -/
structure Call (α : Type) where
  answer : Except DecodeError α
  element : Element
  document : Document

namespace Element

/-- The element whose start tag was just read. -/
def opened (tag : StartTag) (depth : Nat) : Element := ⟨tag, depth, false⟩

/-- The element after its end tag. -/
def close (e : Element) : Element := { e with closed := true }

def name (e : Element) : String := e.start.name.toText

/-- The error of a document that ends inside the element. -/
def unterminated (e : Element) : DecodeError := .unterminated e.name

/-- Looks for the next direct child in the pieces still to be read. -/
def seekChild (e : Element) (fault : Option Xml.ScanFault) (maxDepth : Nat) :
    Nat → List Lexeme → Call (Option Element)
  | depth, [] =>
    ⟨.error (Document.endError fault e.unterminated), e, ⟨[], none, depth, maxDepth⟩⟩
  | depth, piece :: rest =>
    match piece.read depth maxDepth with
    | (.error error, after) => ⟨.error error, e, ⟨rest, fault, after, maxDepth⟩⟩
    | (.ok (.start tag), after) =>
      if after = e.depth + 1 then ⟨.ok (some (opened tag after)), e, ⟨rest, fault, after, maxDepth⟩⟩
      else seekChild e fault maxDepth after rest
    | (.ok .close, after) =>
      if depth = e.depth then ⟨.ok none, e.close, ⟨rest, fault, after, maxDepth⟩⟩
      else seekChild e fault maxDepth after rest
    | (.ok (.text _), after) => seekChild e fault maxDepth after rest

/-- The next direct child, or `none` once the element is closed. -/
def nextChild (e : Element) (d : Document) : Call (Option Element) :=
  if e.closed then ⟨.ok none, e, d⟩ else e.seekChild d.fault d.maxDepth d.depth d.pending

/-- Gathers text directly inside the element up to its end tag. -/
def gatherText (e : Element) (fault : Option Xml.ScanFault) (maxDepth : Nat) :
    String → Nat → List Lexeme → Call String
  | _, depth, [] =>
    ⟨.error (Document.endError fault e.unterminated), e, ⟨[], none, depth, maxDepth⟩⟩
  | text, depth, piece :: rest =>
    match piece.read depth maxDepth with
    | (.error error, after) => ⟨.error error, e, ⟨rest, fault, after, maxDepth⟩⟩
    | (.ok (.start _), after) => gatherText e fault maxDepth text after rest
    | (.ok .close, after) =>
      if depth = e.depth then ⟨.ok text, e.close, ⟨rest, fault, after, maxDepth⟩⟩
      else gatherText e fault maxDepth text after rest
    | (.ok (.text content), after) =>
      gatherText e fault maxDepth (if depth = e.depth then text ++ content else text) after rest

/-- The text directly inside the element; the text of nested elements is left out. -/
def takeText (e : Element) (d : Document) : Call String :=
  if e.closed then ⟨.ok "", e, d⟩ else e.gatherText d.fault d.maxDepth "" d.depth d.pending

/-- Checks the element's name. -/
def expect (e : Element) (pattern : String) : Except DecodeError Unit :=
  if e.start.matchesPattern pattern then .ok ()
  else .error (.unexpectedElement pattern e.name)

end Element

/-- Looks for the root element in the pieces still to be read. -/
def Document.seekRoot (fault : Option Xml.ScanFault) (maxDepth : Nat) :
    Nat → List Lexeme → Except DecodeError Element × Document
  | depth, [] => (.error (endError fault .noRoot), ⟨[], none, depth, maxDepth⟩)
  | depth, piece :: rest =>
    match piece.read depth maxDepth with
    | (.error error, after) => (.error error, ⟨rest, fault, after, maxDepth⟩)
    | (.ok (.start tag), after) => (.ok (.opened tag after), ⟨rest, fault, after, maxDepth⟩)
    | (.ok _, after) => seekRoot fault maxDepth after rest

/-- Positions the document at the first element there is. -/
def Document.takeRoot (d : Document) : Except DecodeError Element × Document :=
  Document.seekRoot d.fault d.maxDepth d.depth d.pending

end WireShapes.Wire
