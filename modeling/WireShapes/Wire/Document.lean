import WireShapes.Wire.DecodeError

/-!
# Documents under a cursor

A `Document` is what of an input is still to be read, with the number of elements open there and
the depth allowed.  `Lexeme.read` reads one piece: it counts start and end tags, refuses a start tag
past the depth limit without counting it, and reports the fault of a tag or a text where it stands.
Afterwards reading can go on; only a fault of the markup reader itself leaves nothing to read.
-/

namespace WireShapes.Wire

/-- A piece of a document as its cursor meets it, with the fault inside it if it has one. -/
inductive Lexeme
  | start (tag : Except TagFault StartTag)
  | close
  | text (content : Except Xml.ReferenceFault String)

/-- Asides are not seen by decoders; CDATA is text without references. -/
def Lexeme.ofToken? : Xml.Token → Option Lexeme
  | .start tag => some (.start (StartTag.ofRaw tag))
  | .close _ => some .close
  | .text raw => some (.text (Xml.expand raw))
  | .cdata raw => some (.text (.ok (String.ofList raw)))
  | .aside => none

/-- What the cursor hands out. -/
inductive Event
  | start (tag : StartTag)
  | close
  | text (content : String)

/-- An input under a cursor. -/
structure Document where
  pending : List Lexeme
  /-- The fault that ends the input after the pending pieces. -/
  fault : Option Xml.ScanFault
  /-- Elements open at the cursor. -/
  depth : Nat
  maxDepth : Nat

/-- The nesting allowed unless a document says otherwise. -/
def defaultMaxDepth : Nat := 128

/-- Reads one piece at a depth: the event or the fault, and the depth after it. -/
def Lexeme.read (depth maxDepth : Nat) : Lexeme → Except DecodeError Event × Nat
  | .start tag =>
    if depth = maxDepth then (.error (.tooDeep maxDepth), depth)
    else match tag with
      | .ok tag => (.ok (.start tag), depth + 1)
      | .error fault => (.error (.ofTagFault fault), depth + 1)
  | .close => (.ok .close, depth - 1)
  | .text (.ok content) => (.ok (.text content), depth)
  | .text (.error fault) => (.error (.markup (.reference fault)), depth)

namespace Document

/-- The document that a text holds. -/
def ofChars (cs : List Char) (maxDepth : Nat := defaultMaxDepth) : Document :=
  let stream := Xml.Stream.ofChars cs
  ⟨stream.tokens.filterMap Lexeme.ofToken?, stream.fault, 0, maxDepth⟩

/-- The document that a byte sequence holds. -/
def ofBytes (bytes : List UInt8) (maxDepth : Nat := defaultMaxDepth) :
    Except DecodeError Document :=
  match Text.Utf8.decode bytes with
  | .ok cs => .ok (ofChars cs maxDepth)
  | .error fault => .error (.encoding fault)

/-- What is wrong with a document that ends too early: the fault that ended it, or that nothing
follows. -/
def endError (fault : Option Xml.ScanFault) (otherwise : DecodeError) : DecodeError :=
  match fault with
  | some fault => .markup (.scan fault)
  | none => otherwise

end Document

end WireShapes.Wire
