import Mathlib.Control.Monad.Basic
import Mathlib.Data.List.Infix
import WireShapes.Wire.Document

/-!
# Documents as trees

The tree behind the pieces of a document.  `Xml.Content` is what stands between two tags as it is
written; read without a fault it is a `Wire.Content`, whose `lexemes` are the pieces a cursor meets.
A `Place` is an element where it stands, with the pieces that follow it to the end of the document;
its `nodes` are the texts and elements directly inside, each with the pieces that follow it.  A node
is unread at a cursor when the pieces from it on are still to be read.
-/

namespace WireShapes

deriving instance DecidableEq for Xml.Attributes

/-! ## Trees as read -/

namespace Wire

deriving instance DecidableEq for Lexeme

/-- What stands between a start tag and its end tag. -/
inductive Content
  | empty
  | text (content : String) (rest : Content)
  | element (tag : StartTag) (inside rest : Content)
deriving DecidableEq

/-- An element of a document: its tag, what is inside it, and the pieces after its end tag. -/
structure Place where
  tag : StartTag
  inside : Content
  after : List Lexeme
deriving DecidableEq

/-- A text or an element, and what follows it. -/
inductive Node
  | text (content : String) (after : List Lexeme)
  | element (place : Place)

namespace Content

/-- The pieces of the content. -/
def lexemes : Content → List Lexeme
  | .empty => []
  | .text content rest => .text (.ok content) :: rest.lexemes
  | .element tag inside rest => .start (.ok tag) :: (inside.lexemes ++ .close :: rest.lexemes)

/-- How deep elements nest. -/
def depth : Content → Nat
  | .empty => 0
  | .text _ rest => rest.depth
  | .element _ inside rest => max (inside.depth + 1) rest.depth

/-- The texts and elements of the content itself, in order; a tail follows the content. -/
def nodes (tail : List Lexeme) : Content → List Node
  | .empty => []
  | .text content rest => .text content (rest.lexemes ++ tail) :: rest.nodes tail
  | .element tag inside rest => .element ⟨tag, inside, rest.lexemes ++ tail⟩ :: rest.nodes tail

end Content

namespace Place

/-- The pieces after the start tag. -/
def pieces (place : Place) : List Lexeme :=
  place.inside.lexemes ++ .close :: place.after

/-- The texts and elements directly inside. -/
def nodes (place : Place) : List Node :=
  place.inside.nodes (.close :: place.after)

end Place

namespace Node

/-- The pieces from the node on. -/
def fromStart : Node → List Lexeme
  | .text content after => .text (.ok content) :: after
  | .element place => .start (.ok place.tag) :: place.pieces

def place? : Node → Option Place
  | .text _ _ => none
  | .element place => some place

def text? : Node → Option String
  | .text content _ => some content
  | .element _ => none

/-- Nothing of the node has been read. -/
def Unread (node : Node) (pending : List Lexeme) : Prop :=
  node.fromStart <:+ pending

instance (node : Node) (pending : List Lexeme) : Decidable (node.Unread pending) :=
  inferInstanceAs (Decidable (node.fromStart <:+ pending))

/-- Once its first piece has been read, a node is not unread. -/
theorem not_unread {node : Node} {pending pieces : List Lexeme} {piece : Lexeme}
    (hstart : node.fromStart = piece :: pieces) (hread : pending <:+ pieces) :
    ¬ node.Unread pending := by
  intro hunread
  have hlength : (piece :: pieces).length ≤ pieces.length :=
    hstart ▸ (hunread.trans hread).length_le
  exact Nat.not_succ_le_self _ hlength

end Node

namespace Place

/-- The nodes directly inside of which nothing has been read. -/
def left (place : Place) (pending : List Lexeme) : List Node :=
  place.nodes.filter fun node ↦ node.Unread pending

/-- The first child whose start tag has not been read. -/
def next? (place : Place) (pending : List Lexeme) : Option Place :=
  (place.left pending).findSome? Node.place?

/-- The texts directly inside that have not been read, as one. -/
def textLeft (place : Place) (pending : List Lexeme) : String :=
  String.join ((place.left pending).filterMap Node.text?)

end Place

/-! ### What is unread -/

namespace Content

variable {content : Content} {tail pending : List Lexeme} {node : Node}

/-- Every node of a content has its end before the tail. -/
theorem suffix_of_mem_nodes (h : node ∈ content.nodes tail) :
    node.fromStart <:+ content.lexemes ++ tail := by
  induction content with
  | empty => simp [nodes] at h
  | text content rest ih =>
    rcases List.mem_cons.mp h with rfl | h
    · exact List.suffix_refl _
    · exact (ih h).trans (List.suffix_cons _ _)
  | element tag inside rest _ ih =>
    rcases List.mem_cons.mp h with rfl | h
    · simp [Node.fromStart, Place.pieces, lexemes]
    · refine (ih h).trans ⟨.start (.ok tag) :: (inside.lexemes ++ [.close]), ?_⟩
      simp [lexemes]

theorem length_tail_lt_of_mem_nodes (h : node ∈ content.nodes tail) :
    tail.length < node.fromStart.length := by
  induction content with
  | empty => simp [nodes] at h
  | text content rest ih =>
    rcases List.mem_cons.mp h with rfl | h
    · simp only [Node.fromStart, List.length_cons, List.length_append]
      omega
    · exact ih h
  | element tag inside rest _ ih =>
    rcases List.mem_cons.mp h with rfl | h
    · simp only [Node.fromStart, Place.pieces, List.length_cons, List.length_append]
      omega
    · exact ih h

/-- At the beginning of a content all of it is unread. -/
theorem filter_unread_start (h : content.lexemes ++ tail <:+ pending) :
    (content.nodes tail).filter (fun node ↦ node.Unread pending) = content.nodes tail := by
  refine List.filter_eq_self.mpr fun node hnode ↦ decide_eq_true ?_
  exact (suffix_of_mem_nodes hnode).trans h

/-- After a content nothing of it is unread. -/
theorem filter_unread_end (h : pending.length ≤ tail.length) :
    (content.nodes tail).filter (fun node ↦ node.Unread pending) = [] := by
  apply List.filter_eq_nil_iff.mpr
  intro node hnode hunread
  have hsuffix : node.Unread pending := of_decide_eq_true hunread
  have hlength := hsuffix.length_le
  have htail := length_tail_lt_of_mem_nodes hnode
  omega

end Content

/-- Behind its end tag nothing of an element is unread. -/
theorem Place.left_after (place : Place) : place.left place.after = [] :=
  Content.filter_unread_end (Nat.le_succ _)

end Wire

/-! ## Trees as written -/

namespace Xml

/-- What stands between a start tag and its end tag as it is written: texts and CDATA sections,
asides such as comments, and elements. -/
inductive Content
  | empty
  | text (raw : List Char) (rest : Content)
  | cdata (raw : List Char) (rest : Content)
  | aside (rest : Content)
  | element (tag : RawTag) (inside rest : Content)

namespace Content

/-- The tokens of the content. -/
def tokens : Content → List Token
  | .empty => []
  | .text raw rest => .text raw :: rest.tokens
  | .cdata raw rest => .cdata raw :: rest.tokens
  | .aside rest => .aside :: rest.tokens
  | .element tag inside rest => .start tag :: (inside.tokens ++ .close tag.name :: rest.tokens)

/-- The content as it is read, if no reference and no attribute list in it is at fault. -/
def read? : Content → Option Wire.Content
  | .empty => some .empty
  | .text raw rest => do return .text (← (expand raw).toOption) (← rest.read?)
  | .cdata raw rest => do return .text (String.ofList raw) (← rest.read?)
  | .aside rest => rest.read?
  | .element tag inside rest => do
    return .element (← (Wire.StartTag.ofRaw tag).toOption) (← inside.read?) (← rest.read?)

section Read

variable {rest inside : Content} {read : Wire.Content} {raw : List Char} {tag : RawTag}

theorem read?_text_eq_some : (text raw rest).read? = some read ↔
    ∃ first later, expand raw = .ok first ∧ rest.read? = some later ∧ .text first later = read := by
  rw [read?]
  cases expand raw <;> cases rest.read? <;> simp [Except.toOption]

theorem read?_cdata_eq_some : (cdata raw rest).read? = some read ↔
    ∃ later, rest.read? = some later ∧ .text (String.ofList raw) later = read := by
  rw [read?]
  cases rest.read? <;> simp

theorem read?_element_eq_some : (element tag inside rest).read? = some read ↔
    ∃ start below later, Wire.StartTag.ofRaw tag = .ok start ∧ inside.read? = some below ∧
      rest.read? = some later ∧ .element start below later = read := by
  rw [read?]
  cases Wire.StartTag.ofRaw tag <;> cases inside.read? <;> cases rest.read? <;>
    simp [Except.toOption]

end Read

/-- What is read of the tokens of a content. -/
theorem filterMap_tokens {content : Content} {read : Wire.Content} (h : content.read? = some read) :
    content.tokens.filterMap Wire.Lexeme.ofToken? = read.lexemes := by
  induction content generalizing read with
  | empty =>
    obtain rfl : Wire.Content.empty = read := by simpa [read?] using h
    rfl
  | text raw rest ih =>
    obtain ⟨text, content, htext, hrest, rfl⟩ := read?_text_eq_some.mp h
    simp [tokens, Wire.Lexeme.ofToken?, htext, ih hrest, Wire.Content.lexemes]
  | cdata raw rest ih =>
    obtain ⟨content, hrest, rfl⟩ := read?_cdata_eq_some.mp h
    simp [tokens, Wire.Lexeme.ofToken?, ih hrest, Wire.Content.lexemes]
  | aside rest ih =>
    have hrest : rest.read? = some read := h
    rw [tokens, List.filterMap_cons_none rfl, ih hrest]
  | element tag inside rest ihInside ihRest =>
    obtain ⟨start, below, content, htag, hinside, hrest, rfl⟩ := read?_element_eq_some.mp h
    simp [tokens, Wire.Lexeme.ofToken?, htag, ihInside hinside, ihRest hrest,
      Wire.Content.lexemes]

end Content

end Xml

end WireShapes
