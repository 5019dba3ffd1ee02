import WireShapes.Wire.Element

/-!
# Readings

A `Reading` is a computation on a document that only ever moves forward: what it leaves is no longer
than what it was given, whether it succeeds or fails.  That is what makes loops over the children of
an element end: each child takes at least its start tag from the document.
-/

namespace WireShapes.Wire

/-- Pieces still to be read. -/
def Document.size (d : Document) : Nat := d.pending.length

namespace Element

theorem seekChild_size_le (e : Element) (fault : Option Xml.ScanFault) (maxDepth depth : Nat)
    (pieces : List Lexeme) :
    (e.seekChild fault maxDepth depth pieces).document.size ≤ pieces.length := by
  induction pieces generalizing depth with
  | nil => simp [seekChild, Document.size]
  | cons piece rest ih =>
    unfold seekChild
    split
    · simp [Document.size]
    · split
      · simp [Document.size]
      · exact Nat.le_succ_of_le (ih _)
    · split
      · simp [Document.size]
      · exact Nat.le_succ_of_le (ih _)
    · exact Nat.le_succ_of_le (ih _)

theorem seekChild_size_lt (e : Element) (fault : Option Xml.ScanFault) (maxDepth depth : Nat)
    (pieces : List Lexeme) (child : Element)
    (found : (e.seekChild fault maxDepth depth pieces).answer = .ok (some child)) :
    (e.seekChild fault maxDepth depth pieces).document.size < pieces.length := by
  induction pieces generalizing depth with
  | nil => simp [seekChild] at found
  | cons piece rest ih =>
    unfold seekChild at found ⊢
    split at found
    · simp at found
    · split at found
      · simp_all [Document.size]
      · simp_all only [List.length_cons, ↓reduceIte]
        exact Nat.lt_succ_of_lt (ih _ found)
    · split at found
      · simp at found
      · simp_all only [List.length_cons, ↓reduceIte]
        exact Nat.lt_succ_of_lt (ih _ found)
    · simp_all only [List.length_cons]
      exact Nat.lt_succ_of_lt (ih _ found)

theorem gatherText_size_le (e : Element) (fault : Option Xml.ScanFault) (maxDepth : Nat)
    (text : String) (depth : Nat) (pieces : List Lexeme) :
    (e.gatherText fault maxDepth text depth pieces).document.size ≤ pieces.length := by
  induction pieces generalizing depth text with
  | nil => simp [gatherText, Document.size]
  | cons piece rest ih =>
    unfold gatherText
    split
    · simp [Document.size]
    · exact Nat.le_succ_of_le (ih _ _)
    · split
      · simp [Document.size]
      · exact Nat.le_succ_of_le (ih _ _)
    · exact Nat.le_succ_of_le (ih _ _)

/-- Looking for a child never lengthens the document. -/
theorem nextChild_size_le (e : Element) (d : Document) :
    (e.nextChild d).document.size ≤ d.size := by
  unfold nextChild
  split
  · exact Nat.le_refl _
  · exact seekChild_size_le ..

/-- A child takes its start tag from the document. -/
theorem nextChild_size_lt (e : Element) (d : Document) (child : Element)
    (found : (e.nextChild d).answer = .ok (some child)) :
    (e.nextChild d).document.size < d.size := by
  unfold nextChild at found ⊢
  split
  · simp_all
  · simp_all only [Bool.not_eq_true]
    exact seekChild_size_lt e _ _ _ _ child found

theorem takeText_size_le (e : Element) (d : Document) :
    (e.takeText d).document.size ≤ d.size := by
  unfold takeText
  split
  · exact Nat.le_refl _
  · exact gatherText_size_le ..

/-- Passes over the rest of the element: every child that is left is dropped unread. -/
def skip (e : Element) (d : Document) : Call Unit :=
  let call := e.nextChild d
  match _found : call.answer with
  | .error error => ⟨.error error, call.element, call.document⟩
  | .ok none => ⟨.ok (), call.element, call.document⟩
  | .ok (some _) => skip call.element call.document
termination_by d.size
decreasing_by exact e.nextChild_size_lt d _ _found

end Element

/-- The answer of a reading of `d`, and the document it leaves. -/
structure Outcome (d : Document) (α : Type) where
  answer : Except DecodeError α
  rest : Document
  size_le : rest.size ≤ d.size

/-- A computation that reads forward in a document. -/
def Reading (α : Type) : Type :=
  (d : Document) → Outcome d α

namespace Reading

/-- Answers without reading. -/
def give (answer : Except DecodeError α) : Reading α :=
  fun d => ⟨answer, d, Nat.le_refl _⟩

/-- Goes on with the answer, unless there was an error. -/
def andThen (first : Reading α) (next : α → Reading β) : Reading β := fun d =>
  let before := first d
  match before.answer with
  | .error error => ⟨.error error, before.rest, before.size_le⟩
  | .ok a =>
    let after := next a before.rest
    ⟨after.answer, after.rest, Nat.le_trans after.size_le before.size_le⟩

instance : Monad Reading where
  pure a := give (.ok a)
  bind := andThen

/-- Fails without reading. -/
def fail (error : DecodeError) : Reading α :=
  give (.error error)

/-- Runs a reading on a document for its answer alone. -/
def answerOn (reading : Reading α) (d : Document) : Except DecodeError α :=
  (reading d).answer

end Reading

namespace Element

/-- The text of the element, which closes it. -/
def text (e : Element) : Reading String := fun d =>
  let call := e.takeText d
  ⟨call.answer, call.document, e.takeText_size_le d⟩

/-- Takes the children of the element in order, each with the result so far, until the element
closes. -/
def foldChildren (step : σ → Element → Reading σ) (result : σ) (e : Element) : Reading σ := fun d =>
  let call := e.nextChild d
  match _found : call.answer with
  | .error error => ⟨.error error, call.document, e.nextChild_size_le d⟩
  | .ok none => ⟨.ok result, call.document, e.nextChild_size_le d⟩
  | .ok (some child) =>
    let read := step result child call.document
    have size_le := Nat.le_trans read.size_le (e.nextChild_size_le d)
    match read.answer with
    | .error error => ⟨.error error, read.rest, size_le⟩
    | .ok result =>
      let after := foldChildren step result call.element read.rest
      ⟨after.answer, after.rest, Nat.le_trans after.size_le size_le⟩
termination_by d => d.size
decreasing_by exact Nat.lt_of_le_of_lt read.size_le (e.nextChild_size_lt d child _found)

/-- The first child that a test accepts; the children before it are passed over. -/
def firstChild (accept : StartTag → Bool) (e : Element) : Reading (Option Element) := fun d =>
  let call := e.nextChild d
  match _found : call.answer with
  | .error error => ⟨.error error, call.document, e.nextChild_size_le d⟩
  | .ok none => ⟨.ok none, call.document, e.nextChild_size_le d⟩
  | .ok (some child) =>
    if accept child.start then ⟨.ok (some child), call.document, e.nextChild_size_le d⟩
    else
      let after := firstChild accept call.element call.document
      ⟨after.answer, after.rest, Nat.le_trans after.size_le (e.nextChild_size_le d)⟩
termination_by d => d.size
decreasing_by exact e.nextChild_size_lt d child _found

end Element

/-- Decodes the root element of a document given as bytes. -/
def decodeRoot (bytes : List UInt8) (read : Element → Reading α) : Except DecodeError α := do
  let document ← Document.ofBytes bytes
  match document.takeRoot with
  | (.error error, _) => .error error
  | (.ok root, document) => (read root).answerOn document

end WireShapes.Wire
