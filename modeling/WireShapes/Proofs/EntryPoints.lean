import WireShapes.Proofs.Readable
import WireShapes.Proofs.Roles

/-!
# Entry points

The functions that decode the input or the output of an operation, and what they give for a document
by the tree of its root element (`EntryPoint.parse_toOption`).  An output may stand in a response,
whose last result counts, though every result is read.
-/

namespace WireShapes

namespace Wire

variable {α : Type} {cs : List Char} {bytes : List UInt8} {written : Xml.Written} {root : Place}
  {read : Element → Reading α} {answer : Option α}

theorem Rooted.decodeRoot_eq (hrooted : Rooted cs written root)
    (hbytes : Text.Utf8.decode bytes = .ok cs) (read : Element → Reading α) :
    decodeRoot bytes read = (read (.opened root.tag 1)
      ⟨root.pieces, (Xml.Stream.ofChars cs).fault, 1, defaultMaxDepth⟩).answer := by
  have hdocument : Document.ofBytes bytes = .ok (Document.ofChars cs) := by
    simp only [Document.ofBytes, hbytes]
  unfold decodeRoot
  rw [hdocument]
  simp only [bind, Except.bind, hrooted.takeRoot]
  rfl

/-- Decoding a root element is reading it with nothing of it read yet. -/
theorem decodeRoot_toOption (hbytes : Text.Utf8.decode bytes = .ok cs)
    (hrooted : Rooted cs written root)
    (hread : ∀ {e : Element} {d : Document}, e.Fresh root d →
      ∃ rest, (read e).Means d answer rest) :
    (decodeRoot bytes read).toOption = answer := by
  obtain ⟨rest, hanswer, -⟩ := hread (hrooted.fresh (Xml.Stream.ofChars cs).fault)
  rw [hrooted.decodeRoot_eq hbytes]
  exact hanswer

end Wire

namespace Bindings

open Wire (Element Place Document StartTag Content Reading Rooted)
open Code (Ident)

/-! ## Roots -/

/-- A function that decodes the input or the output of an operation. -/
inductive EntryPoint
  | input (decl : InputDecl)
  | output (decl : OutputDecl)

namespace EntryPoint

def parse (b : Bindings) : EntryPoint → List UInt8 → Except Wire.DecodeError Value
  | .input decl => b.parseInput decl
  | .output decl => b.parseOutput decl

/-- The pattern that the name of the root element has to satisfy. -/
def pattern : EntryPoint → String
  | .input decl => decl.root
  | .output decl =>
    match decl.place with
    | .root pattern => pattern
    | .result response _ => response

/-- How the root element is read. -/
def role : EntryPoint → Role
  | .input decl => .struct decl.decoder
  | .output decl =>
    match decl.place with
    | .root _ => .struct decl.decoder
    | .result _ result => .response decl.decoder result

end EntryPoint

/-! ## Responses -/

/-- Replaces the builder by that of a child, if the child is a result. -/
def responseStep (b : Bindings) (decoder : Ident) (result : String) (builder : Option Builder)
    (x : StartTag × Content) : Option (Option Builder) :=
  if x.1.matchesPattern result then (b.filled decoder x).map some else some builder

/-- The structure that the last result of a response is built into. -/
def responseValue (b : Bindings) (decoder type : Ident) (result : String) (content : Content) :
    Option Value :=
  (content.elements.foldlM (b.responseStep decoder result) none).bind fun builder ↦
    builder.bind fun builder ↦ (b.build type builder).toOption

variable {b : Bindings} {e : Element} {place inner : Place} {d : Document} {levels : Nat}
  {read : Reader}

/-- The decoder of a structure fills a fresh builder. -/
theorem fillBy_filled (hread : b.Faithful read levels) (hfresh : e.Fresh place d)
    (hlevels : place.inside.depth ≤ levels) (decoder : Ident) :
    (b.fillBy read decoder e).Means d (b.filled decoder (place.tag, place.inside))
      (e.behind place d) := by
  unfold fillBy filled
  cases hm : b.decoder? decoder with
  | none => exact .fail _ _ _
  | some decl =>
    cases decl with
    | struct m => exact fill_means hread hfresh hlevels m .empty
    | union m => exact .fail _ _ _
    | list m => exact .fail _ _ _
    | map m => exact .fail _ _ _

theorem takes_responseChild (hdistinct : b.Distinct) (hfresh : e.Fresh place d)
    (hlevels : place.inside.depth ≤ Wire.defaultMaxDepth) (decl : OutputDecl) (result : String)
    (hinner : .element inner ∈ place.nodes) :
    e.Takes (b.responseChild decl result) inner d fun builder ↦
      b.responseStep decl.decoder result builder (inner.tag, inner.inside) := by
  have hchild := Element.Fresh.child hinner hfresh.room
  have hdepth := Content.depth_lt_of_mem_nodes hinner
  by_cases hmatch : inner.tag.matchesPattern result = true
  · apply takes_all
    intro builder
    simp only [responseChild, responseStep, Element.opened, hmatch, if_true]
    exact (fillBy_filled (faithful_read hdistinct _) hchild (by omega) decl.decoder).map
  · apply takes_none
    intro builder
    simp only [responseChild, responseStep, Element.opened, hmatch]
    exact .pure builder _

/-- Building what a response came to. -/
theorem response_means (hdistinct : b.Distinct) (hfresh : e.Fresh place d)
    (hlevels : place.inside.depth ≤ Wire.defaultMaxDepth) (decl : OutputDecl) (result : String) :
    (do match ← e.foldChildren (b.responseChild decl result) none with
        | some builder => Reading.give (b.build decl.type builder)
        | none => Reading.fail (.missingElement result)).Means d
      (b.responseValue decl.decoder decl.type result place.inside) (e.behind place d) := by
  refine (hfresh.foldChildren (fun inner hinner ↦
    takes_responseChild hdistinct hfresh hlevels decl result hinner) none).bind ?_
  intro builder _
  cases builder with
  | none => exact .fail _ _ _
  | some builder => exact .give (b.build decl.type builder) _

/-- A response looks at nothing but its results. -/
theorem responseValue_eq {decoder : Ident} {result : String} {content more : Content}
    (h : Alike b (.response decoder result) content.elements more.elements) (type : Ident) :
    b.responseValue decoder type result more = b.responseValue decoder type result content := by
  have hslots : (Role.response decoder result).slots b = [(result, .struct decoder)] := rfl
  unfold responseValue
  rw [h.foldlM_eq]
  · intro builder x y hxy
    have hpattern := hxy.matchesPattern result
    by_cases hmatch : x.1.matchesPattern result = true
    · rw [child_of_slot hslots hmatch] at hxy
      simp [responseStep, hpattern, hmatch, hxy.filled decoder rfl]
    · simp [responseStep, hpattern, hmatch]
  · intro builder y hnone
    simp [responseStep, hnone result (by simp [Role.patterns, hslots])]

/-! ## What entry points give -/

namespace EntryPoint

/-- What an entry point gives for a root element. -/
def meaning (b : Bindings) : EntryPoint → StartTag × Content → Option Value
  | .input decl, x => (b.seen x).value (.struct decl.decoder decl.type)
  | .output decl, x =>
    match decl.place with
    | .root _ => (b.seen x).value (.struct decl.decoder decl.type)
    | .result _ result => b.responseValue decl.decoder decl.type result x.2

/-- The name of the root element is checked first. -/
theorem means_expect {α : Type} {reading : Reading α} {answer : Option α} {rest : Document}
    (hfresh : e.Fresh place d) (pattern : String) (h : reading.Means d answer rest) :
    (Reading.give (e.expect pattern) >>= fun _ ↦ reading).Means d
      (if place.tag.matchesPattern pattern then answer else none) rest := by
  have hexpect : (e.expect pattern).toOption =
      if place.tag.matchesPattern pattern then some () else none := by
    rw [Element.expect, hfresh.start]
    split <;> rfl
  have hgive := Reading.Means.give (e.expect pattern) d
  rw [hexpect] at hgive
  by_cases hmatch : place.tag.matchesPattern pattern = true
  · rw [if_pos hmatch] at hgive ⊢
    exact hgive.bind_some h
  · rw [if_neg hmatch] at hgive ⊢
    exact hgive.bind_none

/-- An entry point gives what the root element of a document means, and fails if that is nothing. -/
theorem parse_toOption (hdistinct : b.Distinct) (entry : EntryPoint) {bytes : List UInt8}
    {cs : List Char} {written : Xml.Written} {root : Place}
    (hbytes : Text.Utf8.decode bytes = .ok cs) (hrooted : Rooted cs written root) :
    (entry.parse b bytes).toOption =
      if root.tag.matchesPattern entry.pattern then entry.meaning b (root.tag, root.inside)
      else none := by
  have hroom := hrooted.room
  cases entry with
  | input decl =>
    apply Wire.decodeRoot_toOption hbytes hrooted
    intro e d hfresh
    exact ⟨_, means_expect hfresh decl.root (faithful_read hdistinct _ hfresh hroom _)⟩
  | output decl =>
    apply Wire.decodeRoot_toOption hbytes hrooted
    intro e d hfresh
    obtain ⟨ident, type, decoder, place⟩ := decl
    cases place with
    | root pattern =>
      exact ⟨_, means_expect hfresh pattern (faithful_read hdistinct _ hfresh hroom _)⟩
    | result response result =>
      exact ⟨_, means_expect hfresh response
        (response_means hdistinct hfresh (Nat.le_of_lt hroom) _ result)⟩

/-- What a root element means does not depend on what its role does not look for. -/
theorem meaning_congr (hdistinct : b.Distinct) (entry : EntryPoint) {x y : StartTag × Content}
    (hname : y.1.name = x.1.name)
    (hattributes : ∀ pattern ∈ entry.role.attributes b, y.1.get? pattern = x.1.get? pattern)
    (h : Extended b entry.role x.2 y.2) : entry.meaning b y = entry.meaning b x := by
  have hsame := same_of_extended hdistinct hname hattributes h
  cases entry with
  | input decl => exact hsame.value (.struct decl.decoder decl.type) rfl
  | output decl =>
    obtain ⟨ident, type, decoder, place⟩ := decl
    cases place with
    | root pattern => exact hsame.value (.struct decoder type) rfl
    | result response result => exact responseValue_eq (h.alike hdistinct) type

end EntryPoint

end Bindings

end WireShapes
