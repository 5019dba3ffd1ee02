import WireShapes.Proofs.EntryPoints
import WireShapes.Proofs.Likeness
import WireShapes.Proofs.ShowcaseDecoders

/-!
# Bare and wrapped outputs

The output of an operation is the root element of its document or, where outputs are wrapped, the
result inside a response.  Two entry points read it with one decoder at different depths, from
elements of different names, with other elements before and after the result.  They agree on every
content and every list of attributes, in the errors too (`Bindings.parseOutput_agree`); so do the
functions that the two protocols of the showcase declare for one operation.
-/

namespace WireShapes

namespace Bindings

open Wire (Element Place Document StartTag Content Reading Rooted Front DecodeError)
open Code (Ident)

variable {b b' : Bindings}

/-! ## Bindings with the same decoders -/

section SameDecoders

variable (htypes : b.types = b'.types) (hdecoders : b.decoders = b'.decoders)
include htypes hdecoders

theorem fillBy_congr (read : Reader) (decoder : Ident) :
    b.fillBy read decoder = b'.fillBy read decoder := by
  obtain ⟨types, errors, decoders, operations⟩ := b
  obtain ⟨types', errors', decoders', operations'⟩ := b'
  obtain rfl : types = types' := htypes
  obtain rfl : decoders = decoders' := hdecoders
  have hattributes (start : StartTag) (builder : Builder) (arms : List AttributeArm) :
      readAttributes ⟨types, errors, decoders, operations⟩ start builder arms =
        readAttributes ⟨types, errors', decoders, operations'⟩ start builder arms := by
    induction arms generalizing builder with
    | nil => rfl
    | cons arm rest ih =>
      simp only [readAttributes, ih]
      rfl
  funext e
  unfold fillBy fill
  simp only [hattributes]
  rfl

theorem level_congr : b.level = b'.level := by
  have hfill := fillBy_congr htypes hdecoders
  obtain ⟨types, errors, decoders, operations⟩ := b
  obtain ⟨types', errors', decoders', operations'⟩ := b'
  obtain rfl : types = types' := htypes
  obtain rfl : decoders = decoders' := hdecoders
  funext read source e
  cases source with
  | struct decoder type =>
    dsimp only [level]
    rw [hfill]
    rfl
  | _ => rfl

/-- How elements are read depends on the types and the decoders alone. -/
theorem read_congr (levels : Nat) : b.read levels = b'.read levels := by
  have hlevel := level_congr htypes hdecoders
  induction levels with
  | zero =>
    funext source e
    cases source with
    | text source => exact congrFun (congrFun (congrFun hlevel (b.read 0)) (.text source)) e
    | _ => rfl
  | succ levels ih => rw [read_succ, read_succ, hlevel, ih]

end SameDecoders

/-! ## The result of a response -/

theorem same_responseChild {f f' : Front} (decl : OutputDecl) (result : String)
    (builder : Option Builder) (halike : f.place.Alike f'.place)
    (hlevels : f.place.inside.depth ≤ Wire.defaultMaxDepth) :
    f.Same f' false (b.responseChild decl result builder f.element)
      (b.responseChild decl result builder f'.element) := by
  unfold responseChild
  rw [f.fresh.start, f'.fresh.start, halike.tag.matchesPattern]
  split
  · have hread := b.readAlike_read (Nat.le_refl Wire.defaultMaxDepth) (Nat.le_refl _)
    exact .ofWhole ((same_fillBy hread decl.decoder halike.tag.get? halike.inside
      hlevels).then_pure some)
  · exact .give _

/-- A result replaces the builder. -/
theorem responseChild_result {f : Front} (decl : OutputDecl) {result : String}
    (hmatch : f.place.tag.matchesPattern result = true) (builder : Option Builder) :
    (b.responseChild decl result builder f.element f.document).answer =
      some <$> (b.fillBy b.readElement decl.decoder f.element f.document).answer := by
  have hstep : b.responseChild decl result builder f.element =
      b.fillBy b.readElement decl.decoder f.element >>= fun builder ↦ pure (some builder) := by
    unfold responseChild
    rw [f.fresh.start, if_pos hmatch]
  rw [hstep, (Reading.bind_answer _ _ _).1]
  cases (b.fillBy b.readElement decl.decoder f.element f.document).answer <;> rfl

/-- Other children leave the builder as it is. -/
theorem responseChild_other {f : Front} (decl : OutputDecl) {result : String}
    (hmatch : f.place.tag.matchesPattern result = false) (builder : Option Builder) :
    (b.responseChild decl result builder f.element f.document).answer = .ok builder := by
  have hstep : b.responseChild decl result builder f.element = pure builder := by
    unfold responseChild
    rw [f.fresh.start, if_neg (by simp [hmatch])]
  rw [hstep]
  rfl

/-- If a response has one result, what it is filled with is what the result is filled with. -/
theorem response_answer {f : Front} (hlevels : f.place.inside.depth ≤ Wire.defaultMaxDepth)
    (decl : OutputDecl) {result : String} {x : StartTag × Content}
    {before after : List (StartTag × Content)}
    (helements : f.place.inside.elements = before ++ x :: after)
    (hresult : x.1.matchesPattern result = true)
    (hothers : ∀ y ∈ before ++ after, y.1.matchesPattern result = false) :
    ∃ g : Front, g.place.tag = x.1 ∧ g.place.inside = x.2 ∧
      (f.element.foldChildren (b.responseChild decl result) none f.document).answer =
        some <$> (b.fillBy b.readElement decl.decoder g.element g.document).answer := by
  have hleaves (inner : Place) (hinner : .element inner ∈ f.place.nodes) :
      f.element.Leaves (b.responseChild decl result) inner f.document :=
    f.leaves hinner fun builder ↦ same_responseChild decl result builder (.refl _)
      (Nat.le_trans (Nat.le_of_lt (Content.depth_lt_of_mem_nodes hinner)) hlevels)
  rw [← f.place.children_map] at helements
  obtain ⟨placesBefore, later, hplaces, rfl, hlater⟩ := List.map_eq_append_iff.mp helements
  obtain ⟨inner, placesAfter, rfl, rfl, rfl⟩ := List.map_eq_cons_iff.mp hlater
  have hchild (other : Place) (hmem : other ∈ placesBefore ++ inner :: placesAfter) :
      .element other ∈ f.place.nodes :=
    Place.mem_children.mp (hplaces ▸ hmem)
  have hother (other : Place) (hmem : other ∈ placesBefore ++ placesAfter)
      (builder : Option Builder) :
      f.element.onChild (b.responseChild decl result) f.document builder other = .ok builder := by
    have hmatch : other.tag.matchesPattern result = false :=
      hothers (other.tag, other.inside) (by
        rw [← List.map_append]
        exact List.mem_map_of_mem hmem)
    have hnode := hchild other (by rcases List.mem_append.mp hmem with h | h <;> simp [h])
    exact responseChild_other (f := f.child hnode) decl hmatch builder
  have hinner := hchild inner (by simp)
  have hstep : f.element.onChild (b.responseChild decl result) f.document none inner = some <$>
      (b.fillBy b.readElement decl.decoder (f.child hinner).element
        (f.child hinner).document).answer :=
    responseChild_result (f := f.child hinner) decl hresult none
  refine ⟨f.child hinner, rfl, rfl, ?_⟩
  calc (f.element.foldChildren (b.responseChild decl result) none f.document).answer
      = (placesBefore ++ inner :: placesAfter).foldlM
          (f.element.onChild (b.responseChild decl result) f.document) none := by
        rw [(f.fresh.foldChildren_eq hleaves none).1, hplaces]
    _ = (inner :: placesAfter).foldlM
          (f.element.onChild (b.responseChild decl result) f.document) none := by
        rw [List.foldlM_append, Failing.foldlM_same fun other hmem ↦
          hother other (List.mem_append_left _ hmem)]
        rfl
    _ = some <$> (b.fillBy b.readElement decl.decoder (f.child hinner).element
          (f.child hinner).document).answer := by
        rw [List.foldlM_cons, hstep]
        cases (b.fillBy b.readElement decl.decoder (f.child hinner).element
          (f.child hinner).document).answer with
        | error error => rfl
        | ok builder =>
          exact Failing.foldlM_same fun other hmem ↦
            hother other (List.mem_append_right _ hmem)

/-! ## Entry points of two protocols -/

/-- An element of the name that is expected is read on. -/
theorem expect_answer {α : Type} {e : Element} {pattern : String}
    (hmatch : e.start.matchesPattern pattern = true) (reading : Reading α) (d : Document) :
    ((Reading.give (e.expect pattern) >>= fun _ ↦ reading) d).answer = (reading d).answer := by
  rw [(Reading.bind_answer _ _ _).1, Element.expect, if_pos hmatch]
  rfl

/-- The root element of a document, in front of its content. -/
def rootFront {cs : List Char} {written : Xml.Written} {root : Place}
    (hrooted : Rooted cs written root) : Front where
  element := .opened root.tag 1
  place := root
  document := ⟨root.pieces, (Xml.Stream.ofChars cs).fault, 1, Wire.defaultMaxDepth⟩
  fresh := hrooted.fresh _

variable {bytes bytes' : List UInt8} {cs cs' : List Char} {written written' : Xml.Written}
  {root root' : Place}

theorem parseOutput_bare (hbytes : Text.Utf8.decode bytes = .ok cs)
    (hrooted : Rooted cs written root) {decl : OutputDecl} {pattern : String}
    (hplace : decl.place = .root pattern) (hroot : root.tag.matchesPattern pattern = true) :
    b.parseOutput decl bytes =
      (b.fillBy (b.read 127) decl.decoder (rootFront hrooted).element
        (rootFront hrooted).document).answer >>= b.build decl.type := by
  unfold parseOutput
  rw [hrooted.decodeRoot_eq hbytes, hplace]
  exact (expect_answer (e := (rootFront hrooted).element) hroot _ _).trans
    (Reading.bind_give _ _ _)

theorem parseOutput_wrapped (hbytes : Text.Utf8.decode bytes = .ok cs)
    (hrooted : Rooted cs written root) {decl : OutputDecl} {response result : String}
    (hplace : decl.place = .result response result)
    (hroot : root.tag.matchesPattern response = true) {x : StartTag × Content}
    {before after : List (StartTag × Content)}
    (helements : root.inside.elements = before ++ x :: after)
    (hresult : x.1.matchesPattern result = true)
    (hothers : ∀ y ∈ before ++ after, y.1.matchesPattern result = false) :
    ∃ g : Front, g.place.tag = x.1 ∧ g.place.inside = x.2 ∧
      b.parseOutput decl bytes =
        (b.fillBy b.readElement decl.decoder g.element g.document).answer >>=
          b.build decl.type := by
  obtain ⟨g, htag, hinside, hanswer⟩ := b.response_answer (f := rootFront hrooted)
    (Nat.le_of_lt hrooted.room) decl helements hresult hothers
  refine ⟨g, htag, hinside, ?_⟩
  unfold parseOutput
  rw [hrooted.decodeRoot_eq hbytes, hplace]
  refine (expect_answer (e := (rootFront hrooted).element) hroot _ _).trans ?_
  refine (Reading.bind_answer ((rootFront hrooted).element.foldChildren
    (b.responseChild decl result) none) _ (rootFront hrooted).document).1.trans ?_
  rw [hanswer]
  cases (b.fillBy b.readElement decl.decoder g.element g.document).answer <;> rfl

/-- A bare output and the result of a response with the same attributes and the same content are
decoded to equal values or to equal errors. -/
theorem parseOutput_agree (htypes : b.types = b'.types) (hdecoders : b.decoders = b'.decoders)
    {bare wrapped : OutputDecl} {pattern response result : String}
    (hbare : bare.place = .root pattern) (hwrapped : wrapped.place = .result response result)
    (hdecoder : bare.decoder = wrapped.decoder) (htype : bare.type = wrapped.type)
    (hbytes : Text.Utf8.decode bytes = .ok cs) (hrooted : Rooted cs written root)
    (hbytes' : Text.Utf8.decode bytes' = .ok cs') (hrooted' : Rooted cs' written' root')
    (hroot : root.tag.matchesPattern pattern = true)
    (hroot' : root'.tag.matchesPattern response = true) {x : StartTag × Content}
    {before after : List (StartTag × Content)}
    (helements : root'.inside.elements = before ++ x :: after)
    (hresult : x.1.matchesPattern result = true)
    (hothers : ∀ y ∈ before ++ after, y.1.matchesPattern result = false)
    (hattributes : ∀ pattern, root.tag.get? pattern = x.1.get? pattern)
    (hinside : root.inside.Alike x.2) :
    b.parseOutput bare bytes = b'.parseOutput wrapped bytes' := by
  obtain ⟨g, htag, hcontent, hanswer⟩ := b'.parseOutput_wrapped hbytes' hrooted' hwrapped hroot'
    helements hresult hothers
  have hread : ReadAlike 127 (b'.read 127) b'.readElement :=
    b'.readAlike_read (Nat.le_refl _) (by decide)
  have hget : ∀ pattern, (rootFront hrooted).place.tag.get? pattern = g.place.tag.get? pattern := by
    rw [htag]
    exact hattributes
  have halike : (rootFront hrooted).place.inside.Alike g.place.inside := by
    rw [hcontent]
    exact hinside
  have hsame := same_fillBy (b := b') hread wrapped.decoder hget halike
    (Nat.le_of_lt_succ hrooted.room)
  rw [parseOutput_bare hbytes hrooted hbare hroot, hanswer, read_congr htypes hdecoders,
    fillBy_congr htypes hdecoders, hdecoder, htype, hsame.answer]
  unfold build structDecl?
  rw [htypes]

/-- The entry point for the output of the first operation is found by its name. -/
theorem call?_of_output {function : String} {op : OperationDecl} {later : List OperationDecl}
    {decl : OutputDecl} (hop : b.operations = op :: later) (hdecl : op.output = some decl)
    (hident : decl.ident.toText = function) (hinput : ∀ d ∈ op.input, d.ident.toText ≠ function) :
    b.call? function = some fun bytes ↦ .value <$> b.parseOutput decl bytes := by
  have hnone : op.input.filter (fun d ↦ d.ident.toText = function) = none := by
    cases hin : op.input with
    | none => rfl
    | some d => simp [Option.filter, hinput d hin]
  have hcall : b.operationCall? function op =
      some fun bytes ↦ .value <$> b.parseOutput decl bytes := by
    rw [operationCall?, hnone, hdecl]
    simp [Option.filter, hident]
  simp [call?, hop, hcall]

end Bindings

/-! ## The flavors of the showcase -/

namespace Wire

/-- The bytes of a document with this root element, of which nothing is at fault and which nests no
deeper than documents usually may. -/
def Holds (bytes : List UInt8) (root : Place) : Prop :=
  ∃ cs written, Text.Utf8.decode bytes = .ok cs ∧ Rooted cs written root

/-- Inside an element stands, as the only child of its name, a copy of another element under that
name: with the same attributes and the same content. -/
def Place.Wraps (response place : Place) (result : String) : Prop :=
  ∃ (tag : StartTag) (before after : List (StartTag × Content)),
    response.inside.elements = before ++ (tag, place.inside) :: after ∧
    tag.matchesPattern result = true ∧ tag.attributes = place.tag.attributes ∧
    ∀ sibling ∈ before ++ after, sibling.1.matchesPattern result = false

end Wire

namespace Samples

open Bindings
open Wire (Place)

/-- The entry point for the output of `GetTop`. -/
def getTopOutput (place : OutputPlace) : OutputDecl where
  ident := Code.functionIdent "parse_" "GetTop" "_output"
  type := Code.camelIdent "Top"
  decoder := decoderIdent "Top"
  place := place

theorem getTopOutput_ident (place : OutputPlace) :
    (getTopOutput place).ident.toText = "parse_get_top_output" := by
  have htext : (Code.functionIdent "parse_" "GetTop" "_output").toText =
      "parse_get_top_output" := by
    decide +kernel
  rw [getTopOutput, htext]

/-- The output of the first operation, where it is declared for a place. -/
def DeclaresOutput (b : Bindings) (place : OutputPlace) : Prop :=
  ∃ op ∈ b.operations.head?, op.output = some (getTopOutput place) ∧
    ∀ d ∈ op.input, d.ident.toText ≠ "parse_get_top_output"

instance (b : Bindings) (place : OutputPlace) : Decidable (DeclaresOutput b place) := by
  unfold DeclaresOutput
  infer_instance

theorem DeclaresOutput.call? {b : Bindings} {place : OutputPlace} (h : DeclaresOutput b place) :
    b.call? "parse_get_top_output" =
      some fun bytes ↦ .value <$> b.parseOutput (getTopOutput place) bytes := by
  obtain ⟨op, hop, houtput, hinput⟩ := h
  obtain ⟨later, hlater⟩ := List.head?_eq_some_iff.mp hop
  exact call?_of_output hlater houtput (getTopOutput_ident place) hinput

/-- The showcase has the same types and decoders under both protocols. -/
theorem exists_flavors : ∃ b b', rest = .ok b ∧ query = .ok b' ∧ b.types = b'.types ∧
    b.decoders = b'.decoders ∧ DeclaresOutput b (.root "Top") ∧
    DeclaresOutput b' (.result "GetTopResponse" "GetTopResult") := by
  let flavor (defaults : Defaults) : Option Bindings :=
    (Showcase.model.breakCycles.resolved defaults >>= fun ctx ↦
      ctx.declarationsFor Showcase.reached).toOption
  let agree (b b' : Bindings) : Bool :=
    b.types = b'.types ∧ b.decoders = b'.decoders ∧ DeclaresOutput b (.root "Top") ∧
      DeclaresOutput b' (.result "GetTopResponse" "GetTopResult")
  have hagree : ((flavor { errorWrapping := false }).any fun b ↦
      (flavor { envelope := .wrapped }).any (agree b)) = true := by
    decide +kernel
  obtain ⟨b, hb, hboth⟩ := Showcase.exists_bindings { errorWrapping := false } _ hagree
  obtain ⟨b', hb', haccept⟩ := Showcase.exists_bindings { envelope := .wrapped } _ hboth
  exact ⟨b, b', hb, hb', of_decide_eq_true haccept⟩

/-- The functions that the two protocols declare for the output of `GetTop` agree: whatever the
attributes and the content of `Top`, the wrapped function gives the same value for them, or the same
error, however they are placed among other elements of the response. -/
theorem flavors_agree : ∃ b b' f f', rest = .ok b ∧ query = .ok b' ∧
    b.call? "parse_get_top_output" = some f ∧ b'.call? "parse_get_top_output" = some f' ∧
    ∀ (bytes bytes' : List UInt8) (top response : Place),
      Wire.Holds bytes top → top.tag.matchesPattern "Top" = true →
      Wire.Holds bytes' response → response.tag.matchesPattern "GetTopResponse" = true →
      response.Wraps top "GetTopResult" → f bytes = f' bytes' := by
  obtain ⟨b, b', hb, hb', htypes, hdecoders, hbare, hwrapped⟩ := exists_flavors
  refine ⟨b, b', _, _, hb, hb', hbare.call?, hwrapped.call?, ?_⟩
  rintro bytes bytes' top response ⟨cs, written, hbytes, hrooted⟩ htop
    ⟨cs', written', hbytes', hrooted'⟩ hresponse
    ⟨tag, before, after, helements, hresult, hattributes, hothers⟩
  have hget (pattern : String) : top.tag.get? pattern = tag.get? pattern := by
    unfold Wire.StartTag.get?
    rw [hattributes]
  exact congrArg _ (parseOutput_agree htypes hdecoders rfl rfl rfl rfl hbytes hrooted hbytes'
    hrooted' htop hresponse helements hresult hothers hget (.refl _))

section Number

/-- A choice that holds a number. -/
def numberChoice : Wire.Content :=
  .element ⟨⟨none, "choice"⟩, []⟩
    (.element ⟨⟨none, "number"⟩, []⟩ (.text "13" .empty) .empty) .empty

def writtenChoice : Xml.Content :=
  .element ⟨"choice".toList, []⟩
    (.element ⟨"number".toList, []⟩ (.text "13".toList .empty) .empty) .empty

/-- A `Top` that holds the number, as a document. -/
def bareTop : List Char :=
  "<Top id=\"t\"><choice><number>13</number></choice></Top>".toList

def topPlace : Place :=
  ⟨⟨⟨none, "Top"⟩, [⟨⟨none, "id"⟩, "t"⟩]⟩, numberChoice, []⟩

theorem holds_bareTop : Wire.Holds (Xml.utf8Bytes bareTop) topPlace :=
  ⟨bareTop, ⟨[], ⟨"Top".toList, " id=\"t\"".toList⟩, writtenChoice, []⟩, by decide +kernel,
    ⟨by decide +kernel, by decide +kernel, by decide +kernel⟩⟩

/-- The same `Top` in a response, after a request id and before a second element. -/
def wrappedTop : List Char :=
  ("<GetTopResponse><Id>1</Id><GetTopResult id=\"t\"><choice><number>13</number></choice>" ++
    "</GetTopResult><Top id=\"u\"/></GetTopResponse>").toList

def responsePlace : Place where
  tag := ⟨⟨none, "GetTopResponse"⟩, []⟩
  inside := .element ⟨⟨none, "Id"⟩, []⟩ (.text "1" .empty)
    (.element ⟨⟨none, "GetTopResult"⟩, [⟨⟨none, "id"⟩, "t"⟩]⟩ numberChoice
      (.element ⟨⟨none, "Top"⟩, [⟨⟨none, "id"⟩, "u"⟩]⟩ .empty .empty))
  after := []

theorem holds_wrappedTop : Wire.Holds (Xml.utf8Bytes wrappedTop) responsePlace :=
  ⟨wrappedTop, ⟨[], ⟨"GetTopResponse".toList, []⟩,
    .element ⟨"Id".toList, []⟩ (.text "1".toList .empty)
      (.element ⟨"GetTopResult".toList, " id=\"t\"".toList⟩ writtenChoice
        (.element ⟨"Top".toList, " id=\"u\"".toList⟩ .empty .empty)), []⟩, by decide +kernel,
    ⟨by decide +kernel, by decide +kernel, by decide +kernel⟩⟩

theorem flavors_agree_on_number : ∃ b b' f f', rest = .ok b ∧ query = .ok b' ∧
    b.call? "parse_get_top_output" = some f ∧ b'.call? "parse_get_top_output" = some f' ∧
    f (Xml.utf8Bytes bareTop) = f' (Xml.utf8Bytes wrappedTop) := by
  obtain ⟨b, b', f, f', hb, hb', hf, hf', hagree⟩ := flavors_agree
  have hwraps : responsePlace.Wraps topPlace "GetTopResult" :=
    ⟨⟨⟨none, "GetTopResult"⟩, [⟨⟨none, "id"⟩, "t"⟩]⟩, [(⟨⟨none, "Id"⟩, []⟩, .text "1" .empty)],
      [(⟨⟨none, "Top"⟩, [⟨⟨none, "id"⟩, "u"⟩]⟩, .empty)], rfl, by decide +kernel, rfl,
      by decide +kernel⟩
  exact ⟨b, b', f, f', hb, hb', hf, hf', hagree _ _ topPlace responsePlace holds_bareTop
    (by decide +kernel) holds_wrappedTop (by decide +kernel) hwraps⟩

end Number

end Samples

end WireShapes
