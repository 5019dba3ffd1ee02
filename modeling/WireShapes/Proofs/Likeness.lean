import WireShapes.Proofs.Readers

/-!
# Elements that decoders cannot tell apart

A decoder sees the name and the attributes of an element and what is inside it.  Where the element
stands, how deep it stands, what surrounds it and how many levels decoders may still go down make no
difference: two elements that are alike are read alike, to equal values or to equal errors
(`Bindings.readAlike_read`).  The induction is on how deep the two elements nest; inside them the
two readings run side by side (`Wire.Front.Same.fold`).
-/

namespace WireShapes

namespace Wire

/-! ## Alike elements -/

/-- Two tags with one name that give the same for every attribute looked up. -/
structure StartTag.Alike (tag tag' : StartTag) : Prop where
  name : tag.name = tag'.name
  get? : ∀ pattern, tag.get? pattern = tag'.get? pattern

namespace StartTag.Alike

variable {tag tag' : StartTag}

theorem refl (tag : StartTag) : tag.Alike tag := ⟨rfl, fun _ ↦ rfl⟩

theorem matchesPattern (h : tag.Alike tag') (pattern : String) :
    tag.matchesPattern pattern = tag'.matchesPattern pattern := by
  unfold StartTag.matchesPattern
  rw [h.name]

end StartTag.Alike

/-- Two contents with the same texts between alike elements. -/
inductive Content.Alike : Content → Content → Prop
  | empty : Content.Alike .empty .empty
  | text (content : String) {rest rest' : Content} :
      rest.Alike rest' → Content.Alike (.text content rest) (.text content rest')
  | element {tag tag' : StartTag} {inside inside' rest rest' : Content} :
      tag.Alike tag' → inside.Alike inside' → rest.Alike rest' →
      Content.Alike (.element tag inside rest) (.element tag' inside' rest')

namespace Content.Alike

variable {content content' : Content}

theorem refl (content : Content) : content.Alike content := by
  induction content with
  | empty => exact .empty
  | text content rest ih => exact .text content ih
  | element tag inside rest ihinside ihrest => exact .element (.refl tag) ihinside ihrest

theorem ownText_eq (h : content.Alike content') : content.ownText = content'.ownText := by
  induction h with
  | empty => rfl
  | text content _ ih => rw [ownText, ownText, ih]
  | element _ _ _ _ ihrest => exact ihrest

end Content.Alike

/-- Alike elements, wherever they stand. -/
structure Place.Alike (place place' : Place) : Prop where
  tag : place.tag.Alike place'.tag
  inside : place.inside.Alike place'.inside

theorem Place.Alike.refl (place : Place) : place.Alike place := ⟨.refl _, .refl _⟩

theorem Content.Alike.children {place place' : Place} (h : place.inside.Alike place'.inside) :
    List.Forall₂ Place.Alike place.children place'.children := by
  have hcontent {content content' : Content} (h : content.Alike content')
      (tail tail' : List Lexeme) :
      List.Forall₂ Place.Alike ((content.nodes tail).filterMap Node.place?)
        ((content'.nodes tail').filterMap Node.place?) := by
    induction h with
    | empty => exact .nil
    | text content _ ih => exact ih
    | element htag hinside _ _ ihrest => exact .cons ⟨htag, hinside⟩ ihrest
  exact hcontent h _ _

/-! ## Two readings side by side -/

/-- An element in front of its content, at its place and with its document. -/
structure Front where
  element : Element
  place : Place
  document : Document
  fresh : element.Fresh place document

namespace Front

/-- The document behind the element. -/
def behind (f : Front) : Document := f.element.behind f.place f.document

/-- A child when it is handed out. -/
def child (f : Front) {inner : Place} (hinner : .element inner ∈ f.place.nodes) : Front where
  element := .opened inner.tag (f.element.depth + 1)
  place := inner
  document := f.element.inChild inner f.document
  fresh := Element.Fresh.child hinner f.fresh.room

/-- An element that is a document of its own. -/
def alone (x : StartTag × Content) : Front where
  element := .opened x.1 1
  place := ⟨x.1, x.2, []⟩
  document := ⟨x.2.lexemes ++ [.close], none, 1, x.2.depth + 1⟩
  fresh := {
    start := rfl
    opened := rfl
    pending := rfl
    depth := rfl
    room := Nat.le_of_eq (Nat.add_comm _ _) }

/-- Two readings of two elements come to the same.  If they succeed, both have read their element to
its end, or, unless they are `whole`, both have read nothing of it. -/
structure Same {α : Type} (f f' : Front) (whole : Bool) (r r' : Reading α) : Prop where
  answer : (r f.document).answer = (r' f'.document).answer
  rest : ∀ a, (r f.document).answer = .ok a →
    ((r f.document).rest = f.behind ∧ (r' f'.document).rest = f'.behind) ∨
    (whole = false ∧ (r f.document).rest = f.document ∧ (r' f'.document).rest = f'.document)

namespace Same

variable {α β : Type} {f f' : Front} {whole : Bool} {r r' : Reading α}

theorem give (answer : Except DecodeError α) :
    f.Same f' false (Reading.give answer) (Reading.give answer) :=
  ⟨rfl, fun _ _ ↦ .inr ⟨rfl, rfl, rfl⟩⟩

theorem fail (error : DecodeError) :
    f.Same f' whole (Reading.fail error : Reading α) (Reading.fail error) :=
  ⟨rfl, fun a ha ↦ by simp [Reading.fail, Reading.give] at ha⟩

theorem ofWhole (h : f.Same f' true r r') : f.Same f' false r r' where
  answer := h.answer
  rest a ha := .inl (by simpa using h.rest a ha)

theorem symm (h : f.Same f' whole r r') : f'.Same f whole r' r where
  answer := h.answer.symm
  rest a ha := (h.rest a (h.answer.trans ha)).imp And.symm (And.imp_right And.symm)

/-- A reading that succeeds has read nothing of its element, or all of it. -/
theorem rest_cases (h : f.Same f' whole r r') {a : α} (ha : (r f.document).answer = .ok a) :
    (r f.document).rest = f.document ∨ (r f.document).rest = f.behind :=
  (h.rest a ha).elim (fun hrest ↦ .inr hrest.1) fun hrest ↦ .inl hrest.2.1

/-- Readings that succeed have read their elements to the end. -/
theorem rest_eq (h : f.Same f' true r r') {a : α} (ha : (r f.document).answer = .ok a) :
    (r f.document).rest = f.behind := by
  have hrest := h.rest a ha
  simp only [Bool.true_eq_false, false_and, or_false] at hrest
  exact hrest.1

/-- A reading means what the other one answers. -/
theorem means (h : f.Same f' true r r') :
    r.Means f.document (r' f'.document).answer.toOption f.behind := by
  refine ⟨congrArg _ h.answer, fun hsome ↦ ?_⟩
  obtain ⟨a, ha⟩ := Option.isSome_iff_exists.mp hsome
  exact h.rest_eq (h.answer.trans (Failing.toOption_eq_some.mp ha))

theorem text (h : f.place.inside.Alike f'.place.inside) :
    f.Same f' true f.element.text f'.element.text := by
  have hfirst : (f.element.text f.document).answer = .ok f.place.inside.ownText :=
    Failing.toOption_eq_some.mp f.fresh.text.1
  have hsecond : (f'.element.text f'.document).answer = .ok f'.place.inside.ownText :=
    Failing.toOption_eq_some.mp f'.fresh.text.1
  constructor
  · rw [hfirst, hsecond, h.ownText_eq]
  · exact fun _ _ ↦ .inl ⟨f.fresh.text.2 rfl, f'.fresh.text.2 rfl⟩

/-- Going on with an answer. -/
theorem then_give (h : f.Same f' whole r r') (answer : α → Except DecodeError β) :
    f.Same f' whole (r >>= fun a ↦ Reading.give (answer a))
      (r' >>= fun a ↦ Reading.give (answer a)) := by
  obtain ⟨hanswer, hrest⟩ := Reading.bind_answer r (fun a ↦ Reading.give (answer a)) f.document
  obtain ⟨hanswer', hrest'⟩ := Reading.bind_answer r' (fun a ↦ Reading.give (answer a)) f'.document
  rw [← h.answer] at hanswer' hrest'
  constructor
  · rw [hanswer, hanswer']
    cases (r f.document).answer <;> rfl
  · intro b hb
    rw [hrest, hrest']
    cases hr : (r f.document).answer with
    | error error => simp [hanswer, hr] at hb
    | ok a => exact h.rest a hr

theorem then_pure (h : f.Same f' whole r r') (g : α → β) :
    f.Same f' whole (r >>= fun a ↦ Pure.pure (g a)) (r' >>= fun a ↦ Pure.pure (g a)) :=
  h.then_give fun a ↦ .ok (g a)

/-- Going on in some other way that only gives an answer. -/
theorem then_answer {next : α → Reading β} (h : f.Same f' whole r r')
    (answer : α → Except DecodeError β) (hnext : ∀ a, next a = Reading.give (answer a)) :
    f.Same f' whole (r >>= next) (r' >>= next) := by
  obtain rfl : next = fun a ↦ Reading.give (answer a) := funext hnext
  exact h.then_give answer

/-- Going on from an answer. -/
theorem after_give {answer : Except DecodeError α} {next next' : α → Reading β}
    (h : ∀ a, answer = .ok a → f.Same f' whole (next a) (next' a)) :
    f.Same f' whole (Reading.give answer >>= next) (Reading.give answer >>= next') := by
  cases answer with
  | error error => exact ⟨rfl, fun a ha ↦ by simp [Reading.bind_answer, Reading.give] at ha⟩
  | ok a => exact h a rfl

/-- Two folds over the children of elements with alike content come to the same if their steps do,
on every two alike children. -/
theorem fold {σ : Type} {step step' : σ → Element → Reading σ}
    (hinside : f.place.inside.Alike f'.place.inside)
    (hsteps : ∀ (g g' : Front) (s : σ), g.place.Alike g'.place →
      g.place.inside.depth < f.place.inside.depth →
      g.Same g' false (step s g.element) (step' s g'.element)) (s : σ) :
    f.Same f' true (f.element.foldChildren step s) (f'.element.foldChildren step' s) := by
  have hchildren := hinside.children
  have hsame {inner inner' : Place} (hinner : .element inner ∈ f.place.nodes)
      (hinner' : .element inner' ∈ f'.place.nodes) (halike : inner.Alike inner') (s : σ) :
      (f.child hinner).Same (f'.child hinner') false
        (step s (f.child hinner).element) (step' s (f'.child hinner').element) :=
    hsteps _ _ s halike (Content.depth_lt_of_mem_nodes hinner)
  have hleaves (inner : Place) (hinner : .element inner ∈ f.place.nodes) :
      f.element.Leaves step inner f.document := by
    intro s t ht
    obtain ⟨inner', hinner', halike⟩ :=
      Failing.exists_of_mem_left hchildren (f.place.mem_children.mpr hinner)
    exact (hsame hinner (f'.place.mem_children.mp hinner') halike s).rest_cases ht
  have hleaves' (inner' : Place) (hinner' : .element inner' ∈ f'.place.nodes) :
      f'.element.Leaves step' inner' f'.document := by
    intro s t ht
    obtain ⟨inner, hinner, halike⟩ :=
      Failing.exists_of_mem_right hchildren (f'.place.mem_children.mpr hinner')
    exact (hsame (f.place.mem_children.mp hinner) hinner' halike s).symm.rest_cases ht
  obtain ⟨hanswer, hrest⟩ := f.fresh.foldChildren_eq hleaves s
  obtain ⟨hanswer', hrest'⟩ := f'.fresh.foldChildren_eq hleaves' s
  have hfold : (f.element.foldChildren step s f.document).answer =
      (f'.element.foldChildren step' s f'.document).answer := by
    rw [hanswer, hanswer']
    refine Failing.foldlM_congr hchildren fun inner hinner inner' hinner' halike s ↦ ?_
    exact (hsame (f.place.mem_children.mp hinner) (f'.place.mem_children.mp hinner')
      halike s).answer
  exact ⟨hfold, fun t ht ↦ .inl ⟨hrest t ht, hrest' t (hfold ▸ ht)⟩⟩

end Same

/-- A step that comes to the same on a child as on itself reads all of the child or nothing. -/
theorem leaves (f : Front) {σ : Type} {step : σ → Element → Reading σ} {inner : Place}
    (hinner : .element inner ∈ f.place.nodes)
    (hsame : ∀ s, (f.child hinner).Same (f.child hinner) false
      (step s (f.child hinner).element) (step s (f.child hinner).element)) :
    f.element.Leaves step inner f.document :=
  fun s _ ht ↦ (hsame s).rest_cases ht

end Front

end Wire

namespace Bindings

open Wire (Front Reading DecodeError StartTag Content)
open Code (Ident)

variable {b : Bindings} {read read' : Reader} {levels : Nat} {f f' : Front}

/-! ## Decoders side by side -/

/-- Two readers come to the same on alike elements that nest less than so deep. -/
def ReadAlike (levels : Nat) (read read' : Reader) : Prop :=
  ∀ (f f' : Front), f.place.Alike f'.place → f.place.inside.depth < levels →
    ∀ source, f.Same f' true (read source f.element) (read' source f'.element)

theorem armFor_alike {α : Type} (pattern : α → String) (arms : List α) {tag tag' : StartTag}
    (h : tag.Alike tag') : armFor pattern arms tag = armFor pattern arms tag' := by
  unfold armFor
  exact congrArg (arms.find? ·) (funext fun arm ↦ h.matchesPattern (pattern arm))

theorem same_entryChild (hread : ReadAlike levels read read') (m : MapDecoder) (parts : EntryParts)
    (halike : f.place.Alike f'.place) (hlevels : f.place.inside.depth < levels) :
    f.Same f' false (b.entryChild read m parts f.element)
      (b.entryChild read' m parts f'.element) := by
  have hpart : m.part? f.place.tag = m.part? f'.place.tag := by
    unfold MapDecoder.part?
    rw [halike.tag.matchesPattern, halike.tag.matchesPattern]
  unfold entryChild
  rw [f.fresh.start, f'.fresh.start, hpart]
  cases m.part? f'.place.tag with
  | none => exact .give _
  | some part =>
    cases part with
    | key =>
      refine .ofWhole ((Front.Same.text halike.inside).then_answer
        (fun text ↦ (fun key ↦ (some key, parts.2)) <$> b.datum m.key.source text) fun text ↦ ?_)
      cases b.datum m.key.source text <;> rfl
    | value => exact .ofWhole ((hread f f' halike hlevels m.value.source).then_pure _)

/-- The parts of an entry do not depend on the name of its element. -/
theorem same_entryParts (hread : ReadAlike levels read read') (m : MapDecoder)
    (hinside : f.place.inside.Alike f'.place.inside) (hlevels : f.place.inside.depth ≤ levels) :
    f.Same f' true (f.element.foldChildren (b.entryChild read m) (none, none))
      (f'.element.foldChildren (b.entryChild read' m) (none, none)) :=
  .fold hinside (fun _ _ parts hchild hdepth ↦
    same_entryChild hread m parts hchild (by omega)) (none, none)

theorem same_readEntry (hread : ReadAlike levels read read') (m : MapDecoder)
    (halike : f.place.Alike f'.place) (hlevels : f.place.inside.depth ≤ levels) :
    f.Same f' true (b.readEntry read m f.element) (b.readEntry read' m f'.element) := by
  have hentry : entryOf m f.element = entryOf m f'.element := by
    funext parts
    have hname : f.element.name = f'.element.name := by
      unfold Wire.Element.name
      rw [f.fresh.start, f'.fresh.start, halike.tag.name]
    rcases parts with ⟨- | key, - | value⟩ <;> simp [entryOf, hname]
  unfold readEntry
  rw [hentry]
  exact (same_entryParts hread m halike.inside hlevels).then_give (entryOf m f'.element)

theorem same_readEntryBy (hread : ReadAlike levels read read') (entry : Ident)
    (halike : f.place.Alike f'.place) (hlevels : f.place.inside.depth ≤ levels) :
    f.Same f' true (b.readEntryBy read entry f.element) (b.readEntryBy read' entry f'.element) :=
  .after_give fun m _ ↦ same_readEntry hread m halike hlevels

theorem same_structChild (hread : ReadAlike levels read read') (m : StructDecoder)
    (builder : Builder) (halike : f.place.Alike f'.place)
    (hlevels : f.place.inside.depth < levels) :
    f.Same f' false (b.structChild read m builder f.element)
      (b.structChild read' m builder f'.element) := by
  unfold structChild
  rw [f.fresh.start, f'.fresh.start, armFor_alike _ _ halike.tag]
  cases armFor StructArm.pattern m.arms f'.place.tag with
  | none => exact .give _
  | some arm =>
    obtain ⟨pattern, member, action⟩ := arm
    cases action with
    | set setter value => exact .ofWhole ((hread f f' halike hlevels value.source).then_pure _)
    | push method item => exact .ofWhole ((hread f f' halike hlevels item.source).then_pure _)
    | insert method entry =>
      exact .ofWhole ((same_readEntryBy hread entry halike (Nat.le_of_lt hlevels)).then_pure
        fun x ↦ builder.insert member x.1 x.2)

/-- The members of a structure do not depend on the name of its element. -/
theorem same_fill (hread : ReadAlike levels read read') (m : StructDecoder) (builder : Builder)
    (hattributes : ∀ pattern, f.place.tag.get? pattern = f'.place.tag.get? pattern)
    (hinside : f.place.inside.Alike f'.place.inside) (hlevels : f.place.inside.depth ≤ levels) :
    f.Same f' true (b.fill read m builder f.element) (b.fill read' m builder f'.element) := by
  unfold fill
  rw [f.fresh.start, f'.fresh.start, readAttributes_congr fun arm _ ↦ hattributes arm.pattern]
  exact .after_give fun builder _ ↦ .fold hinside (fun g g' builder hchild hdepth ↦
    same_structChild hread m builder hchild (by omega)) builder

theorem same_fillBy (hread : ReadAlike levels read read') (decoder : Ident)
    (hattributes : ∀ pattern, f.place.tag.get? pattern = f'.place.tag.get? pattern)
    (hinside : f.place.inside.Alike f'.place.inside) (hlevels : f.place.inside.depth ≤ levels) :
    f.Same f' true (b.fillBy read decoder f.element) (b.fillBy read' decoder f'.element) := by
  unfold fillBy
  split
  · exact same_fill hread _ .empty hattributes hinside hlevels
  · exact .fail _

theorem same_unionChild (hread : ReadAlike levels read read') (m : UnionDecoder) (held : Held)
    (halike : f.place.Alike f'.place) (hlevels : f.place.inside.depth < levels) :
    f.Same f' false (b.unionChild read m held f.element)
      (b.unionChild read' m held f'.element) := by
  unfold unionChild
  rw [f.fresh.start, f'.fresh.start, armFor_alike _ _ halike.tag]
  cases armFor UnionArm.pattern m.arms f'.place.tag with
  | none => exact .give _
  | some arm =>
    obtain ⟨pattern, member, variant, action⟩ := arm
    cases action with
    | set value => exact .ofWhole ((hread f f' halike hlevels value.source).then_pure _)
    | push item => exact .ofWhole ((hread f f' halike hlevels item.source).then_pure _)
    | insert entry =>
      exact .ofWhole ((same_readEntryBy hread entry halike (Nat.le_of_lt hlevels)).then_pure
        fun x ↦ some (member, Value.map (Value.putEntry
          (((heldOf held member).map Value.entries).getD []) x.1 x.2)))

theorem same_readShape (hread : ReadAlike levels read read') (decoder : Ident)
    (hinside : f.place.inside.Alike f'.place.inside) (hlevels : f.place.inside.depth ≤ levels) :
    f.Same f' true (b.readShape read decoder f.element) (b.readShape read' decoder f'.element) := by
  unfold readShape
  split
  · rename_i m _
    exact (Front.Same.fold hinside (fun g g' held hchild hdepth ↦
      same_unionChild hread m held hchild (by omega)) none).then_pure unionValue
  · rename_i m _
    refine (Front.Same.fold hinside
      (fun g g' items hchild hdepth ↦ ?_) []).then_pure Value.list
    rw [g.fresh.start, g'.fresh.start, hchild.tag.matchesPattern]
    split
    · exact .ofWhole ((hread g g' hchild (by omega) m.item.source).then_pure _)
    · exact .give _
  · rename_i m _
    refine (Front.Same.fold hinside
      (fun g g' entries hchild hdepth ↦ ?_) []).then_pure Value.map
    rw [g.fresh.start, g'.fresh.start, hchild.tag.matchesPattern]
    split
    · exact .ofWhole ((same_readEntryBy hread m.entryIdent hchild (by omega)).then_pure
        fun x ↦ Value.putEntry entries x.1 x.2)
    · exact .give _
  · exact .fail _

/-- One level of a decoder does not depend on the name of its element. -/
theorem same_level (hread : ReadAlike levels read read')
    (hattributes : ∀ pattern, f.place.tag.get? pattern = f'.place.tag.get? pattern)
    (hinside : f.place.inside.Alike f'.place.inside) (hlevels : f.place.inside.depth ≤ levels)
    (source : Source) :
    f.Same f' true (b.level read source f.element) (b.level read' source f'.element) := by
  cases source with
  | text source =>
    exact (Front.Same.text hinside).then_give fun text ↦ Value.datum <$> b.datum source text
  | struct decoder type =>
    exact (same_fillBy hread decoder hattributes hinside hlevels).then_give (b.build type)
  | shape decoder => exact same_readShape hread decoder hinside hlevels

theorem readAlike_level (hread : ReadAlike levels read read') :
    ReadAlike (levels + 1) (b.level read) (b.level read') :=
  fun _ _ halike hlevels source ↦
    same_level hread halike.tag.get? halike.inside (Nat.le_of_lt_succ hlevels) source

/-- Decoders read alike elements alike, as long as they have enough levels to go down. -/
theorem readAlike_read (b : Bindings) {n levels levels' : Nat} (hn : n ≤ levels)
    (hn' : n ≤ levels') : ReadAlike n (b.read levels) (b.read levels') := by
  induction n generalizing levels levels' with
  | zero => exact fun _ _ _ h ↦ absurd h (Nat.not_lt_zero _)
  | succ n ih =>
    obtain ⟨below, rfl⟩ := Nat.exists_eq_add_of_le' hn
    obtain ⟨below', rfl⟩ := Nat.exists_eq_add_of_le' hn'
    rw [← Nat.add_assoc, ← Nat.add_assoc, read_succ, read_succ]
    exact readAlike_level (ih (Nat.le_add_left _ _) (Nat.le_add_left _ _))

end Bindings

end WireShapes
