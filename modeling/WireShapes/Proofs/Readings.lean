import WireShapes.Proofs.Gathering
import WireShapes.Proofs.Scope

/-!
# Readings and what they leave

`Reading.Means` says of a reading of a document what it answers, errors apart, and what it leaves
when it succeeds.  A fold over the children of an element means the fold over their meanings, as
long as each step reads all of its child or nothing of it (`Element.Fresh.foldChildren`); the
induction is on the content of the element.
-/

namespace WireShapes

namespace Wire

/-! ## Answers and rests -/

/-- A reading answers a value, or fails if there is none, and leaves a document if it succeeds. -/
def Reading.Means {α : Type} (reading : Reading α) (d : Document) (answer : Option α)
    (rest : Document) : Prop :=
  (reading d).answer.toOption = answer ∧ (answer.isSome → (reading d).rest = rest)

namespace Reading.Means

variable {α β : Type} {d d₁ d₂ : Document} {reading : Reading α} {next : α → Reading β}
  {first : Option α} {second : α → Option β}

theorem give (answer : Except DecodeError α) (d : Document) :
    (Reading.give answer).Means d answer.toOption d :=
  ⟨rfl, fun _ ↦ rfl⟩

theorem pure (a : α) (d : Document) : (Pure.pure a : Reading α).Means d (some a) d :=
  ⟨rfl, fun _ ↦ rfl⟩

theorem fail (error : DecodeError) (d rest : Document) :
    (Reading.fail error : Reading α).Means d none rest :=
  ⟨rfl, fun h ↦ by simp at h⟩

theorem bind (hfirst : reading.Means d first d₁)
    (hsecond : ∀ a, first = some a → (next a).Means d₁ (second a) d₂) :
    (reading >>= next).Means d (first.bind second) d₂ := by
  obtain ⟨hanswer, hrest⟩ := hfirst
  have hrun : (reading >>= next) d = Reading.andThen reading next d := rfl
  unfold Reading.Means
  rw [hrun, Reading.andThen]
  cases hreading : (reading d).answer with
  | error error =>
    obtain rfl : none = first := by rw [← hanswer, hreading]; rfl
    exact ⟨rfl, fun h ↦ by simp at h⟩
  | ok a =>
    obtain rfl : some a = first := by rw [← hanswer, hreading]; rfl
    obtain rfl := hrest rfl
    exact hsecond a rfl

theorem bind_some {a : α} {answer : Option β} (hfirst : reading.Means d (some a) d₁)
    (hsecond : (next a).Means d₁ answer d₂) : (reading >>= next).Means d answer d₂ := by
  have hbind : (reading >>= next).Means d ((some a).bind fun _ ↦ answer) d₂ :=
    hfirst.bind fun a' ha' ↦ Option.some.inj ha' ▸ hsecond
  exact hbind

theorem bind_none (hfirst : reading.Means d none d₁) : (reading >>= next).Means d none d₂ := by
  have hbind : (reading >>= next).Means d ((none : Option α).bind fun _ ↦ none) d₂ :=
    hfirst.bind fun _ ha ↦ by simp at ha
  exact hbind

theorem map {f : α → β} (hfirst : reading.Means d first d₁) :
    (reading >>= fun a ↦ Pure.pure (f a)).Means d (first.map f) d₁ := by
  rw [Option.map_eq_bind]
  exact hfirst.bind fun a _ ↦ pure (f a) d₁

end Reading.Means

/-! ## Elements in front of their content -/

/-- An element of which nothing has been read, and the document inside it. -/
structure Element.Fresh (e : Element) (place : Place) (d : Document) : Prop where
  start : e.start = place.tag
  opened : e.closed = false
  pending : d.pending = place.pieces
  depth : d.depth = e.depth
  room : e.depth + place.inside.depth ≤ d.maxDepth

namespace Element.Fresh

variable {e : Element} {place inner : Place} {d : Document}

theorem stands (h : e.Fresh place d) : e.At place d where
  start := h.start
  room := h.room
  inside _ := by
    rw [h.pending, h.depth]
    exact .start place.inside e.depth (.close :: place.after)
  behind hclosed := by simp [h.opened] at hclosed

theorem textLeft (h : e.Fresh place d) : place.textLeft d.pending = place.inside.ownText := by
  have hleft : place.left d.pending = place.nodes := by
    rw [h.pending]
    exact Content.filter_unread_start (List.suffix_refl _)
  have htext (content : Content) (tail : List Lexeme) :
      String.join ((content.nodes tail).filterMap Node.text?) = content.ownText := by
    induction content with
    | empty => rfl
    | text content rest ih => simp [Content.nodes, Node.text?, Content.ownText, ih]
    | element tag inside rest _ ih =>
      simpa [Content.nodes, List.filterMap_cons, Node.text?, Content.ownText] using ih
  rw [Place.textLeft, hleft]
  exact htext place.inside _

/-- Reading the text of an element. -/
theorem text (h : e.Fresh place d) :
    e.text.Means d (some place.inside.ownText) (e.behind place d) := by
  have hcall := h.stands.takeText
  rw [h.textLeft] at hcall
  constructor
  · show (e.takeText d).answer.toOption = _
    rw [hcall]
    rfl
  · intro _
    show (e.takeText d).document = _
    rw [hcall]

/-- A child is in front of its content when it is handed out. -/
theorem child (hinner : .element inner ∈ place.nodes)
    (hroom : e.depth + place.inside.depth ≤ d.maxDepth) :
    (Element.opened inner.tag (e.depth + 1)).Fresh inner (e.inChild inner d) where
  start := rfl
  opened := rfl
  pending := rfl
  depth := rfl
  room := by
    have hdepth := Content.depth_lt_of_mem_nodes hinner
    show e.depth + 1 + inner.inside.depth ≤ d.maxDepth
    omega

end Element.Fresh

/-! ## Folds over children -/

/-- The elements directly inside, in order. -/
def Place.children (place : Place) : List Place :=
  place.nodes.filterMap Node.place?

theorem Place.mem_children {place inner : Place} :
    inner ∈ place.children ↔ .element inner ∈ place.nodes := by
  unfold children
  rw [List.mem_filterMap]
  constructor
  · rintro ⟨node, hnode, hplace⟩
    cases node with
    | text content after => simp [Node.place?] at hplace
    | element child =>
      obtain rfl : child = inner := Option.some.inj hplace
      exact hnode
  · exact fun hinner ↦ ⟨_, hinner, rfl⟩

theorem Place.children_map (place : Place) :
    place.children.map (fun child ↦ (child.tag, child.inside)) = place.inside.elements := by
  have hcontent (content : Content) (tail : List Lexeme) :
      ((content.nodes tail).filterMap Node.place?).map (fun child ↦ (child.tag, child.inside)) =
        content.elements := by
    induction content with
    | empty => rfl
    | text content rest ih => exact ih
    | element tag inside rest _ ih =>
      simpa [Content.nodes, Node.place?, Content.elements, List.filterMap_cons] using ih
  exact hcontent place.inside _

namespace Element

section Steps

variable {σ : Type} {e after child : Element} (step : σ → Element → Reading σ) (s : σ)
  {d d' : Document} {error : DecodeError}

theorem foldChildren_of_opens {t : σ} (hnext : e.nextChild d = ⟨.ok (some child), after, d'⟩)
    (hstep : (step s child d').answer = .ok t) :
    (e.foldChildren step s d).answer =
        (after.foldChildren step t (step s child d').rest).answer ∧
      (e.foldChildren step s d).rest =
        (after.foldChildren step t (step s child d').rest).rest := by
  have hanswer : (e.nextChild d).answer = .ok (some child) := by rw [hnext]
  obtain rfl : (e.nextChild d).element = after := by rw [hnext]
  obtain rfl : (e.nextChild d).document = d' := by rw [hnext]
  clear hnext
  rw [foldChildren]
  split
  · simp_all
  · simp_all
  · rename_i other hother
    obtain rfl : child = other := by simpa [hanswer] using hother
    dsimp only
    split <;> simp_all

theorem foldChildren_of_step_fails (hnext : e.nextChild d = ⟨.ok (some child), after, d'⟩)
    (hstep : (step s child d').answer = .error error) :
    (e.foldChildren step s d).answer = .error error ∧
      (e.foldChildren step s d).rest = (step s child d').rest := by
  have hanswer : (e.nextChild d).answer = .ok (some child) := by rw [hnext]
  obtain rfl : (e.nextChild d).document = d' := by rw [hnext]
  clear hnext
  rw [foldChildren]
  split
  · simp_all
  · simp_all
  · rename_i other hother
    obtain rfl : child = other := by simpa [hanswer] using hother
    dsimp only
    split <;> simp_all

theorem foldChildren_of_closes (hnext : e.nextChild d = ⟨.ok none, after, d'⟩) :
    (e.foldChildren step s d).answer = .ok s ∧ (e.foldChildren step s d).rest = d' := by
  have hanswer : (e.nextChild d).answer = .ok none := by rw [hnext]
  obtain rfl : (e.nextChild d).document = d' := by rw [hnext]
  clear hnext
  rw [foldChildren]
  split <;> simp_all

theorem foldChildren_of_fails (hnext : e.nextChild d = ⟨.error error, after, d'⟩) :
    (e.foldChildren step s d).answer = .error error ∧ (e.foldChildren step s d).rest = d' := by
  have hanswer : (e.nextChild d).answer = .error error := by rw [hnext]
  obtain rfl : (e.nextChild d).document = d' := by rw [hnext]
  clear hnext
  rw [foldChildren]
  split <;> simp_all

end Steps

variable {σ : Type} {e : Element} {step : σ → Element → Reading σ} {s : σ} {d : Document}

/-- The document in front of a content at the end of an element. -/
def inFront (e : Element) (content : Content) (place : Place) (d : Document) : Document :=
  ⟨content.lexemes ++ .close :: place.after, d.fault, e.depth, d.maxDepth⟩

theorem Fresh.eq_inFront {place : Place} (h : e.Fresh place d) :
    d = e.inFront place.inside place d := by
  obtain ⟨pending, fault, depth, maxDepth⟩ := d
  obtain rfl : pending = place.pieces := h.pending
  obtain rfl : depth = e.depth := h.depth
  rfl

/-- The document behind a child of an element. -/
def behindChild (e : Element) (inner : Place) (d : Document) : Document :=
  ⟨inner.after, d.fault, e.depth, d.maxDepth⟩

theorem nextChild_inFront {content : Content} {place : Place} (hopen : e.closed = false)
    (hroom : e.depth + content.depth ≤ d.maxDepth) :
    e.nextChild (e.inFront content place d) =
      match (content.nodes (.close :: place.after)).findSome? Node.place? with
      | some child => ⟨.ok (some (.opened child.tag (e.depth + 1))), e, e.inChild child d⟩
      | none => ⟨.ok none, e.close, e.behind place d⟩ := by
  unfold nextChild
  rw [hopen, if_neg (by simp)]
  exact e.seekChild_content d.fault d.maxDepth content place.after hroom

/-- A child that was handed out is passed over. -/
theorem nextChild_inChild {tag : StartTag} {inside rest : Content} {place : Place}
    (hopen : e.closed = false) (hroom : e.depth + (inside.depth + 1) ≤ d.maxDepth) :
    e.nextChild (e.inChild ⟨tag, inside, rest.lexemes ++ .close :: place.after⟩ d) =
      e.nextChild (e.inFront rest place d) := by
  have hinside : e.Passes d.fault d.maxDepth (e.depth + 1)
      (inside.lexemes ++ .close :: (rest.lexemes ++ .close :: place.after)) (e.depth + 1)
      (.close :: (rest.lexemes ++ .close :: place.after)) :=
    passes_content (Nat.lt_succ_self _) (by omega)
  have hpasses := hinside.trans (passes_close (Nat.le_refl _))
  unfold nextChild
  rw [hopen, if_neg (by simp), if_neg (by simp)]
  exact hpasses.1

/-- What a step answers when a child is handed to it. -/
def onChild (e : Element) (step : σ → Element → Reading σ) (d : Document) (s : σ) (inner : Place) :
    Except DecodeError σ :=
  (step s (.opened inner.tag (e.depth + 1)) (e.inChild inner d)).answer

/-- If a step succeeds, it has read all of a child or nothing of it. -/
def Leaves (e : Element) (step : σ → Element → Reading σ) (inner : Place) (d : Document) : Prop :=
  ∀ s t, e.onChild step d s inner = .ok t →
    (step s (.opened inner.tag (e.depth + 1)) (e.inChild inner d)).rest = e.inChild inner d ∨
    (step s (.opened inner.tag (e.depth + 1)) (e.inChild inner d)).rest = e.behindChild inner d

/-- A fold over children takes them one by one, in order, until a step fails. -/
theorem foldChildren_content {place : Place} (hopen : e.closed = false) {content : Content}
    (hroom : e.depth + content.depth ≤ d.maxDepth)
    (hleaves : ∀ inner, .element inner ∈ content.nodes (.close :: place.after) →
      e.Leaves step inner d)
    (s : σ) {d' : Document} (hd' : e.nextChild d' = e.nextChild (e.inFront content place d)) :
    (e.foldChildren step s d').answer =
        ((content.nodes (.close :: place.after)).filterMap Node.place?).foldlM
          (e.onChild step d) s ∧
      ∀ t, (e.foldChildren step s d').answer = .ok t →
        (e.foldChildren step s d').rest = e.behind place d := by
  induction content generalizing s d' with
  | empty =>
    rw [nextChild_inFront hopen hroom] at hd'
    obtain ⟨hanswer, hrest⟩ := foldChildren_of_closes step s hd'
    exact ⟨hanswer, fun _ _ ↦ hrest⟩
  | text content rest ih =>
    have hrest : e.depth + rest.depth ≤ d.maxDepth := hroom
    refine ih hrest (fun inner hinner ↦ hleaves inner (List.mem_cons_of_mem _ hinner)) s ?_
    rw [hd', nextChild_inFront hopen hroom, nextChild_inFront hopen hrest]
    rfl
  | element tag inside rest _ ih =>
    simp only [Content.depth] at hroom
    rw [nextChild_inFront hopen (by simpa [Content.depth] using hroom)] at hd'
    have hfold : ((Content.element tag inside rest).nodes (.close :: place.after)).filterMap
        Node.place? = ⟨tag, inside, rest.lexemes ++ .close :: place.after⟩ ::
          (rest.nodes (.close :: place.after)).filterMap Node.place? := rfl
    rw [hfold, List.foldlM_cons]
    cases hstep : e.onChild step d s ⟨tag, inside, rest.lexemes ++ .close :: place.after⟩ with
    | error error =>
      obtain ⟨hanswer, -⟩ := foldChildren_of_step_fails step s hd' hstep
      exact ⟨hanswer, fun t ht ↦ by simp [hanswer] at ht⟩
    | ok t =>
      obtain ⟨hanswer, hrest⟩ := foldChildren_of_opens step s hd' hstep
      rw [hanswer, hrest]
      refine ih (by omega) (fun inner hinner ↦ hleaves inner (List.mem_cons_of_mem _ hinner)) t ?_
      rcases hleaves _ List.mem_cons_self s t hstep with hafter | hafter
      · rw [hafter]
        exact nextChild_inChild hopen (by omega)
      · rw [hafter]
        rfl

/-- A fold over the children of an element of which nothing has been read. -/
theorem Fresh.foldChildren_eq {place : Place} (hfresh : e.Fresh place d)
    (hleaves : ∀ inner, .element inner ∈ place.nodes → e.Leaves step inner d) (s : σ) :
    (e.foldChildren step s d).answer = place.children.foldlM (e.onChild step d) s ∧
      ∀ t, (e.foldChildren step s d).answer = .ok t →
        (e.foldChildren step s d).rest = e.behind place d :=
  foldChildren_content hfresh.opened hfresh.room hleaves s
    (congrArg e.nextChild hfresh.eq_inFront)

/-- A step means something on a child, of which it reads all or nothing. -/
def Takes (e : Element) (step : σ → Element → Reading σ) (inner : Place) (d : Document)
    (meaning : σ → Option σ) : Prop :=
  ∀ s, ∃ rest, (rest = e.inChild inner d ∨ rest = e.behindChild inner d) ∧
    (step s (.opened inner.tag (e.depth + 1))).Means (e.inChild inner d) (meaning s) rest

theorem Takes.leaves {inner : Place} {meaning : σ → Option σ} (h : e.Takes step inner d meaning) :
    e.Leaves step inner d := by
  intro s t ht
  obtain ⟨rest, hrest, hanswer, hleft⟩ := h s
  have hsome : (meaning s).isSome := by
    rw [← hanswer]
    exact Option.isSome_iff_exists.mpr ⟨t, Failing.toOption_eq_some.mpr ht⟩
  rw [hleft hsome]
  exact hrest

/-- A fold over the children of an element means the fold over what they mean. -/
theorem Fresh.foldChildren {place : Place} {meaning : σ → StartTag × Content → Option σ}
    (hfresh : e.Fresh place d)
    (htakes : ∀ inner, .element inner ∈ place.nodes →
      e.Takes step inner d fun s ↦ meaning s (inner.tag, inner.inside)) (s : σ) :
    (e.foldChildren step s).Means d (place.inside.elements.foldlM meaning s)
      (e.behind place d) := by
  obtain ⟨hanswer, hrest⟩ :=
    hfresh.foldChildren_eq (fun inner hinner ↦ (htakes inner hinner).leaves) s
  have hmeans : (e.foldChildren step s d).answer.toOption =
      place.inside.elements.foldlM meaning s := by
    rw [hanswer, ← place.children_map]
    refine Failing.toOption_foldlM fun inner hinner s ↦ ?_
    obtain ⟨_, _, hstep, _⟩ := htakes inner (place.mem_children.mp hinner) s
    exact hstep
  refine ⟨hmeans, fun hsome ↦ ?_⟩
  obtain ⟨t, ht⟩ := Option.isSome_iff_exists.mp hsome
  exact hrest t (Failing.toOption_eq_some.mp (hmeans.trans ht))

end Element

end Wire

/-- The element at a place as its parent sees it. -/
def Bindings.childAt (b : Bindings) (place : Wire.Place) : Bindings.Child :=
  b.child place.tag place.inside.ownText (b.children place.inside)

end WireShapes
