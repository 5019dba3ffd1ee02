import WireShapes.Proofs.Content
import WireShapes.Wire.Reading

/-!
# Calls on an element

What one call on an element does, wherever inside the element the cursor stands.  A call on an
element passes over everything deeper than it (`Element.Passes`), so half-read children are left at
their end tag, and then meets what is left directly inside.  `Content.Within` says that a cursor
stands in a content, `Element.At` that an element and a document stand at a place of the tree,
inside it or behind its end tag.
-/

namespace WireShapes.Wire

/-! ## Cursors inside a content -/

/-- A cursor stands in a content of elements at a level: the content and then the tail were to be
read, and the pending pieces still are, with so many elements open. -/
inductive Content.Within : Content → (level : Nat) → (tail : List Lexeme) → (depth : Nat) →
    (pending : List Lexeme) → Prop
  | start (content : Content) (level : Nat) (tail : List Lexeme) :
      Within content level tail level (content.lexemes ++ tail)
  | text {content : String} {rest : Content} {level depth : Nat} {tail pending : List Lexeme} :
      Within rest level tail depth pending → Within (.text content rest) level tail depth pending
  | past {tag : StartTag} {inside rest : Content} {level depth : Nat}
      {tail pending : List Lexeme} :
      Within rest level tail depth pending →
      Within (.element tag inside rest) level tail depth pending
  | inside {tag : StartTag} {inside rest : Content} {level depth : Nat}
      {tail pending : List Lexeme} :
      Within inside (level + 1) (.close :: (rest.lexemes ++ tail)) depth pending →
      Within (.element tag inside rest) level tail depth pending

namespace Content.Within

variable {content : Content} {level depth : Nat} {tail pending : List Lexeme} {child : Place}

theorem suffix (h : content.Within level tail depth pending) :
    pending <:+ content.lexemes ++ tail := by
  induction h with
  | start content level tail => exact List.suffix_refl _
  | text _ ih => exact ih.trans (List.suffix_cons _ _)
  | @past tag inside rest level depth tail pending _ ih =>
    refine ih.trans ⟨.start (.ok tag) :: (inside.lexemes ++ [.close]), ?_⟩
    simp [lexemes]
  | @inside tag inside rest level depth tail pending _ ih =>
    refine ih.trans ⟨[.start (.ok tag)], ?_⟩
    simp [lexemes]

theorem tail_suffix (h : content.Within level tail depth pending) : tail <:+ pending := by
  induction h with
  | start content level tail => exact List.suffix_append _ _
  | text _ ih => exact ih
  | past _ ih => exact ih
  | @inside tag inside rest level depth tail pending _ ih =>
    calc
      tail <:+ rest.lexemes ++ tail := List.suffix_append _ _
      _ <:+ .close :: (rest.lexemes ++ tail) := List.suffix_cons _ _
      _ <:+ pending := ih

/-- Inside a child is inside the content. -/
theorem of_child (hchild : .element child ∈ content.nodes tail)
    (h : child.inside.Within (level + 1) (.close :: child.after) depth pending) :
    content.Within level tail depth pending := by
  induction content with
  | empty => simp [nodes] at hchild
  | text content rest ih =>
    simp only [nodes, List.mem_cons, reduceCtorEq, false_or] at hchild
    exact .text (ih hchild)
  | element tag inside rest _ ih =>
    rcases List.mem_cons.mp hchild with heq | hchild
    · obtain rfl : child = ⟨tag, inside, rest.lexemes ++ tail⟩ := by simpa using heq
      exact .inside h
    · exact .past (ih hchild)

/-- Behind a child is inside the content. -/
theorem after_child (level : Nat) (hchild : .element child ∈ content.nodes tail) :
    content.Within level tail level child.after := by
  induction content with
  | empty => simp [nodes] at hchild
  | text content rest ih =>
    simp only [nodes, List.mem_cons, reduceCtorEq, false_or] at hchild
    exact .text (ih hchild)
  | element tag inside rest _ ih =>
    rcases List.mem_cons.mp hchild with heq | hchild
    · obtain rfl : child = ⟨tag, inside, rest.lexemes ++ tail⟩ := by simpa using heq
      exact .past (.start rest level tail)
    · exact .past (ih hchild)

end Content.Within

/-- A child nests less deep than the content it is in. -/
theorem Content.depth_lt_of_mem_nodes {content : Content} {tail : List Lexeme} {child : Place}
    (hchild : .element child ∈ content.nodes tail) : child.inside.depth < content.depth := by
  induction content with
  | empty => simp [nodes] at hchild
  | text content rest ih =>
    simp only [nodes, List.mem_cons, reduceCtorEq, false_or] at hchild
    exact ih hchild
  | element tag inside rest _ ih =>
    rcases List.mem_cons.mp hchild with heq | hchild
    · obtain rfl : child = ⟨tag, inside, rest.lexemes ++ tail⟩ := by simpa using heq
      calc
        inside.depth < inside.depth + 1 := Nat.lt_succ_self _
        _ ≤ max (inside.depth + 1) rest.depth := Nat.le_max_left _ _
    · calc
        child.inside.depth < rest.depth := ih hchild
        _ ≤ max (inside.depth + 1) rest.depth := Nat.le_max_right _ _

/-! ## Passing over what is deeper -/

namespace Element

/-- Between two cursors neither call on the element has anything to do. -/
def Passes (e : Element) (fault : Option Xml.ScanFault) (maxDepth depth : Nat)
    (pending : List Lexeme) (depth' : Nat) (pending' : List Lexeme) : Prop :=
  e.seekChild fault maxDepth depth pending = e.seekChild fault maxDepth depth' pending' ∧
    ∀ text, e.gatherText fault maxDepth text depth pending =
      e.gatherText fault maxDepth text depth' pending'

variable {e : Element} {fault : Option Xml.ScanFault} {maxDepth depth level : Nat}
  {pending rest tail : List Lexeme} {tag : StartTag} {content : Content}

theorem Passes.refl : e.Passes fault maxDepth depth pending depth pending :=
  ⟨rfl, fun _ ↦ rfl⟩

theorem Passes.trans {depth₁ depth₂ : Nat} {pending₁ pending₂ : List Lexeme}
    (h₁ : e.Passes fault maxDepth depth pending depth₁ pending₁)
    (h₂ : e.Passes fault maxDepth depth₁ pending₁ depth₂ pending₂) :
    e.Passes fault maxDepth depth pending depth₂ pending₂ :=
  ⟨h₁.1.trans h₂.1, fun text ↦ (h₁.2 text).trans (h₂.2 text)⟩

theorem passes_text {text : String} (h : e.depth < depth) :
    e.Passes fault maxDepth depth (.text (.ok text) :: rest) depth rest := by
  have hne : depth ≠ e.depth := by omega
  constructor
  · simp [seekChild, Lexeme.read]
  · intro seen
    simp [gatherText, Lexeme.read, hne]

theorem passes_start (h : e.depth < depth) (hroom : depth < maxDepth) :
    e.Passes fault maxDepth depth (.start (.ok tag) :: rest) (depth + 1) rest := by
  have hne : depth ≠ e.depth := by omega
  have hdepth : depth ≠ maxDepth := by omega
  constructor
  · simp [seekChild, Lexeme.read, hne, hdepth]
  · intro seen
    simp [gatherText, Lexeme.read, hdepth]

theorem passes_close (h : e.depth ≤ depth) :
    e.Passes fault maxDepth (depth + 1) (.close :: rest) depth rest := by
  have hne : depth + 1 ≠ e.depth := by omega
  constructor
  · simp [seekChild, Lexeme.read, hne]
  · intro seen
    simp [gatherText, Lexeme.read, hne]

theorem passes_content (h : e.depth < level) (hroom : level + content.depth ≤ maxDepth) :
    e.Passes fault maxDepth level (content.lexemes ++ tail) level tail := by
  induction content generalizing level tail with
  | empty => exact .refl
  | text content rest ih => exact (passes_text h).trans (ih h hroom)
  | element tag inside rest ihInside ihRest =>
    simp only [Content.depth] at hroom
    have hinside : e.Passes fault maxDepth (level + 1)
        (inside.lexemes ++ .close :: (rest.lexemes ++ tail)) (level + 1)
        (.close :: (rest.lexemes ++ tail)) := ihInside (by omega) (by omega)
    have hrest : e.Passes fault maxDepth level (rest.lexemes ++ tail) level tail :=
      ihRest h (by omega)
    have htag : e.Passes fault maxDepth level
        (.start (.ok tag) :: (inside.lexemes ++ .close :: (rest.lexemes ++ tail))) (level + 1)
        (inside.lexemes ++ .close :: (rest.lexemes ++ tail)) := passes_start h (by omega)
    have hwhole := ((htag.trans hinside).trans (passes_close (Nat.le_of_lt h))).trans hrest
    simpa [Content.lexemes] using hwhole

/-- From anywhere inside a deeper content, what is left of it is passed over. -/
theorem passes_within (h : e.depth < level) (hwithin : content.Within level tail depth pending)
    (hroom : level + content.depth ≤ maxDepth) :
    e.Passes fault maxDepth depth pending level tail := by
  induction hwithin with
  | start content level tail => exact passes_content h hroom
  | text _ ih => exact ih h hroom
  | past _ ih =>
    simp only [Content.depth] at hroom
    exact ih h (by omega)
  | @inside tag inside rest level depth tail pending _ ih =>
    simp only [Content.depth] at hroom
    exact ((ih (by omega) (by omega)).trans (passes_close (Nat.le_of_lt h))).trans
      (passes_content h (by omega))

end Element

/-- From anywhere inside an element, a call on it comes to what is left directly inside. -/
theorem Content.Within.exists_left {content : Content} {level depth maxDepth : Nat}
    {tail pending : List Lexeme} (h : content.Within level tail depth pending)
    (hroom : level + content.depth ≤ maxDepth) :
    ∃ left : Content, left.depth ≤ content.depth ∧
      (content.nodes tail).filter (fun node ↦ node.Unread pending) = left.nodes tail ∧
      ∀ (e : Element) (fault : Option Xml.ScanFault), e.depth = level →
        e.Passes fault maxDepth depth pending level (left.lexemes ++ tail) := by
  induction h with
  | start content level tail =>
    exact ⟨content, Nat.le_refl _, filter_unread_start (List.suffix_refl _), fun _ _ _ ↦ .refl⟩
  | @text content rest level depth tail pending hrest ih =>
    obtain ⟨left, hdepth, hleft, hpasses⟩ := ih hroom
    refine ⟨left, hdepth, ?_, hpasses⟩
    have hread : ¬ (Node.text content (rest.lexemes ++ tail)).Unread pending :=
      Node.not_unread rfl hrest.suffix
    rw [nodes, List.filter_cons_of_neg (by simpa using hread), hleft]
  | @past tag inside rest level depth tail pending hrest ih =>
    simp only [Content.depth] at hroom
    obtain ⟨left, hdepth, hleft, hpasses⟩ := ih (by omega)
    refine ⟨left, Nat.le_trans hdepth (Nat.le_max_right _ _), ?_, hpasses⟩
    have hbehind : pending <:+ inside.lexemes ++ .close :: (rest.lexemes ++ tail) := by
      calc
        pending <:+ rest.lexemes ++ tail := hrest.suffix
        _ <:+ .close :: (rest.lexemes ++ tail) := List.suffix_cons _ _
        _ <:+ inside.lexemes ++ .close :: (rest.lexemes ++ tail) := List.suffix_append _ _
    have hread : ¬ (Node.element ⟨tag, inside, rest.lexemes ++ tail⟩).Unread pending :=
      Node.not_unread rfl hbehind
    rw [nodes, List.filter_cons_of_neg (by simpa using hread), hleft]
  | @inside tag inside rest level depth tail pending hinside ih =>
    simp only [Content.depth] at hroom
    refine ⟨rest, Nat.le_max_right _ _, ?_, fun e fault hlevel ↦ ?_⟩
    · have hread : ¬ (Node.element ⟨tag, inside, rest.lexemes ++ tail⟩).Unread pending :=
        Node.not_unread rfl hinside.suffix
      rw [nodes, List.filter_cons_of_neg (by simpa using hread)]
      exact filter_unread_start ((List.suffix_cons _ _).trans hinside.tail_suffix)
    · subst hlevel
      exact (Element.passes_within (Nat.lt_succ_self _) hinside (by omega)).trans
        (Element.passes_close (Nat.le_refl _))

/-! ## What is left directly inside -/

namespace Element

variable (e : Element) (fault : Option Xml.ScanFault) (maxDepth : Nat) (content : Content)
  (after : List Lexeme)

/-- The document behind the end tag of an element. -/
def behind (place : Place) (d : Document) : Document :=
  ⟨place.after, d.fault, e.depth - 1, d.maxDepth⟩

/-- The document inside a child of an element, in front of all of it. -/
def inChild (child : Place) (d : Document) : Document :=
  ⟨child.pieces, d.fault, e.depth + 1, d.maxDepth⟩

theorem seekChild_content (hroom : e.depth + content.depth ≤ maxDepth) :
    e.seekChild fault maxDepth e.depth (content.lexemes ++ .close :: after) =
      match (content.nodes (.close :: after)).findSome? Node.place? with
      | some child =>
        ⟨.ok (some (.opened child.tag (e.depth + 1))), e,
          ⟨child.pieces, fault, e.depth + 1, maxDepth⟩⟩
      | none => ⟨.ok none, e.close, ⟨after, fault, e.depth - 1, maxDepth⟩⟩ := by
  induction content with
  | empty => simp [Content.lexemes, Content.nodes, seekChild, Lexeme.read]
  | text text rest ih =>
    simpa [Content.lexemes, Content.nodes, seekChild, Lexeme.read, List.findSome?_cons,
      Node.place?] using ih hroom
  | element tag inside rest _ _ =>
    simp only [Content.depth] at hroom
    have hdepth : e.depth ≠ maxDepth := by omega
    simp [Content.lexemes, Content.nodes, seekChild, Lexeme.read, List.findSome?_cons,
      Node.place?, Place.pieces, hdepth]

theorem gatherText_content (text : String) (hroom : e.depth + content.depth ≤ maxDepth) :
    e.gatherText fault maxDepth text e.depth (content.lexemes ++ .close :: after) =
      ⟨.ok (text ++ String.join ((content.nodes (.close :: after)).filterMap Node.text?)), e.close,
        ⟨after, fault, e.depth - 1, maxDepth⟩⟩ := by
  induction content generalizing text with
  | empty => simp [Content.lexemes, Content.nodes, gatherText, Lexeme.read]
  | text piece rest ih =>
    have hrest := ih (text ++ piece) hroom
    simpa [Content.lexemes, Content.nodes, gatherText, Lexeme.read, Node.text?,
      String.append_assoc] using hrest
  | element tag inside rest _ ih =>
    simp only [Content.depth] at hroom
    have hdepth : e.depth ≠ maxDepth := by omega
    have hinside : e.Passes fault maxDepth (e.depth + 1)
        (inside.lexemes ++ .close :: (rest.lexemes ++ .close :: after)) (e.depth + 1)
        (.close :: (rest.lexemes ++ .close :: after)) :=
      passes_content (Nat.lt_succ_self _) (by omega)
    have hchild := (hinside.trans (passes_close (Nat.le_refl _))).2 text
    have hrest := ih text (by omega)
    simpa [Content.lexemes, Content.nodes, gatherText, Lexeme.read, List.filterMap_cons,
      Node.text?, hdepth, hrest] using hchild

end Element

/-! ## Calls at a place -/

/-- An element and a document stand at a place of the tree. -/
structure Element.At (e : Element) (place : Place) (d : Document) : Prop where
  start : e.start = place.tag
  room : e.depth + place.inside.depth ≤ d.maxDepth
  inside : e.closed = false → place.inside.Within e.depth (.close :: place.after) d.depth d.pending
  behind : e.closed = true → d = e.behind place d

namespace Element.At

variable {e : Element} {place child : Place} {d : Document}

theorem close_of_closed (hclosed : e.closed = true) : e.close = e := by
  cases e
  simp_all [Element.close]

/-- What is left directly inside of an open element, and that calls on the element meet it. -/
theorem exists_left (h : e.At place d) (hopen : e.closed = false) :
    ∃ left : Content, e.depth + left.depth ≤ d.maxDepth ∧
      place.left d.pending = left.nodes (.close :: place.after) ∧
      e.Passes d.fault d.maxDepth d.depth d.pending e.depth
        (left.lexemes ++ .close :: place.after) := by
  obtain ⟨left, hdepth, hleft, hpasses⟩ := (h.inside hopen).exists_left h.room
  have hroom : e.depth + left.depth ≤ d.maxDepth := by
    calc
      e.depth + left.depth ≤ e.depth + place.inside.depth := Nat.add_le_add_left hdepth _
      _ ≤ d.maxDepth := h.room
  exact ⟨left, hroom, hleft, hpasses e d.fault rfl⟩

/-- Nothing is left behind the end tag. -/
theorem left_of_closed (h : e.At place d) (hclosed : e.closed = true) :
    place.left d.pending = [] := by
  rw [h.behind hclosed]
  exact place.left_after

theorem open_of_next? (h : e.At place d) (hnext : place.next? d.pending = some child) :
    e.closed = false := by
  cases hclosed : e.closed with
  | false => rfl
  | true => simp [Place.next?, h.left_of_closed hclosed] at hnext

/-- The next child is the first one that is left, and the cursor is then in front of all of it. -/
theorem nextChild (h : e.At place d) :
    e.nextChild d =
      match place.next? d.pending with
      | some child => ⟨.ok (some (.opened child.tag (e.depth + 1))), e, e.inChild child d⟩
      | none => ⟨.ok none, e.close, e.behind place d⟩ := by
  cases hclosed : e.closed with
  | true =>
    have hnone : place.next? d.pending = none := by
      rw [Place.next?, h.left_of_closed hclosed, List.findSome?_nil]
    rw [hnone, Element.nextChild, if_pos hclosed, close_of_closed hclosed, ← h.behind hclosed]
  | false =>
    obtain ⟨left, hroom, hleft, hpasses⟩ := h.exists_left hclosed
    rw [Element.nextChild, hclosed, if_neg (by simp), hpasses.1, Place.next?, hleft]
    exact e.seekChild_content d.fault d.maxDepth left place.after hroom

/-- The text of an element is what is left of it directly inside. -/
theorem takeText (h : e.At place d) :
    e.takeText d = ⟨.ok (place.textLeft d.pending), e.close, e.behind place d⟩ := by
  cases hclosed : e.closed with
  | true =>
    have hempty : place.textLeft d.pending = "" := by
      rw [Place.textLeft, h.left_of_closed hclosed]
      rfl
    rw [hempty, Element.takeText, if_pos hclosed, close_of_closed hclosed, ← h.behind hclosed]
  | false =>
    obtain ⟨left, hroom, hleft, hpasses⟩ := h.exists_left hclosed
    rw [Element.takeText, hclosed, if_neg (by simp), hpasses.2, Place.textLeft, hleft,
      e.gatherText_content d.fault d.maxDepth left place.after "" hroom, String.empty_append]
    rfl

/-! ### Places after a call -/

theorem mem_nodes_of_next? {pending : List Lexeme} (h : place.next? pending = some child) :
    .element child ∈ place.nodes := by
  obtain ⟨node, hnode, hchild⟩ := List.exists_of_findSome?_eq_some h
  cases node with
  | text content after => simp [Node.place?] at hchild
  | element other =>
    obtain rfl : other = child := by simpa [Node.place?] using hchild
    exact List.mem_of_mem_filter hnode

/-- Behind its end tag an element is at its place. -/
theorem at_behind (h : e.At place d) : e.close.At place (e.behind place d) where
  start := h.start
  room := h.room
  inside hopen := by simp [Element.close] at hopen
  behind _ := rfl

/-- A child is at its place when it is handed out. -/
theorem opened (h : e.At place d) (hchild : .element child ∈ place.nodes) :
    (Element.opened child.tag (e.depth + 1)).At child (e.inChild child d) where
  start := rfl
  room := by
    have hroom := h.room
    have hdepth := Content.depth_lt_of_mem_nodes hchild
    show e.depth + 1 + child.inside.depth ≤ d.maxDepth
    omega
  inside _ := .start child.inside (e.depth + 1) (.close :: child.after)
  behind hclosed := by simp [Element.opened] at hclosed

/-- While a child is at its place, so is its parent. -/
theorem of_child {c : Element} (hchild : .element child ∈ place.nodes)
    (hdepth : c.depth = e.depth + 1) (h : c.At child d) (hstart : e.start = place.tag)
    (hopen : e.closed = false) (hroom : e.depth + place.inside.depth ≤ d.maxDepth) : e.At place d where
  start := hstart
  room := hroom
  inside _ := by
    cases hclosed : c.closed with
    | false =>
      have hinside := h.inside hclosed
      rw [hdepth] at hinside
      exact .of_child hchild hinside
    | true =>
      have hbehind := h.behind hclosed
      rw [hbehind, Element.behind, hdepth, Nat.add_sub_cancel]
      exact .after_child e.depth hchild
  behind hclosed := by simp [hopen] at hclosed

/-- What follows an element is still to be read. -/
theorem after_suffix (h : e.At place d) : place.after <:+ d.pending := by
  cases hclosed : e.closed with
  | true => exact h.behind hclosed ▸ List.suffix_refl _
  | false => exact (List.suffix_cons _ _).trans (h.inside hclosed).tail_suffix

/-- A child that was handed out leaves its parent at its place. -/
theorem after_next (h : e.At place d) (hnext : place.next? d.pending = some child) :
    e.At place (e.inChild child d) :=
  .of_child (mem_nodes_of_next? hnext) rfl (h.opened (mem_nodes_of_next? hnext)) h.start
    (h.open_of_next? hnext) h.room

/-- Skipping an element leaves the document behind it. -/
theorem skip (h : e.At place d) : e.skip d = ⟨.ok (), e.close, e.behind place d⟩ := by
  induction hsize : d.size using Nat.strongRecOn generalizing d with
  | ind size ih =>
    have hnext := h.nextChild
    rw [Element.skip]
    cases hchild : place.next? d.pending with
    | none =>
      rw [hchild] at hnext
      split
      · simp_all
      · rw [hnext]
      · simp_all
    | some child =>
      rw [hchild] at hnext
      split
      · simp_all
      · simp_all
      · have hrest := h.after_next hchild
        have hlt : (e.inChild child d).size < size := by
          have hsmaller := e.nextChild_size_lt d (.opened child.tag (e.depth + 1)) (by rw [hnext])
          rwa [hnext, hsize] at hsmaller
        rw [hnext]
        exact ih _ hlt hrest rfl

end Element.At

end WireShapes.Wire
