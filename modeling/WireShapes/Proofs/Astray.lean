import WireShapes.Proofs.Nesting

/-!
# Elements that are astray

A start tag past the nesting limit is refused when it has been read already, and it is not counted;
its end tag is counted once reading goes on.  From then on the elements in use take what is inside
of the refused element for what is inside of themselves, one level further down for each refusal
(`Element.Astray`).  What calls on such an element come to follows from what a cursor inside a
content meets (`Content.Next`): they hand out the children of the element so many levels below, and
end at its end tag.
-/

namespace WireShapes.Wire

/-! ## What a cursor inside a content meets -/

namespace Content

/-- What is next at a cursor inside a content of elements at a level: nothing of it, or a piece with
the cursor behind it still inside.  Behind a start tag the cursor also stands inside a child, taken
to be at the level of the content itself. -/
inductive Next (content : Content) (level : Nat) (tail : List Lexeme) :
    (depth : Nat) → (pending : List Lexeme) → Prop
  | tail : Next content level tail level tail
  | text {depth : Nat} {text : String} {rest : List Lexeme} :
      content.Within level tail depth rest →
      Next content level tail depth (.text (.ok text) :: rest)
  | start {depth : Nat} {tag : StartTag} {rest : List Lexeme} {child : Place} :
      content.Within level tail (depth + 1) rest → .element child ∈ content.nodes tail →
      child.inside.Within level (.close :: child.after) depth rest →
      (depth = level → child.tag = tag ∧ child.pieces = rest) →
      Next content level tail depth (.start (.ok tag) :: rest)
  | close {depth : Nat} {rest : List Lexeme} :
      level < depth → content.Within level tail (depth - 1) rest →
      Next content level tail depth (.close :: rest)

variable {content larger : Content} {level depth : Nat} {tail pending : List Lexeme}

theorem Within.level_le (h : content.Within level tail depth pending) : level ≤ depth := by
  induction h with
  | start => exact Nat.le_refl _
  | text _ ih => exact ih
  | past _ ih => exact ih
  | inside _ ih => exact Nat.le_of_succ_le ih

/-- What is next inside a content is next inside a larger one that goes on to the same tail. -/
theorem Next.mono (h : content.Next level tail depth pending)
    (hnodes : content.nodes tail ⊆ larger.nodes tail)
    (hwithin : ∀ {depth pending}, content.Within level tail depth pending →
      larger.Within level tail depth pending) :
    larger.Next level tail depth pending := by
  cases h with
  | tail => exact .tail
  | text hrest => exact .text (hwithin hrest)
  | start hrest hchild hbelow hlevel => exact .start (hwithin hrest) (hnodes hchild) hbelow hlevel
  | close hdeeper hrest => exact .close hdeeper (hwithin hrest)

theorem Within.next (h : content.Within level tail depth pending) :
    content.Next level tail depth pending := by
  induction h with
  | start content level tail =>
    cases content with
    | empty => exact .tail
    | text content rest => exact .text (.text (.start rest level tail))
    | element tag inside rest =>
      rw [lexemes, List.cons_append, List.append_assoc, List.cons_append]
      have hchild : .element ⟨tag, inside, rest.lexemes ++ tail⟩ ∈
          (element tag inside rest).nodes tail := List.mem_cons_self
      exact .start (.inside (.start _ _ _)) hchild (.start _ _ _) (fun _ ↦ ⟨rfl, rfl⟩)
  | text _ ih => exact ih.mono (List.subset_cons_self _ _) .text
  | past _ ih => exact ih.mono (List.subset_cons_self _ _) .past
  | @inside tag inside rest level depth tail pending hinside ih =>
    cases ih with
    | tail => exact .close (Nat.lt_succ_self _) (.past (.start rest level tail))
    | text hrest => exact .text (.inside hrest)
    | @start depth start rest' child hrest hchild hbelow _ =>
      have hdeeper : level + 1 ≤ depth := hbelow.level_le
      have hwhole : .element ⟨tag, inside, rest.lexemes ++ tail⟩ ∈
          (element tag inside rest).nodes tail := List.mem_cons_self
      exact .start (.inside hrest) hwhole (.of_child hchild hbelow) (fun hlevel ↦ by omega)
    | close hdeeper hrest => exact .close (Nat.lt_of_succ_lt hdeeper) (.inside hrest)

end Content

/-! ## Places below a place -/

namespace Place

/-- A place stands so many levels below another one. -/
def Below : (levels : Nat) → Place → Place → Prop
  | 0, place, inner => place = inner
  | levels + 1, place, inner =>
    ∃ between, Below levels place between ∧ .element inner ∈ between.nodes

variable {place between inner child : Place} {m n : Nat}

theorem below_refl (place : Place) : place.Below 0 place := rfl

theorem Below.inside (h : place.Below n inner) (hchild : .element child ∈ inner.nodes) :
    place.Below (n + 1) child :=
  ⟨inner, h, hchild⟩

theorem Below.trans (h : place.Below m between) (hinner : between.Below n inner) :
    place.Below (m + n) inner := by
  induction n generalizing inner with
  | zero => exact (show between = inner from hinner) ▸ h
  | succ n ih =>
    obtain ⟨parent, hparent, hchild⟩ := hinner
    exact (ih hparent).inside hchild

/-- The pieces that follow an element are still to come behind the elements inside. -/
theorem Below.after_suffix (h : place.Below n inner) (hn : n ≠ 0) :
    .close :: place.after <:+ inner.after := by
  induction n generalizing inner with
  | zero => exact absurd rfl hn
  | succ n ih =>
    obtain ⟨parent, hparent, hchild⟩ := h
    have hafter : .close :: parent.after <:+ inner.after :=
      (Content.Within.after_child 0 hchild).tail_suffix
    rcases Nat.eq_zero_or_pos n with rfl | hpos
    · exact (show place = parent from hparent) ▸ hafter
    · calc
        .close :: place.after <:+ parent.after := ih hparent (Nat.ne_of_gt hpos)
        _ <:+ .close :: parent.after := List.suffix_cons _ _
        _ <:+ inner.after := hafter

end Place

/-! ### Levels told by open elements -/

/-- A content opens no elements that it does not close. -/
theorem openAfter_content (content : Content) (depth : Nat) :
    openAfter depth content.lexemes = some depth := by
  induction content generalizing depth with
  | empty => rfl
  | text content rest ih => exact ih depth
  | element tag inside rest ihInside ih =>
    simp [Content.lexemes, openAfter, openAfter_append, ihInside, ih]

/-- Behind the start tag of a child, one more element is open than before the content. -/
theorem Content.exists_front {content : Content} {tail : List Lexeme} {child : Place}
    (hchild : .element child ∈ content.nodes tail) (depth : Nat) :
    ∃ front, content.lexemes ++ tail = front ++ child.pieces ∧
      openAfter depth front = some (depth + 1) := by
  induction content with
  | empty => simp [nodes] at hchild
  | text content rest ih =>
    simp only [nodes, List.mem_cons, reduceCtorEq, false_or] at hchild
    obtain ⟨front, hpieces, hopen⟩ := ih hchild
    exact ⟨.text (.ok content) :: front, by simp [lexemes, hpieces], hopen⟩
  | element tag inside rest _ ih =>
    rcases List.mem_cons.mp hchild with heq | hchild
    · obtain rfl : child = ⟨tag, inside, rest.lexemes ++ tail⟩ := by simpa using heq
      exact ⟨[.start (.ok tag)], by simp [lexemes, Place.pieces], rfl⟩
    · obtain ⟨front, hpieces, hopen⟩ := ih hchild
      refine ⟨.start (.ok tag) :: (inside.lexemes ++ .close :: front), ?_, ?_⟩
      · simp [lexemes, hpieces]
      · simp [openAfter, openAfter_append, openAfter_content, hopen]

namespace Place

variable {place inner : Place} {m n : Nat}

theorem Below.exists_front (h : place.Below n inner) (depth : Nat) :
    ∃ front, place.pieces = front ++ inner.pieces ∧ openAfter depth front = some (depth + n) := by
  induction n generalizing inner with
  | zero => exact ⟨[], congrArg Place.pieces (show place = inner from h), rfl⟩
  | succ n ih =>
    obtain ⟨parent, hparent, hchild⟩ := h
    obtain ⟨front, hpieces, hopen⟩ := ih hparent
    obtain ⟨between, hbetween, hlevel⟩ := Content.exists_front hchild (depth + n)
    refine ⟨front ++ between, ?_, ?_⟩
    · rw [hpieces, List.append_assoc, ← hbetween]
      rfl
    · rw [openAfter_append, hopen, Option.bind_some, hlevel, Nat.add_assoc]

/-- An element stands at one level only. -/
theorem Below.level_eq (h : place.Below m inner) (h' : place.Below n inner) : m = n := by
  obtain ⟨front, hpieces, hopen⟩ := h.exists_front 0
  obtain ⟨front', hpieces', hopen'⟩ := h'.exists_front 0
  obtain rfl : front = front' := List.append_cancel_right (hpieces ▸ hpieces')
  simpa [hopen] using hopen'

end Place

/-! ## Reading on inside a content -/

namespace Content.Within

variable {content : Content} {level : Nat} {after : List Lexeme} {d d' : Document}

/-- Reading on without an error stays inside, up to the end tag. -/
theorem reaches (h : content.Within level (.close :: after) d.depth d.pending)
    (hreaches : d.Reaches level d') :
    content.Within level (.close :: after) d'.depth d'.pending := by
  induction hreaches with
  | refl d => exact h
  | @step piece rest fault depth maxDepth next event d hread hclose _ ih =>
    apply ih
    have hnext := h.next
    dsimp only at hnext ⊢
    cases hnext with
    | tail =>
      obtain ⟨rfl, -⟩ : Event.close = event ∧ level - 1 = next := by simpa [Lexeme.read] using hread
      exact absurd (hclose rfl) (Nat.lt_irrefl level)
    | text hrest =>
      obtain ⟨-, rfl⟩ : _ ∧ depth = next := by simpa [Lexeme.read] using hread
      exact hrest
    | start hrest =>
      by_cases hfull : depth = maxDepth
      · simp [Lexeme.read, hfull] at hread
      · obtain ⟨-, rfl⟩ : _ ∧ depth + 1 = next := by simpa [Lexeme.read, hfull] using hread
        exact hrest
    | close _ hrest =>
      obtain ⟨-, rfl⟩ : _ ∧ depth - 1 = next := by simpa [Lexeme.read] using hread
      exact hrest

/-- Only a start tag past the limit stops reading, and then the cursor stands inside a child that is
taken to be at the level of the content. -/
theorem stops (h : content.Within level (.close :: after) d.depth d.pending) {e : Element}
    {error : DecodeError} (hstops : d.Stops e error d') :
    error = .tooDeep d.maxDepth ∧ d'.maxDepth = d.maxDepth ∧
      ∃ child, .element child ∈ content.nodes (.close :: after) ∧
        child.inside.Within level (.close :: child.after) d'.depth d'.pending := by
  have hnext := h.next
  cases hstops with
  | @fault piece rest fault depth maxDepth next error hread =>
    dsimp only at hnext ⊢
    cases hnext with
    | tail => simp [Lexeme.read] at hread
    | text _ => simp [Lexeme.read] at hread
    | start _ hchild hbelow _ =>
      by_cases hfull : depth = maxDepth
      · obtain ⟨rfl, rfl⟩ : .tooDeep maxDepth = error ∧ depth = next := by
          simpa [Lexeme.read, hfull] using hread
        exact ⟨rfl, rfl, _, hchild, hbelow⟩
      · simp [Lexeme.read, hfull] at hread
    | close _ _ => simp [Lexeme.read] at hread
  | finished => cases hnext

/-- At the level of the content an end tag is the one that ends it. -/
theorem eq_of_close {rest : List Lexeme}
    (h : content.Within level (.close :: after) level (.close :: rest)) : rest = after := by
  have hnext := h.next
  cases hnext with
  | tail => rfl
  | close hdeeper _ => exact absurd hdeeper (Nat.lt_irrefl level)

/-- At the level of the content a start tag is that of a child. -/
theorem exists_of_start {tag : StartTag} {rest : List Lexeme}
    (h : content.Within level (.close :: after) level (.start (.ok tag) :: rest)) :
    ∃ child, .element child ∈ content.nodes (.close :: after) ∧ child.tag = tag ∧
      child.pieces = rest := by
  have hnext := h.next
  cases hnext with
  | start _ hchild _ hlevel => exact ⟨_, hchild, hlevel rfl⟩

end Content.Within

/-! ## Calls on an element -/

theorem Lexeme.eq_of_read_start {piece : Lexeme} {depth maxDepth after : Nat} {tag : StartTag}
    (h : piece.read depth maxDepth = (.ok (.start tag), after)) :
    piece = .start (.ok tag) ∧ after = depth + 1 := by
  rcases piece with (reason | start) | - | (reason | text)
  · by_cases hfull : depth = maxDepth <;> simp [read, hfull] at h
  · by_cases hfull : depth = maxDepth
    · simp [read, hfull] at h
    · obtain ⟨rfl, rfl⟩ : start = tag ∧ depth + 1 = after := by simpa [read, hfull] using h
      exact ⟨rfl, rfl⟩
  · simp [read] at h
  · simp [read] at h
  · simp [read] at h

namespace Element

/-- A child is handed out right behind its start tag. -/
theorem seekChild_opened {e child : Element} {fault : Option Xml.ScanFault}
    {maxDepth depth : Nat} {pieces : List Lexeme} (hlevel : e.depth ≤ depth)
    (h : (e.seekChild fault maxDepth depth pieces).answer = .ok (some child)) :
    ∃ tag rest, Document.Reaches e.depth ⟨pieces, fault, depth, maxDepth⟩
        ⟨.start (.ok tag) :: rest, fault, e.depth, maxDepth⟩ ∧
      e.seekChild fault maxDepth depth pieces =
        ⟨.ok (some (.opened tag (e.depth + 1))), e, ⟨rest, fault, e.depth + 1, maxDepth⟩⟩ := by
  induction pieces generalizing depth with
  | nil => simp [seekChild] at h
  | cons piece rest ih =>
    have hon {event : Event} {after : Nat}
        (hread : piece.read depth maxDepth = (.ok event, after))
        (hclose : event = .close → e.depth < depth)
        (hrest : (e.seekChild fault maxDepth after rest).answer = .ok (some child)) :
        ∃ tag later, Document.Reaches e.depth ⟨piece :: rest, fault, depth, maxDepth⟩
            ⟨.start (.ok tag) :: later, fault, e.depth, maxDepth⟩ ∧
          e.seekChild fault maxDepth after rest =
            ⟨.ok (some (.opened tag (e.depth + 1))), e, ⟨later, fault, e.depth + 1, maxDepth⟩⟩ := by
      have hreaches : Document.Reaches e.depth ⟨piece :: rest, fault, depth, maxDepth⟩
          ⟨rest, fault, after, maxDepth⟩ := .step hread hclose (.refl _)
      obtain ⟨tag, later, hlater, hcall⟩ := ih (hreaches.level_le hlevel) hrest
      exact ⟨tag, later, hreaches.trans hlater, hcall⟩
    unfold seekChild at h ⊢
    rcases hread : piece.read depth maxDepth with ⟨error | (tag | - | text), after⟩
    · simp [hread] at h
    · rw [hread] at h
      dsimp only at h ⊢
      by_cases hchild : after = e.depth + 1
      · obtain ⟨rfl, hafter⟩ := Lexeme.eq_of_read_start hread
        obtain rfl : depth = e.depth := by omega
        rw [if_pos hchild, hchild]
        exact ⟨tag, rest, .refl _, rfl⟩
      · rw [if_neg hchild] at h ⊢
        exact hon hread (fun hevent ↦ by simp at hevent) h
    · obtain ⟨rfl, rfl⟩ := (Lexeme.depth_of_read_eq_ok hread).2.1 rfl
      rw [hread] at h
      dsimp only at h ⊢
      by_cases hend : depth = e.depth
      · simp [hend] at h
      · rw [if_neg hend] at h ⊢
        exact hon hread (fun _ ↦ by omega) h
    · rw [hread] at h
      exact hon hread (fun hevent ↦ by simp at hevent) h

/-- An element in use takes what is inside of an element so many levels below for what is inside of
itself. -/
structure Astray (e : Element) (place : Place) (missed : Nat) (d : Document) : Prop where
  inside : e.closed = false → ∃ inner, place.Below missed inner ∧
    inner.inside.Within e.depth (.close :: inner.after) d.depth d.pending
  behind : e.closed = true → ∃ inner, place.Below missed inner ∧ d.pending = inner.after ∧
    d.depth = e.depth - 1

namespace Astray

variable {e c : Element} {place child : Place} {missed n : Nat} {d : Document}

/-- A call that reads an open element to its end ends at the end tag of the element below. -/
theorem closes {α : Type} {call : Call α} {answer : α} (h : e.Astray place missed d)
    (hopen : e.closed = false) (hcall : call.Closes e d answer) :
    ∃ inner d', call = ⟨.ok answer, e.close, d'⟩ ∧ place.Below missed inner ∧
      d'.pending = inner.after ∧ d'.maxDepth = d.maxDepth ∧ e.close.Astray place missed d' := by
  obtain ⟨d', rfl, rest, hreaches, rfl⟩ := hcall
  obtain ⟨inner, hbelow, hwithin⟩ := h.inside hopen
  obtain rfl : rest = inner.after := (hwithin.reaches hreaches).eq_of_close
  exact ⟨inner, _, rfl, hbelow, rfl, rfl, fun hclosed ↦ by simp [close] at hclosed,
    fun _ ↦ ⟨inner, hbelow, rfl, rfl⟩⟩

/-- A call fails on an open element only past the limit, and leads it one level further astray. -/
theorem fails {α : Type} {call : Call α} (h : e.Astray place missed d) (hopen : e.closed = false)
    (hcall : call.Fails e d) :
    ∃ d', call = ⟨.error (.tooDeep d.maxDepth), e, d'⟩ ∧ d'.maxDepth = d.maxDepth ∧
      e.Astray place (missed + 1) d' := by
  obtain ⟨error, between, d', rfl, hreaches, hstops⟩ := hcall
  obtain ⟨inner, hbelow, hwithin⟩ := h.inside hopen
  obtain ⟨rfl, hmax, child, hchild, hinside⟩ := (hwithin.reaches hreaches).stops hstops
  rw [hreaches.maxDepth_eq] at hmax ⊢
  exact ⟨d', rfl, hmax, fun _ ↦ ⟨child, hbelow.inside hchild, hinside⟩,
    fun hclosed ↦ by simp [hopen] at hclosed⟩

/-- A child that is handed out is a child of the element below. -/
theorem opens {child : Element} (h : e.Astray place missed d) (hopen : e.closed = false)
    (hlevel : e.depth ≤ d.depth) (hcall : (e.nextChild d).answer = .ok (some child)) :
    ∃ inner : Place, place.Below (missed + 1) inner ∧
      e.nextChild d = ⟨.ok (some (.opened inner.tag (e.depth + 1))), e,
        ⟨inner.pieces, d.fault, e.depth + 1, d.maxDepth⟩⟩ ∧
      (opened inner.tag (e.depth + 1)).Astray inner 0
        ⟨inner.pieces, d.fault, e.depth + 1, d.maxDepth⟩ := by
  have hseek : e.nextChild d = e.seekChild d.fault d.maxDepth d.depth d.pending := by
    rw [nextChild, hopen, if_neg (by simp)]
  rw [hseek] at hcall ⊢
  obtain ⟨tag, rest, hreaches, hcall⟩ := seekChild_opened hlevel hcall
  obtain ⟨parent, hbelow, hwithin⟩ := h.inside hopen
  obtain ⟨inner, hchild, rfl, rfl⟩ := (hwithin.reaches hreaches).exists_of_start
  exact ⟨inner, hbelow.inside hchild, hcall, fun _ ↦ ⟨inner, rfl, .start _ _ _⟩,
    fun hclosed ↦ by simp [opened] at hclosed⟩

/-- While a child is in use, its parent is astray by as much more as it was when it handed out the
child. -/
theorem outer (h : c.Astray child missed d) (hchild : place.Below (n + 1) child)
    (hdepth : c.depth = e.depth + 1) (hopen : e.closed = false) :
    e.Astray place (n + missed) d := by
  have hparent {inner : Place} (hinner : child.Below missed inner) :
      ∃ between, place.Below (n + missed) between ∧ .element inner ∈ between.nodes := by
    have hbelow := hchild.trans hinner
    rwa [Nat.add_right_comm] at hbelow
  refine ⟨fun _ ↦ ?_, fun hclosed ↦ by simp [hopen] at hclosed⟩
  cases hclosed : c.closed with
  | false =>
    obtain ⟨inner, hinner, hwithin⟩ := h.inside hclosed
    obtain ⟨between, hbetween, hmem⟩ := hparent hinner
    rw [hdepth] at hwithin
    exact ⟨between, hbetween, .of_child hmem hwithin⟩
  | true =>
    obtain ⟨inner, hinner, hpending, hlevel⟩ := h.behind hclosed
    obtain ⟨between, hbetween, hmem⟩ := hparent hinner
    rw [hdepth, Nat.add_sub_cancel] at hlevel
    rw [hpending, hlevel]
    exact ⟨between, hbetween, .after_child e.depth hmem⟩

theorem level_le (h : e.Astray place missed d) (hopen : e.closed = false) : e.depth ≤ d.depth := by
  obtain ⟨_, -, hwithin⟩ := h.inside hopen
  exact hwithin.level_le

end Astray

end Element

end WireShapes.Wire
