import WireShapes.Proofs.Readable

/-!
# Reading on

Whatever the document, a call on an element reads one piece after the other: `Document.Reaches`
says that reading leads from one document to another with so many elements open throughout.  A call
on an open element hands out a child, closes the element (`Element.Finishes`), or stops at a piece
that is at fault or where nothing follows (`Document.Stops`).  What was read inside an element makes
no difference to passing over it, so an element that a call has closed could have been passed over
as well.
-/

namespace WireShapes.Wire

/-! ## One piece after the other -/

/-- Reading leads from one document to another, and no end tag at the level or above it is read. -/
inductive Document.Reaches (level : Nat) : Document → Document → Prop
  | refl (d : Document) : Reaches level d d
  | step {piece : Lexeme} {rest : List Lexeme} {fault : Option Xml.ScanFault}
      {depth maxDepth after : Nat} {event : Event} {d : Document} :
      piece.read depth maxDepth = (.ok event, after) → (event = .close → level < depth) →
      Reaches level ⟨rest, fault, after, maxDepth⟩ d →
      Reaches level ⟨piece :: rest, fault, depth, maxDepth⟩ d

/-- The next piece is at fault, or nothing follows inside an element. -/
inductive Document.Stops (e : Element) : Document → DecodeError → Document → Prop
  | fault {piece : Lexeme} {rest : List Lexeme} {fault : Option Xml.ScanFault}
      {depth maxDepth after : Nat} {error : DecodeError} :
      piece.read depth maxDepth = (.error error, after) →
      Stops e ⟨piece :: rest, fault, depth, maxDepth⟩ error ⟨rest, fault, after, maxDepth⟩
  | finished (fault : Option Xml.ScanFault) (depth maxDepth : Nat) :
      Stops e ⟨[], fault, depth, maxDepth⟩ (endError fault e.unterminated)
        ⟨[], none, depth, maxDepth⟩

/-- Reading goes on to the end tag of an element, and leaves the document behind it. -/
def Element.Finishes (e : Element) (d d' : Document) : Prop :=
  ∃ rest, d.Reaches e.depth ⟨.close :: rest, d.fault, e.depth, d.maxDepth⟩ ∧
    d' = ⟨rest, d.fault, e.depth - 1, d.maxDepth⟩

/-- An event changes how many elements are open. -/
theorem Lexeme.depth_of_read_eq_ok {piece : Lexeme} {depth maxDepth after : Nat} {event : Event}
    (h : piece.read depth maxDepth = (.ok event, after)) :
    (event ≠ .close → depth ≤ after) ∧ (event = .close → piece = .close ∧ after = depth - 1) ∧
      (depth ≤ maxDepth → after ≤ maxDepth) := by
  rcases piece with tag | - | content
  · by_cases hfull : depth = maxDepth
    · simp [Lexeme.read, hfull] at h
    · cases tag with
      | error fault => simp [Lexeme.read, hfull] at h
      | ok tag =>
        obtain ⟨rfl, rfl⟩ : Event.start tag = event ∧ depth + 1 = after := by
          simpa [Lexeme.read, hfull] using h
        exact ⟨fun _ ↦ by omega, fun hclose ↦ by simp at hclose, fun hroom ↦ by omega⟩
  · obtain ⟨rfl, rfl⟩ : Event.close = event ∧ depth - 1 = after := by simpa [Lexeme.read] using h
    exact ⟨fun hclose ↦ absurd rfl hclose, fun _ ↦ ⟨rfl, rfl⟩, fun hroom ↦ by omega⟩
  · cases content with
    | error fault => simp [Lexeme.read] at h
    | ok text =>
      obtain ⟨rfl, rfl⟩ : Event.text text = event ∧ depth = after := by
        simpa [Lexeme.read] using h
      exact ⟨fun _ ↦ Nat.le_refl _, fun hclose ↦ by simp at hclose, fun hroom ↦ hroom⟩

namespace Document.Reaches

variable {level level' : Nat} {d d' d'' : Document}

theorem trans (h : d.Reaches level d') (h' : d'.Reaches level d'') : d.Reaches level d'' := by
  induction h with
  | refl d => exact h'
  | step hread hclose _ ih => exact .step hread hclose (ih h')

theorem mono (h : d.Reaches level d') (hlevel : level' ≤ level) : d.Reaches level' d' := by
  induction h with
  | refl d => exact .refl d
  | step hread hclose _ ih =>
    exact .step hread (fun hevent ↦ Nat.lt_of_le_of_lt hlevel (hclose hevent)) ih

theorem fault_eq (h : d.Reaches level d') : d'.fault = d.fault := by
  induction h with
  | refl d => rfl
  | step _ _ _ ih => exact ih

theorem maxDepth_eq (h : d.Reaches level d') : d'.maxDepth = d.maxDepth := by
  induction h with
  | refl d => rfl
  | step _ _ _ ih => exact ih

/-- The elements down to the level stay open. -/
theorem level_le (h : d.Reaches level d') (hlevel : level ≤ d.depth) : level ≤ d'.depth := by
  induction h with
  | refl d => exact hlevel
  | @step _ _ _ depth _ after event _ hread hclose _ ih =>
    apply ih
    have hlevel : level ≤ depth := hlevel
    obtain ⟨hother, hend, -⟩ := Lexeme.depth_of_read_eq_ok hread
    show level ≤ after
    by_cases hevent : event = .close
    · have hdeeper := hclose hevent
      have hafter := (hend hevent).2
      omega
    · exact Nat.le_trans hlevel (hother hevent)

/-- No more elements are open than the document allows. -/
theorem depth_le (h : d.Reaches level d') (hroom : d.depth ≤ d.maxDepth) :
    d'.depth ≤ d'.maxDepth := by
  induction h with
  | refl d => exact hroom
  | step hread _ _ ih => exact ih ((Lexeme.depth_of_read_eq_ok hread).2.2 hroom)

/-- What is read inside an element makes no difference to passing over the element. -/
theorem skip_eq {e : Element} (h : d.Reaches level d') (hlevel : e.depth ≤ level)
    (hopen : e.closed = false) : e.skip d = e.skip d' := by
  induction h with
  | refl d => rfl
  | @step piece _ _ depth _ after event _ hread hclose _ ih =>
    rw [Element.skip_cons hopen, hread, ← ih]
    rcases event with tag | - | text
    · rfl
    · have hdeeper : depth ≠ e.depth := by
        have hlevel' := hclose rfl
        omega
      simp only [hdeeper, if_false]
    · rfl

end Document.Reaches

namespace Element.Finishes

variable {e : Element} {d d' : Document} {level : Nat}

/-- An element that was read to its end could have been passed over. -/
theorem skip_eq (h : e.Finishes d d') (hopen : e.closed = false) :
    e.skip d = ⟨.ok (), e.close, d'⟩ := by
  obtain ⟨rest, hreaches, rfl⟩ := h
  rw [hreaches.skip_eq (Nat.le_refl _) hopen, skip_cons hopen]
  simp [Lexeme.read]

/-- Around an element that is read to its end, everything stays open. -/
theorem reaches (h : e.Finishes d d') (hlevel : level < e.depth) : d.Reaches level d' := by
  obtain ⟨rest, hreaches, rfl⟩ := h
  refine (hreaches.mono (Nat.le_of_lt hlevel)).trans ?_
  have hread : Lexeme.close.read e.depth d.maxDepth = (.ok .close, e.depth - 1) := rfl
  exact .step hread (fun _ ↦ hlevel) (.refl _)

theorem of_reaches {d'' : Document} (h : d.Reaches e.depth d') (hfinishes : e.Finishes d' d'') :
    e.Finishes d d'' := by
  obtain ⟨rest, hreaches, rfl⟩ := hfinishes
  rw [h.fault_eq, h.maxDepth_eq] at hreaches ⊢
  exact ⟨rest, h.trans hreaches, rfl⟩

end Element.Finishes

/-! ## What calls come to -/

namespace Call

variable {α : Type} {e : Element} {d d' : Document} {call : Call α}

/-- The call hands out a child. -/
def Opens (call : Call (Option Element)) (e : Element) (d : Document) : Prop :=
  ∃ tag d', call = ⟨.ok (some (.opened tag (e.depth + 1))), e, d'⟩ ∧ d'.depth = e.depth + 1 ∧
    d.Reaches e.depth d'

/-- The call answers at the end tag of the element. -/
def Closes (call : Call α) (e : Element) (d : Document) (answer : α) : Prop :=
  ∃ d', call = ⟨.ok answer, e.close, d'⟩ ∧ e.Finishes d d'

/-- The call fails where reading stops. -/
def Fails (call : Call α) (e : Element) (d : Document) : Prop :=
  ∃ error d' d'', call = ⟨.error error, e, d''⟩ ∧ d.Reaches e.depth d' ∧ d'.Stops e error d''

theorem Opens.of_reaches {call : Call (Option Element)} (h : d.Reaches e.depth d')
    (hopens : call.Opens e d') : call.Opens e d := by
  obtain ⟨tag, after, hcall, hdepth, hreaches⟩ := hopens
  exact ⟨tag, after, hcall, hdepth, h.trans hreaches⟩

theorem Closes.of_reaches {answer : α} (h : d.Reaches e.depth d')
    (hcloses : call.Closes e d' answer) : call.Closes e d answer := by
  obtain ⟨after, hcall, hfinishes⟩ := hcloses
  exact ⟨after, hcall, .of_reaches h hfinishes⟩

theorem Fails.of_reaches (h : d.Reaches e.depth d') (hfails : call.Fails e d') :
    call.Fails e d := by
  obtain ⟨error, between, after, hcall, hreaches, hstops⟩ := hfails
  exact ⟨error, between, after, hcall, h.trans hreaches, hstops⟩

theorem fails_of_read {piece : Lexeme} {rest : List Lexeme} {fault : Option Xml.ScanFault}
    {depth maxDepth after : Nat} {error : DecodeError}
    (hread : piece.read depth maxDepth = (.error error, after)) :
    (⟨.error error, e, ⟨rest, fault, after, maxDepth⟩⟩ : Call α).Fails e
      ⟨piece :: rest, fault, depth, maxDepth⟩ :=
  ⟨error, _, _, rfl, .refl _, .fault hread⟩

theorem fails_of_nil (fault : Option Xml.ScanFault) (depth maxDepth : Nat) :
    (⟨.error (Document.endError fault e.unterminated), e, ⟨[], none, depth, maxDepth⟩⟩ :
      Call α).Fails e ⟨[], fault, depth, maxDepth⟩ :=
  ⟨_, _, _, rfl, .refl _, .finished fault depth maxDepth⟩

end Call

namespace Element

variable {e : Element} {d : Document} {fault : Option Xml.ScanFault} {depth maxDepth : Nat}
  {pieces : List Lexeme}

theorem finishes_close (fault : Option Xml.ScanFault) (maxDepth : Nat) (rest : List Lexeme) :
    e.Finishes ⟨.close :: rest, fault, e.depth, maxDepth⟩ ⟨rest, fault, e.depth - 1, maxDepth⟩ :=
  ⟨rest, .refl _, rfl⟩

/-- Looking for the next child, reading goes on until there is one, or to the end tag. -/
theorem seekChild_cases (hlevel : e.depth ≤ depth) :
    (e.seekChild fault maxDepth depth pieces).Opens e ⟨pieces, fault, depth, maxDepth⟩ ∨
      (e.seekChild fault maxDepth depth pieces).Closes e ⟨pieces, fault, depth, maxDepth⟩ none ∨
      (e.seekChild fault maxDepth depth pieces).Fails e ⟨pieces, fault, depth, maxDepth⟩ := by
  induction pieces generalizing depth with
  | nil => exact .inr (.inr (Call.fails_of_nil fault depth maxDepth))
  | cons piece rest ih =>
    have hon {event : Event} {after : Nat}
        (hread : piece.read depth maxDepth = (.ok event, after))
        (hclose : event = .close → e.depth < depth) :
        (e.seekChild fault maxDepth after rest).Opens e ⟨piece :: rest, fault, depth, maxDepth⟩ ∨
          (e.seekChild fault maxDepth after rest).Closes e
            ⟨piece :: rest, fault, depth, maxDepth⟩ none ∨
          (e.seekChild fault maxDepth after rest).Fails e
            ⟨piece :: rest, fault, depth, maxDepth⟩ := by
      have hreaches : Document.Reaches e.depth ⟨piece :: rest, fault, depth, maxDepth⟩
          ⟨rest, fault, after, maxDepth⟩ := .step hread hclose (.refl _)
      exact (ih (hreaches.level_le hlevel)).imp (.of_reaches hreaches)
        (.imp (.of_reaches hreaches) (.of_reaches hreaches))
    unfold seekChild
    rcases hread : piece.read depth maxDepth with ⟨error | (tag | - | text), after⟩
    · exact .inr (.inr (Call.fails_of_read hread))
    · dsimp only
      by_cases hchild : after = e.depth + 1
      · rw [if_pos hchild]
        have hstart : Event.start tag ≠ .close := by simp
        exact .inl ⟨tag, _, by rw [hchild], hchild,
          .step hread (fun hevent ↦ absurd hevent hstart) (.refl _)⟩
      · rw [if_neg hchild]
        exact hon hread (fun hevent ↦ by simp at hevent)
    · obtain ⟨rfl, rfl⟩ := (Lexeme.depth_of_read_eq_ok hread).2.1 rfl
      dsimp only
      by_cases hend : depth = e.depth
      · subst hend
        rw [if_pos rfl]
        exact .inr (.inl ⟨_, rfl, finishes_close fault maxDepth rest⟩)
      · rw [if_neg hend]
        exact hon hread (fun _ ↦ by omega)
    · exact hon hread (fun hevent ↦ by simp at hevent)

/-- Gathering text, reading goes on to the end tag. -/
theorem gatherText_cases (text : String) (hlevel : e.depth ≤ depth) :
    (∃ answer, (e.gatherText fault maxDepth text depth pieces).Closes e
        ⟨pieces, fault, depth, maxDepth⟩ answer) ∨
      (e.gatherText fault maxDepth text depth pieces).Fails e
        ⟨pieces, fault, depth, maxDepth⟩ := by
  induction pieces generalizing depth text with
  | nil => exact .inr (Call.fails_of_nil fault depth maxDepth)
  | cons piece rest ih =>
    have hon {event : Event} {after : Nat} (text : String)
        (hread : piece.read depth maxDepth = (.ok event, after))
        (hclose : event = .close → e.depth < depth) :
        (∃ answer, (e.gatherText fault maxDepth text after rest).Closes e
            ⟨piece :: rest, fault, depth, maxDepth⟩ answer) ∨
          (e.gatherText fault maxDepth text after rest).Fails e
            ⟨piece :: rest, fault, depth, maxDepth⟩ := by
      have hreaches : Document.Reaches e.depth ⟨piece :: rest, fault, depth, maxDepth⟩
          ⟨rest, fault, after, maxDepth⟩ := .step hread hclose (.refl _)
      exact (ih text (hreaches.level_le hlevel)).imp
        (fun ⟨answer, hcloses⟩ ↦ ⟨answer, .of_reaches hreaches hcloses⟩) (.of_reaches hreaches)
    unfold gatherText
    rcases hread : piece.read depth maxDepth with ⟨error | (tag | - | content), after⟩
    · exact .inr (Call.fails_of_read hread)
    · exact hon text hread (fun hevent ↦ by simp at hevent)
    · obtain ⟨rfl, rfl⟩ := (Lexeme.depth_of_read_eq_ok hread).2.1 rfl
      dsimp only
      by_cases hend : depth = e.depth
      · subst hend
        rw [if_pos rfl]
        exact .inl ⟨text, _, rfl, finishes_close fault maxDepth rest⟩
      · rw [if_neg hend]
        exact hon text hread (fun _ ↦ by omega)
    · exact hon _ hread (fun hevent ↦ by simp at hevent)

/-- A call for the next child of an open element. -/
theorem nextChild_cases (hopen : e.closed = false) (hlevel : e.depth ≤ d.depth) :
    (e.nextChild d).Opens e d ∨ (e.nextChild d).Closes e d none ∨ (e.nextChild d).Fails e d := by
  unfold nextChild
  rw [hopen, if_neg (by simp)]
  exact seekChild_cases hlevel

/-- A call for the text of an open element. -/
theorem takeText_cases (hopen : e.closed = false) (hlevel : e.depth ≤ d.depth) :
    (∃ text, (e.takeText d).Closes e d text) ∨ (e.takeText d).Fails e d := by
  unfold takeText
  rw [hopen, if_neg (by simp)]
  exact gatherText_cases "" hlevel

/-- Passing over an open element. -/
theorem skip_cases (hopen : e.closed = false) (hlevel : e.depth ≤ d.depth) :
    (e.skip d).Closes e d () ∨ (e.skip d).Fails e d := by
  induction hsize : d.size using Nat.strongRecOn generalizing d with
  | ind size ih =>
    rw [skip_eq]
    rcases nextChild_cases hopen hlevel with hopens | hcloses | hfails
    · obtain ⟨tag, d', hcall, hdepth, hreaches⟩ := hopens
      have hlt : d'.size < size := by
        have hsmaller := e.nextChild_size_lt d (.opened tag (e.depth + 1)) (by rw [hcall])
        rwa [hcall, hsize] at hsmaller
      simp only [hcall]
      exact (ih d'.size hlt (by omega) rfl).imp (.of_reaches hreaches) (.of_reaches hreaches)
    · obtain ⟨d', hcall, hfinishes⟩ := hcloses
      simp only [hcall]
      exact .inl ⟨d', rfl, hfinishes⟩
    · obtain ⟨error, d', d'', hcall, hreaches, hstops⟩ := hfails
      simp only [hcall]
      exact .inr ⟨error, d', d'', rfl, hreaches, hstops⟩

end Element

end WireShapes.Wire
