import WireShapes.Proofs.Assembly
import WireShapes.Proofs.Roles

/-!
# Documents read in lockstep

Two documents are `Paired` if they have the same pieces but for start tags, and start tags of the
same name in which the role of the element finds the same attributes.  The roles of the open
elements are kept on a stack while the pieces go by.  Decoders do the same to paired documents,
errors included: both fail with one error, or both succeed, with one value, and leave paired
documents (`InStep`).  Nothing is asked of the documents otherwise; they may end inside an element
or have faults.
-/

namespace WireShapes.Bindings

open Wire (Call Document Element Event Lexeme Reading StartTag TagFault DecodeError)
open Code (Ident)

/-! ## Paired documents -/

/-- How an element is read that stands inside elements read in some roles, innermost first; outside
all of them it is read as the root is. -/
def Role.below (b : Bindings) (root : Role) (roles : List Role) (name : Xml.Name) : Role :=
  roles.head?.elim root fun role ↦ role.child b name

/-- The tags of an element that is read in a role give the same name and attributes. -/
structure TagsPaired (b : Bindings) (role : Role) (tag tag' : StartTag) : Prop where
  name : tag.name = tag'.name
  get? : ∀ pattern ∈ role.attributes b, tag.get? pattern = tag'.get? pattern

/-- The pieces to be read inside elements of some roles are paired.  Nothing is read behind a tag
with a fault. -/
inductive Paired (b : Bindings) (root : Role) : List Role → List Lexeme → List Lexeme → Prop
  | nil {roles : List Role} : Paired b root roles [] []
  | start {roles : List Role} {tag tag' : StartTag} {rest rest' : List Lexeme} :
      TagsPaired b (Role.below b root roles tag.name) tag tag' →
      Paired b root (Role.below b root roles tag.name :: roles) rest rest' →
      Paired b root roles (.start (.ok tag) :: rest) (.start (.ok tag') :: rest')
  | fault {roles : List Role} (fault : TagFault) (rest rest' : List Lexeme) :
      Paired b root roles (.start (.error fault) :: rest) (.start (.error fault) :: rest')
  | close {roles : List Role} {rest rest' : List Lexeme} : Paired b root roles.tail rest rest' →
      Paired b root roles (.close :: rest) (.close :: rest')
  | text {roles : List Role} {rest rest' : List Lexeme}
      (content : Except Xml.ReferenceFault String) : Paired b root roles rest rest' →
      Paired b root roles (.text content :: rest) (.text content :: rest')

/-- Documents at a point where the open elements are read in some roles, innermost first. -/
structure DocumentsPaired (b : Bindings) (root : Role) (roles : List Role) (d d' : Document) :
    Prop where
  pending : Paired b root roles d.pending d'.pending
  fault : d.fault = d'.fault
  maxDepth : d.maxDepth = d'.maxDepth
  depth : d.depth = roles.length
  depth' : d'.depth = roles.length

/-- Two open elements that are read in a role, inside elements of other roles. -/
structure ElementsPaired (b : Bindings) (role : Role) (outer : List Role) (e e' : Element) :
    Prop where
  tags : TagsPaired b role e.start e'.start
  depth : e.depth = outer.length + 1
  depth' : e'.depth = outer.length + 1
  opened : e.closed = false
  opened' : e'.closed = false

variable {b : Bindings} {root role : Role} {outer more roles : List Role} {e e' : Element}
  {d d' : Document}

namespace ElementsPaired

theorem name (he : ElementsPaired b role outer e e') : e.name = e'.name := by
  rw [Element.name, he.tags.name, Element.name]

theorem matchesPattern (he : ElementsPaired b role outer e e') (pattern : String) :
    e.start.matchesPattern pattern = e'.start.matchesPattern pattern := by
  rw [StartTag.matchesPattern, he.tags.name, StartTag.matchesPattern]

theorem armFor {α : Type} (he : ElementsPaired b role outer e e') (pattern : α → String)
    (arms : List α) : armFor pattern arms e.start = armFor pattern arms e'.start := by
  unfold Bindings.armFor
  simp only [he.matchesPattern]

theorem expect (he : ElementsPaired b role outer e e') (pattern : String) :
    e.expect pattern = e'.expect pattern := by
  rw [Element.expect, he.matchesPattern, he.name, Element.expect]

end ElementsPaired

/-! ## One piece in both documents -/

/-- What reading one piece comes to in both documents, with the pieces behind it. -/
inductive ReadPaired (b : Bindings) (root : Role) (roles : List Role) (rest rest' : List Lexeme) :
    Except DecodeError Event × Nat → Except DecodeError Event × Nat → Prop
  | fails (error : DecodeError) (after : Nat) :
      ReadPaired b root roles rest rest' (.error error, after) (.error error, after)
  | start {tag tag' : StartTag} : TagsPaired b (Role.below b root roles tag.name) tag tag' →
      Paired b root (Role.below b root roles tag.name :: roles) rest rest' →
      ReadPaired b root roles rest rest' (.ok (.start tag), roles.length + 1)
        (.ok (.start tag'), roles.length + 1)
  | close : Paired b root roles.tail rest rest' →
      ReadPaired b root roles rest rest' (.ok .close, roles.length - 1)
        (.ok .close, roles.length - 1)
  | text (content : String) : Paired b root roles rest rest' →
      ReadPaired b root roles rest rest' (.ok (.text content), roles.length)
        (.ok (.text content), roles.length)

theorem Paired.read {piece piece' : Lexeme} {rest rest' : List Lexeme}
    (h : Paired b root roles (piece :: rest) (piece' :: rest')) (maxDepth : Nat) :
    ReadPaired b root roles rest rest' (piece.read roles.length maxDepth)
      (piece'.read roles.length maxDepth) := by
  unfold Lexeme.read
  cases h with
  | start htags hrest =>
    by_cases hdeep : roles.length = maxDepth
    · simpa only [if_pos hdeep] using ReadPaired.fails _ _
    · simpa only [if_neg hdeep] using ReadPaired.start htags hrest
  | fault fault =>
    by_cases hdeep : roles.length = maxDepth
    · simpa only [if_pos hdeep] using ReadPaired.fails _ _
    · simpa only [if_neg hdeep] using ReadPaired.fails _ _
  | close hrest => exact .close hrest
  | text content hrest =>
    cases content with
    | error fault => exact .fails _ _
    | ok content => exact .text content hrest

/-! ## Calls on elements -/

/-- Elements that are open inside an element make the document deeper than the element. -/
theorem depth_ne_of_inner (hdepth : e.depth = outer.length + 1) (inner : Role) :
    (inner :: more ++ role :: outer).length ≠ e.depth := by
  simp only [hdepth, List.cons_append, List.length_cons, List.length_append]
  omega

/-- What the search for a next child comes to in both documents. -/
inductive NextPaired (b : Bindings) (root role : Role) (outer : List Role) (e e' : Element) :
    Call (Option Element) → Call (Option Element) → Prop
  | fails (error : DecodeError) (d d' : Document) :
      NextPaired b root role outer e e' ⟨.error error, e, d⟩ ⟨.error error, e', d'⟩
  | opens {child child' : Element} {d d' : Document} :
      ElementsPaired b (role.child b child.start.name) (role :: outer) child child' →
      DocumentsPaired b root (role.child b child.start.name :: role :: outer) d d' →
      NextPaired b root role outer e e' ⟨.ok (some child), e, d⟩ ⟨.ok (some child'), e', d'⟩
  | closes {d d' : Document} : DocumentsPaired b root outer d d' →
      NextPaired b root role outer e e' ⟨.ok none, e.close, d⟩ ⟨.ok none, e'.close, d'⟩

/-- The induction is on the pieces; elements that are open inside the element are on the stack above
its role. -/
theorem nextPaired_seekChild (he : ElementsPaired b role outer e e') {pieces pieces' : List Lexeme}
    (h : Paired b root (more ++ role :: outer) pieces pieces') (fault : Option Xml.ScanFault)
    (maxDepth : Nat) :
    NextPaired b root role outer e e'
      (e.seekChild fault maxDepth (more ++ role :: outer).length pieces)
      (e'.seekChild fault maxDepth (more ++ role :: outer).length pieces') := by
  induction pieces generalizing more pieces' with
  | nil =>
    cases h
    unfold Element.seekChild Element.unterminated
    rw [he.name]
    exact .fails _ _ _
  | cons piece rest ih =>
    cases pieces' with
    | nil => cases h
    | cons piece' rest' =>
      have hread := h.read maxDepth
      unfold Element.seekChild
      generalize piece.read (more ++ role :: outer).length maxDepth = result at hread ⊢
      generalize piece'.read (more ++ role :: outer).length maxDepth = result' at hread ⊢
      cases hread with
      | fails error after => exact .fails _ _ _
      | start htags hrest =>
        cases more with
        | nil =>
          have hchild : (role :: outer).length + 1 = e.depth + 1 := by rw [he.depth]; rfl
          have hchild' : (role :: outer).length + 1 = e'.depth + 1 := by rw [he.depth']; rfl
          simp only [List.nil_append, if_pos hchild, if_pos hchild']
          exact .opens ⟨htags, rfl, rfl, rfl, rfl⟩ ⟨hrest, rfl, rfl, rfl, rfl⟩
        | cons inner more =>
          simp only [Nat.add_right_cancel_iff, if_neg (depth_ne_of_inner he.depth inner),
            if_neg (depth_ne_of_inner he.depth' inner)]
          exact @ih (_ :: inner :: more) _ hrest
      | close hrest =>
        cases more with
        | nil =>
          have hend : (role :: outer).length = e.depth := by rw [he.depth]; rfl
          have hend' : (role :: outer).length = e'.depth := by rw [he.depth']; rfl
          simp only [List.nil_append, if_pos hend, if_pos hend']
          exact .closes ⟨hrest, rfl, rfl, rfl, rfl⟩
        | cons inner more =>
          simp only [if_neg (depth_ne_of_inner he.depth inner),
            if_neg (depth_ne_of_inner he.depth' inner)]
          exact ih hrest
      | text content hrest => exact ih hrest

theorem nextPaired_nextChild (he : ElementsPaired b role outer e e')
    (hd : DocumentsPaired b root (more ++ role :: outer) d d') :
    NextPaired b root role outer e e' (e.nextChild d) (e'.nextChild d') := by
  unfold Element.nextChild
  rw [he.opened, he.opened', if_neg (by simp), if_neg (by simp), hd.depth, hd.depth', ← hd.fault,
    ← hd.maxDepth]
  exact nextPaired_seekChild he hd.pending _ _

/-- What gathering a text comes to in both documents. -/
inductive TextPaired (b : Bindings) (root : Role) (outer : List Role) :
    Call String → Call String → Prop
  | fails (error : DecodeError) (e e' : Element) (d d' : Document) :
      TextPaired b root outer ⟨.error error, e, d⟩ ⟨.error error, e', d'⟩
  | closes (text : String) (e e' : Element) {d d' : Document} : DocumentsPaired b root outer d d' →
      TextPaired b root outer ⟨.ok text, e, d⟩ ⟨.ok text, e', d'⟩

theorem textPaired_gatherText (he : ElementsPaired b role outer e e')
    {pieces pieces' : List Lexeme} (h : Paired b root (more ++ role :: outer) pieces pieces')
    (fault : Option Xml.ScanFault) (maxDepth : Nat) (text : String) :
    TextPaired b root outer
      (e.gatherText fault maxDepth text (more ++ role :: outer).length pieces)
      (e'.gatherText fault maxDepth text (more ++ role :: outer).length pieces') := by
  induction pieces generalizing more pieces' text with
  | nil =>
    cases h
    unfold Element.gatherText Element.unterminated
    rw [he.name]
    exact .fails _ _ _ _ _
  | cons piece rest ih =>
    cases pieces' with
    | nil => cases h
    | cons piece' rest' =>
      have hread := h.read maxDepth
      unfold Element.gatherText
      generalize piece.read (more ++ role :: outer).length maxDepth = result at hread ⊢
      generalize piece'.read (more ++ role :: outer).length maxDepth = result' at hread ⊢
      cases hread with
      | fails error after => exact .fails _ _ _ _ _
      | start htags hrest => exact @ih (_ :: more) _ hrest text
      | close hrest =>
        cases more with
        | nil =>
          have hend : (role :: outer).length = e.depth := by rw [he.depth]; rfl
          have hend' : (role :: outer).length = e'.depth := by rw [he.depth']; rfl
          simp only [List.nil_append, if_pos hend, if_pos hend']
          exact .closes _ _ _ ⟨hrest, rfl, rfl, rfl, rfl⟩
        | cons inner more =>
          simp only [if_neg (depth_ne_of_inner he.depth inner),
            if_neg (depth_ne_of_inner he.depth' inner)]
          exact ih hrest text
      | text content hrest =>
        rw [he.depth, he.depth']
        exact ih hrest _

theorem textPaired_takeText (he : ElementsPaired b role outer e e')
    (hd : DocumentsPaired b root (more ++ role :: outer) d d') :
    TextPaired b root outer (e.takeText d) (e'.takeText d') := by
  unfold Element.takeText
  rw [he.opened, he.opened', if_neg (by simp), if_neg (by simp), hd.depth, hd.depth', ← hd.fault,
    ← hd.maxDepth]
  exact textPaired_gatherText he hd.pending _ _ _

/-! ## Readings in step -/

/-- Two readings come to the same on paired documents inside an element that is read in a role: to
one error, or to one value and paired documents that are still inside what is around the element. -/
structure InStep {α : Type} (b : Bindings) (root role : Role) (outer : List Role)
    (r r' : Reading α) : Prop where
  answer : ∀ {more : List Role} {d d' : Document},
    DocumentsPaired b root (more ++ role :: outer) d d' → (r d).answer = (r' d').answer
  rest : ∀ {more : List Role} {d d' : Document},
    DocumentsPaired b root (more ++ role :: outer) d d' → ∀ a, (r d).answer = .ok a →
      ∃ inner, DocumentsPaired b root (inner ++ outer) (r d).rest (r' d').rest

namespace InStep

variable {α β σ : Type} {r r' : Reading α}

theorem give (answer : Except DecodeError α) :
    InStep b root role outer (Reading.give answer) (Reading.give answer) where
  answer _ := rfl
  rest {more _ _} hd _ _ := ⟨more ++ [role], by rwa [List.append_assoc]⟩

theorem fail (error : DecodeError) :
    InStep b root role outer (Reading.fail error : Reading α) (Reading.fail error) :=
  give (.error error)

theorem text (he : ElementsPaired b role outer e e') :
    InStep b root role outer e.text e'.text where
  answer {more d d'} hd := by
    have hcall := textPaired_takeText he hd
    show (e.takeText d).answer = (e'.takeText d').answer
    generalize e.takeText d = call at hcall ⊢
    generalize e'.takeText d' = call' at hcall ⊢
    cases hcall <;> rfl
  rest {more d d'} hd text htext := by
    have hcall := textPaired_takeText he hd
    replace htext : (e.takeText d).answer = .ok text := htext
    show ∃ inner, DocumentsPaired b root (inner ++ outer) (e.takeText d).document
      (e'.takeText d').document
    generalize e.takeText d = call at hcall htext ⊢
    generalize e'.takeText d' = call' at hcall ⊢
    cases hcall with
    | fails error => simp at htext
    | closes text e e' hrest => exact ⟨[], hrest⟩

/-- Going on with an answer. -/
theorem then_give (h : InStep b root role outer r r') (answer : α → Except DecodeError β) :
    InStep b root role outer (r >>= fun a ↦ Reading.give (answer a))
      (r' >>= fun a ↦ Reading.give (answer a)) where
  answer hd := by rw [Reading.bind_give, Reading.bind_give, h.answer hd]
  rest {more d d'} hd c hc := by
    rw [Reading.bind_give] at hc
    obtain ⟨a, ha, -⟩ := Failing.bind_eq_ok.mp hc
    obtain ⟨inner, hrest⟩ := h.rest hd a ha
    have ha' : (r' d').answer = .ok a := by rw [← h.answer hd, ha]
    refine ⟨inner, ?_⟩
    rw [(Reading.bind_answer _ _ _).2, (Reading.bind_answer _ _ _).2, ha, ha']
    exact hrest

theorem then_pure (h : InStep b root role outer r r') (g : α → β) :
    InStep b root role outer (r >>= fun a ↦ pure (g a)) (r' >>= fun a ↦ pure (g a)) :=
  h.then_give fun a ↦ .ok (g a)

/-- Going on in some other way that only gives an answer. -/
theorem then_answer {next : α → Reading β} (h : InStep b root role outer r r')
    (answer : α → Except DecodeError β) (hnext : ∀ a, next a = Reading.give (answer a)) :
    InStep b root role outer (r >>= next) (r' >>= next) := by
  obtain rfl : next = fun a ↦ Reading.give (answer a) := funext hnext
  exact h.then_give answer

/-- Going on from an answer. -/
theorem after_give {answer : Except DecodeError α} {next next' : α → Reading β}
    (h : ∀ a, answer = .ok a → InStep b root role outer (next a) (next' a)) :
    InStep b root role outer (Reading.give answer >>= next) (Reading.give answer >>= next') := by
  cases answer with
  | error error => exact fail error
  | ok a => exact h a rfl

/-- Folds over children are in step if their steps are, on every two paired children. -/
theorem fold {step step' : σ → Element → Reading σ} (he : ElementsPaired b role outer e e')
    (hsteps : ∀ (s : σ) (child child' : Element),
      ElementsPaired b (role.child b child.start.name) (role :: outer) child child' →
      InStep b root (role.child b child.start.name) (role :: outer) (step s child)
        (step' s child')) (s : σ) :
    InStep b root role outer (e.foldChildren step s) (e'.foldChildren step' s) := by
  -- By induction on the pieces left: a child takes its start tag from the document.
  have hrun (more : List Role) (d d' : Document) (s : σ)
      (hd : DocumentsPaired b root (more ++ role :: outer) d d') :
      (e.foldChildren step s d).answer = (e'.foldChildren step' s d').answer ∧
        ∀ t, (e.foldChildren step s d).answer = .ok t →
          DocumentsPaired b root outer (e.foldChildren step s d).rest
            (e'.foldChildren step' s d').rest := by
    induction hsize : d.size using Nat.strongRecOn generalizing more d d' s with
    | ind size ih =>
      have hsmaller := e.nextChild_size_lt d
      have hnext := nextPaired_nextChild he hd
      generalize hcall : e.nextChild d = call at hnext hsmaller
      generalize hcall' : e'.nextChild d' = call' at hnext
      cases hnext with
      | fails error =>
        obtain ⟨hanswer, -⟩ := Element.foldChildren_of_fails step s hcall
        obtain ⟨hanswer', -⟩ := Element.foldChildren_of_fails step' s hcall'
        rw [hanswer, hanswer']
        exact ⟨rfl, fun t ht ↦ by simp at ht⟩
      | closes hrest =>
        obtain ⟨hanswer, hleft⟩ := Element.foldChildren_of_closes step s hcall
        obtain ⟨hanswer', hleft'⟩ := Element.foldChildren_of_closes step' s hcall'
        rw [hanswer, hanswer', hleft, hleft']
        exact ⟨rfl, fun _ _ ↦ hrest⟩
      | @opens child child' below below' hchild hbelow =>
        obtain ⟨hsame, hafter⟩ := hsteps s child child' hchild
        have hread := @hsame [] _ _ hbelow
        cases hstep : (step s child below).answer with
        | error error =>
          obtain ⟨hanswer, -⟩ := Element.foldChildren_of_step_fails step s hcall hstep
          obtain ⟨hanswer', -⟩ :=
            Element.foldChildren_of_step_fails step' s hcall' (hread.symm.trans hstep)
          rw [hanswer, hanswer']
          exact ⟨rfl, fun t ht ↦ by simp at ht⟩
        | ok t =>
          obtain ⟨hanswer, hleft⟩ := Element.foldChildren_of_opens step s hcall hstep
          obtain ⟨hanswer', hleft'⟩ :=
            Element.foldChildren_of_opens step' s hcall' (hread.symm.trans hstep)
          obtain ⟨inner, hlater⟩ := @hafter [] _ _ hbelow t hstep
          have hlt : (step s child below).rest.size < size :=
            Nat.lt_of_le_of_lt (step s child below).size_le (hsize ▸ hsmaller child rfl)
          rw [hanswer, hanswer', hleft, hleft']
          exact ih _ hlt inner _ _ t hlater rfl
  exact ⟨fun hd ↦ (hrun _ _ _ s hd).1, fun hd t ht ↦ ⟨[], (hrun _ _ _ s hd).2 t ht⟩⟩

/-- The first child whose name a test accepts is handed out of both documents, or of neither. -/
theorem firstChild_cases {accept : StartTag → Bool}
    (haccept : ∀ tag tag', tag.name = tag'.name → accept tag = accept tag')
    (he : ElementsPaired b role outer e e')
    (hd : DocumentsPaired b root (more ++ role :: outer) d d') :
    (∃ error, (e.firstChild accept d).answer = .error error ∧
      (e'.firstChild accept d').answer = .error error) ∨
    ((e.firstChild accept d).answer = .ok none ∧ (e'.firstChild accept d').answer = .ok none) ∨
    ∃ child child', (e.firstChild accept d).answer = .ok (some child) ∧
      (e'.firstChild accept d').answer = .ok (some child') ∧ accept child.start = true ∧
      ElementsPaired b (role.child b child.start.name) (role :: outer) child child' ∧
      DocumentsPaired b root (role.child b child.start.name :: role :: outer)
        (e.firstChild accept d).rest (e'.firstChild accept d').rest := by
  induction hsize : d.size using Nat.strongRecOn generalizing more d d' with
  | ind size ih =>
    have hsmaller := e.nextChild_size_lt d
    have hnext := nextPaired_nextChild he hd
    generalize hcall : e.nextChild d = call at hnext hsmaller
    generalize hcall' : e'.nextChild d' = call' at hnext
    cases hnext with
    | fails error =>
      obtain ⟨hanswer, -⟩ := Element.firstChild_of_fails hcall
      obtain ⟨hanswer', -⟩ := Element.firstChild_of_fails hcall'
      exact .inl ⟨error, hanswer, hanswer'⟩
    | closes =>
      obtain ⟨hanswer, -⟩ := Element.firstChild_of_closes hcall
      obtain ⟨hanswer', -⟩ := Element.firstChild_of_closes hcall'
      exact .inr (.inl ⟨hanswer, hanswer'⟩)
    | @opens child child' below below' hchild hbelow =>
      have hname := haccept _ _ hchild.tags.name
      cases htest : accept child.start with
      | true =>
        obtain ⟨hanswer, hrest⟩ := Element.firstChild_of_accepted hcall htest
        obtain ⟨hanswer', hrest'⟩ :=
          Element.firstChild_of_accepted hcall' (hname.symm.trans htest)
        refine .inr (.inr ⟨child, child', hanswer, hanswer', htest, hchild, ?_⟩)
        rw [hrest, hrest']
        exact hbelow
      | false =>
        obtain ⟨hanswer, hrest⟩ := Element.firstChild_of_passed hcall htest
        obtain ⟨hanswer', hrest'⟩ := Element.firstChild_of_passed hcall' (hname.symm.trans htest)
        rw [hanswer, hanswer', hrest, hrest']
        exact @ih _ (hsize ▸ hsmaller child rfl) [_] _ _ hbelow rfl

/-- Going on with the first child whose name a test accepts, if there is one. -/
theorem firstChild {accept : StartTag → Bool} {next next' : Option Element → Reading α}
    {error : DecodeError} (he : ElementsPaired b role outer e e')
    (haccept : ∀ tag tag', tag.name = tag'.name → accept tag = accept tag')
    (hnone : next none = Reading.fail error) (hnone' : next' none = Reading.fail error)
    (hsome : ∀ child child', accept child.start = true →
      ElementsPaired b (role.child b child.start.name) (role :: outer) child child' →
      InStep b root (role.child b child.start.name) (role :: outer) (next (some child))
        (next' (some child'))) :
    InStep b root role outer (e.firstChild accept >>= next)
      (e'.firstChild accept >>= next') where
  answer {_ d d'} hd := by
    rw [(Reading.bind_answer _ _ _).1, (Reading.bind_answer _ _ _).1]
    rcases firstChild_cases haccept he hd with ⟨reason, hfails, hfails'⟩ | ⟨hpassed, hpassed'⟩ |
      ⟨child, child', hfound, hfound', hname, hchild, hbelow⟩
    · rw [hfails, hfails']
    · rw [hpassed, hpassed']
      simp only [hnone, hnone']
      rfl
    · rw [hfound, hfound']
      obtain ⟨hsame, -⟩ := hsome child child' hname hchild
      exact @hsame [] _ _ hbelow
  rest {_ d d'} hd a := by
    rw [(Reading.bind_answer _ _ _).1, (Reading.bind_answer _ _ _).2, (Reading.bind_answer _ _ _).2]
    rcases firstChild_cases haccept he hd with ⟨reason, hfails, hfails'⟩ | ⟨hpassed, hpassed'⟩ |
      ⟨child, child', hfound, hfound', hname, hchild, hbelow⟩
    · simp [hfails]
    · simp [hpassed, hnone, Reading.fail, Reading.give]
    · rw [hfound, hfound']
      intro ha
      obtain ⟨-, hafter⟩ := hsome child child' hname hchild
      obtain ⟨inner, hrest⟩ := @hafter [] _ _ hbelow a ha
      exact ⟨inner ++ [role], by rwa [List.append_assoc]⟩

end InStep

end WireShapes.Bindings
