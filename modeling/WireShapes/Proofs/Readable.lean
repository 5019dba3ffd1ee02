import WireShapes.Proofs.Readings
import WireShapes.Proofs.Scanning
import WireShapes.Proofs.Session

/-!
# Documents that can be read

A document is `Readable` if its root element can be passed over: no tag, attribute list or reference
up to its end is at fault, and elements nest no deeper than the document allows.  Then there is a
tree behind its tokens (`readable_iff`).  The reader of markup checks the names of end tags, so the
tokens are `Nested`; passing over the root visits them one by one, and the trees of the elements
that are open at one token come from those at the next.
-/

namespace WireShapes

open Xml (Token)

/-! ## Tokens in good order -/

namespace Xml

/-- Every end tag names the innermost of the open elements. -/
inductive Nested : (openNames : List (List Char)) → List Token → Prop
  | nil (names : List (List Char)) : Nested names []
  | start {names : List (List Char)} {rest : List Token} (tag : RawTag) :
      Nested (tag.name :: names) rest → Nested names (.start tag :: rest)
  | close {names : List (List Char)} {rest : List Token} (name : List Char) :
      Nested names rest → Nested (name :: names) (.close name :: rest)
  | text {names : List (List Char)} {rest : List Token} (raw : List Char) :
      Nested names rest → Nested names (.text raw :: rest)
  | cdata {names : List (List Char)} {rest : List Token} (raw : List Char) :
      Nested names rest → Nested names (.cdata raw :: rest)
  | aside {names : List (List Char)} {rest : List Token} :
      Nested names rest → Nested names (.aside :: rest)

/-- A step of the reader gives tokens in good order, and leaves the elements open that they do. -/
def Step.Keeps (names : List (List Char)) : Step → Prop
  | .go tokens next => ∀ rest, Nested next.openNames rest → Nested names (tokens ++ rest)
  | .stop tokens _ => Nested names tokens

namespace Scanner

variable {names : List (List Char)} {seen : List Char}

theorem keeps_same (stage : Stage) : (Step.go [] ⟨stage, names⟩).Keeps names :=
  fun _ h ↦ h

theorem keeps_aside : (Step.go [.aside] (resume names)).Keeps names :=
  fun _ h ↦ .aside h

theorem keeps_stop (fault : Option ScanFault) : (Step.stop [] fault).Keeps names :=
  .nil names

theorem nested_textTokens {rest : List Token} (seen : List Char) (h : Nested names rest) :
    Nested names (textTokens seen ++ rest) := by
  unfold textTokens
  split
  · exact h
  · exact .text _ h

theorem keeps_finishTag (seen : List Char) : (finishTag names seen).Keeps names := by
  unfold finishTag
  split
  · exact fun rest h ↦ .start _ (.close _ h)
  · exact fun rest h ↦ .start _ h

theorem keeps_tagStep (quote : Option Char) (seen : List Char) (c : Char) :
    (tagStep names quote seen c).Keeps names := by
  unfold tagStep
  split
  · exact keeps_same _
  · split
    · exact keeps_finishTag seen
    · split <;> exact keeps_same _

theorem keeps_finishClosing (seen : List Char) : (finishClosing names seen).Keeps names := by
  unfold finishClosing
  cases names with
  | nil => exact keeps_stop _
  | cons expected outer =>
    dsimp only
    split
    · rename_i hname
      exact fun rest h ↦ hname ▸ .close _ h
    · exact keeps_stop _

theorem keeps_finishInstruction (seen : List Char) :
    (finishInstruction names seen).Keeps names := by
  unfold finishInstruction
  split
  · exact keeps_aside
  · exact keeps_stop _

theorem keeps_finishComment (seen : List Char) : (finishComment names seen).Keeps names := by
  unfold finishComment
  split
  · exact keeps_aside
  · exact keeps_stop _

theorem keeps_finishCdata (seen : List Char) : (finishCdata names seen).Keeps names := by
  unfold finishCdata
  dsimp only
  split
  · exact fun rest h ↦ .cdata _ h
  · exact keeps_stop _

theorem keeps_finishDoctype (seen : List Char) : (finishDoctype names seen).Keeps names := by
  unfold finishDoctype
  dsimp only
  split
  · split
    · exact keeps_stop _
    · exact keeps_aside
  · exact keeps_stop _

theorem keeps_bangStep (c : Char) : (bangStep names c).Keeps names := by
  unfold bangStep
  repeat' split
  · exact keeps_same _
  · exact keeps_same _
  · exact keeps_same _
  · exact keeps_stop _

/-- One character. -/
theorem keeps_step (s : Scanner) (c : Char) : (s.step c).Keeps s.openNames := by
  obtain ⟨stage, names⟩ := s
  unfold step
  cases stage with
  | text seen =>
    dsimp only
    split
    · exact fun rest h ↦ nested_textTokens seen h
    · exact keeps_same _
  | opened =>
    dsimp only
    repeat' split
    · exact keeps_same _
    · exact keeps_same _
    · exact keeps_same _
    · exact keeps_tagStep none [] c
  | tag quote seen => exact keeps_tagStep quote seen c
  | closing seen =>
    dsimp only
    split
    · exact keeps_finishClosing seen
    · exact keeps_same _
  | instruction seen =>
    dsimp only
    split
    · exact keeps_finishInstruction seen
    · exact keeps_same _
  | bang => exact keeps_bangStep c
  | comment seen =>
    dsimp only
    split
    · exact keeps_finishComment seen
    · exact keeps_same _
  | cdata seen =>
    dsimp only
    split
    · exact keeps_finishCdata seen
    · exact keeps_same _
  | doctype balance seen =>
    dsimp only
    split
    · split
      · exact keeps_finishDoctype seen
      · exact keeps_same _
    · split <;> exact keeps_same _

theorem nested_closed {step : Step} (h : step.Keeps names) : Nested names (closed step).tokens := by
  cases step with
  | go tokens next => simpa [closed] using h [] (.nil _)
  | stop tokens fault => exact h

/-- The end of the input. -/
theorem nested_finish (s : Scanner) : Nested s.openNames s.finish.tokens := by
  obtain ⟨stage, names⟩ := s
  cases stage with
  | text seen => simpa [finish] using nested_textTokens seen (.nil names)
  | closing seen => exact nested_closed (keeps_finishClosing seen)
  | instruction seen => exact nested_closed (keeps_finishInstruction seen)
  | _ => exact .nil names

/-- A whole input. -/
theorem nested_run (s : Scanner) (cs : List Char) : Nested s.openNames (s.run cs).tokens := by
  induction cs generalizing s with
  | nil => exact s.nested_finish
  | cons c rest ih =>
    have hstep := s.keeps_step c
    cases hnext : s.step c with
    | go tokens next =>
      rw [hnext] at hstep
      rw [run_of_step hnext]
      exact hstep _ (ih next)
    | stop tokens fault =>
      rw [hnext] at hstep
      rw [run, hnext]
      exact hstep

end Scanner

theorem nested_ofChars (cs : List Char) : Nested [] (Stream.ofChars cs).tokens :=
  Scanner.nested_run (Scanner.resume []) _

/-! ## The elements that are open -/

/-- The tokens go on with the contents of the open elements, the innermost first, and their end
tags.  The contents can be read, and nest no deeper than allowed. -/
inductive Closes (maxDepth : Nat) : (openNames : List (List Char)) → List Token → Prop
  | nil (tail : List Token) : Closes maxDepth [] tail
  | cons {names : List (List Char)} {rest : List Token} {content : Content} {read : Wire.Content}
      (name : List Char) : content.read? = some read → names.length + 1 + read.depth ≤ maxDepth →
      Closes maxDepth names rest →
      Closes maxDepth (name :: names) (content.tokens ++ .close name :: rest)

namespace Closes

variable {maxDepth : Nat} {name : List Char} {names : List (List Char)} {rest : List Token}

theorem text {raw : List Char} {text : String} (hraw : expand raw = .ok text)
    (h : Closes maxDepth (name :: names) rest) :
    Closes maxDepth (name :: names) (.text raw :: rest) := by
  cases h with
  | @cons _ rest content read _ hread hdepth hrest =>
    have htext : (Content.text raw content).read? = some (.text text read) :=
      Content.read?_text_eq_some.mpr ⟨text, read, hraw, hread, rfl⟩
    exact .cons name htext hdepth hrest

theorem cdata (raw : List Char) (h : Closes maxDepth (name :: names) rest) :
    Closes maxDepth (name :: names) (.cdata raw :: rest) := by
  cases h with
  | @cons _ rest content read _ hread hdepth hrest =>
    have hcdata : (Content.cdata raw content).read? = some (.text (String.ofList raw) read) :=
      Content.read?_cdata_eq_some.mpr ⟨read, hread, rfl⟩
    exact .cons name hcdata hdepth hrest

theorem aside (h : Closes maxDepth (name :: names) rest) :
    Closes maxDepth (name :: names) (.aside :: rest) := by
  cases h with
  | @cons _ rest content read _ hread hdepth hrest =>
    have haside : (Content.aside content).read? = some read := hread
    exact .cons name haside hdepth hrest

theorem close (hroom : names.length + 1 ≤ maxDepth) (h : Closes maxDepth names rest) :
    Closes maxDepth (name :: names) (.close name :: rest) :=
  have hempty : Content.empty.read? = some .empty := rfl
  .cons name hempty hroom h

/-- A start tag opens an element with its content in front of that of the element around it. -/
theorem start {tag : RawTag} {start : Wire.StartTag} (htag : Wire.StartTag.ofRaw tag = .ok start)
    (h : Closes maxDepth (tag.name :: name :: names) rest) :
    Closes maxDepth (name :: names) (.start tag :: rest) := by
  cases h with
  | @cons _ outer inside below _ hbelow hinside houter =>
    cases houter with
    | @cons _ rest content read _ hread hdepth hrest =>
      have helement : (Content.element tag inside content).read? =
          some (.element start below read) :=
        Content.read?_element_eq_some.mpr ⟨start, below, read, htag, hbelow, hread, rfl⟩
      have hboth : names.length + 1 + (Wire.Content.element start below read).depth ≤
          maxDepth := by
        simp only [Wire.Content.depth, List.length_cons] at hinside ⊢
        omega
      have hcloses := Closes.cons name helement hboth hrest
      simpa [Content.tokens] using hcloses

end Closes

end Xml

/-! ## Passing over an element -/

namespace Wire

/-- The root element of a document can be passed over. -/
def Document.Readable (d : Document) : Prop :=
  ∃ root after, d.takeRoot = (.ok root, after) ∧ (root.skip after).answer = .ok ()

namespace Element

variable {e : Element} {d d' : Document} {fault : Option Xml.ScanFault} {depth maxDepth : Nat}
  {pieces : List Lexeme}

/-- Passing over an element takes its next child and goes on. -/
theorem skip_eq (e : Element) (d : Document) :
    e.skip d = match (e.nextChild d).answer with
      | .error error => ⟨.error error, (e.nextChild d).element, (e.nextChild d).document⟩
      | .ok none => ⟨.ok (), (e.nextChild d).element, (e.nextChild d).document⟩
      | .ok (some _) => (e.nextChild d).element.skip (e.nextChild d).document := by
  rw [skip]
  split <;> simp_all

/-- Passing over an element reads one piece after the other up to its end tag. -/
theorem skip_cons (hopen : e.closed = false) (piece : Lexeme) :
    e.skip ⟨piece :: pieces, fault, depth, maxDepth⟩ =
      match piece.read depth maxDepth with
      | (.error error, after) => ⟨.error error, e, ⟨pieces, fault, after, maxDepth⟩⟩
      | (.ok .close, after) =>
        if depth = e.depth then ⟨.ok (), e.close, ⟨pieces, fault, after, maxDepth⟩⟩
        else e.skip ⟨pieces, fault, after, maxDepth⟩
      | (.ok _, after) => e.skip ⟨pieces, fault, after, maxDepth⟩ := by
  have hnext (depth : Nat) : e.skip ⟨pieces, fault, depth, maxDepth⟩ =
      match (e.seekChild fault maxDepth depth pieces).answer with
      | .error error => ⟨.error error, (e.seekChild fault maxDepth depth pieces).element,
          (e.seekChild fault maxDepth depth pieces).document⟩
      | .ok none => ⟨.ok (), (e.seekChild fault maxDepth depth pieces).element,
          (e.seekChild fault maxDepth depth pieces).document⟩
      | .ok (some _) => (e.seekChild fault maxDepth depth pieces).element.skip
          (e.seekChild fault maxDepth depth pieces).document := by
    rw [skip_eq]
    simp only [nextChild, hopen, Bool.false_eq_true, if_false]
  rw [skip_eq]
  simp only [nextChild, hopen, Bool.false_eq_true, if_false, seekChild]
  obtain ⟨answer, after⟩ := piece.read depth maxDepth
  rcases answer with error | (tag | - | text)
  · rfl
  · by_cases hchild : after = e.depth + 1
    · simp [hchild]
    · simp only [hchild, if_false]
      exact (hnext after).symm
  · by_cases hend : depth = e.depth
    · simp [hend]
    · simp only [hend, if_false]
      exact (hnext after).symm
  · exact (hnext after).symm

theorem skip_nil (hopen : e.closed = false) :
    (e.skip ⟨[], fault, depth, maxDepth⟩).answer ≠ .ok () := by
  rw [skip_eq]
  simp [nextChild, hopen, seekChild]

/-- What a root element is passed over by closes the elements that are open. -/
theorem closes_of_skip (hopen : e.closed = false) (hroot : e.depth = 1) {tokens : List Token}
    {name : List Char} {names : List (List Char)} (hnested : Xml.Nested (name :: names) tokens)
    (hroom : names.length + 1 ≤ maxDepth)
    (h : (e.skip ⟨tokens.filterMap Lexeme.ofToken?, fault, names.length + 1, maxDepth⟩).answer =
      .ok ()) : Xml.Closes maxDepth (name :: names) tokens := by
  induction tokens generalizing name names with
  | nil => exact absurd h (skip_nil hopen)
  | cons token rest ih =>
    cases hnested with
    | text raw hrest =>
      simp only [List.filterMap_cons, Lexeme.ofToken?, skip_cons hopen] at h
      cases hraw : Xml.expand raw with
      | error fault => simp [hraw, Lexeme.read] at h
      | ok text =>
        simp only [hraw, Lexeme.read] at h
        exact (ih hrest hroom h).text hraw
    | cdata raw hrest =>
      simp only [List.filterMap_cons, Lexeme.ofToken?, skip_cons hopen] at h
      exact (ih hrest hroom h).cdata raw
    | aside hrest => exact (ih hrest hroom h).aside
    | close _ hrest =>
      simp only [List.filterMap_cons, Lexeme.ofToken?, skip_cons hopen] at h
      cases names with
      | nil => exact .close hroom (.nil rest)
      | cons outer names =>
        have hdeep : names.length + 1 + 1 ≠ 1 := by omega
        simp only [Lexeme.read, List.length_cons, hroot, hdeep, if_false] at h
        exact .close hroom (ih hrest (Nat.le_of_succ_le hroom) h)
    | start tag hrest =>
      simp only [List.filterMap_cons, Lexeme.ofToken?, skip_cons hopen] at h
      by_cases hfull : names.length + 1 = maxDepth
      · simp [Lexeme.read, hfull] at h
      · cases htag : StartTag.ofRaw tag with
        | error fault => simp [Lexeme.read, hfull, htag] at h
        | ok start =>
          simp only [Lexeme.read, hfull, htag, if_false] at h
          exact (ih hrest (by rw [List.length_cons]; omega) h).start htag

end Element

/-! ## Documents with a root -/

/-- The characters are those of a document with this root element, of which nothing is at fault and
which nests no deeper than documents usually may. -/
structure Rooted (cs : List Char) (written : Xml.Written) (root : Place) : Prop where
  tokens : (Xml.Stream.ofChars cs).tokens = written.tokens
  holds : written.root? = some root
  room : root.inside.depth < defaultMaxDepth

variable {cs : List Char} {written : Xml.Written} {root : Place} {fault : Option Xml.ScanFault}
  {maxDepth : Nat}

/-- The root element of a document, in front of everything inside it. -/
theorem Rooted.takeRoot (h : Rooted cs written root) :
    (Document.ofChars cs).takeRoot = (.ok (.opened root.tag 1),
      ⟨root.pieces, (Xml.Stream.ofChars cs).fault, 1, defaultMaxDepth⟩) := by
  obtain ⟨hprolog, -, -, -⟩ := Xml.Written.root?_eq_some h.holds
  have hseek := Document.seekRoot_prolog hprolog (Xml.Stream.ofChars cs).fault
    (Nat.zero_lt_of_lt h.room) root.tag root.pieces
  rw [← Xml.Written.filterMap_tokens h.holds, ← h.tokens] at hseek
  exact hseek

theorem Rooted.fresh (h : Rooted cs written root) (fault : Option Xml.ScanFault) :
    (Element.opened root.tag 1).Fresh root ⟨root.pieces, fault, 1, defaultMaxDepth⟩ where
  start := rfl
  opened := rfl
  pending := rfl
  depth := rfl
  room := by
    have hroom := h.room
    show 1 + root.inside.depth ≤ defaultMaxDepth
    omega

/-- The root element that is found stands behind tokens that are no tags. -/
theorem exists_of_seekRoot {tokens : List Token} (hnested : Xml.Nested [] tokens) {e : Element}
    {d : Document}
    (h : Document.seekRoot fault maxDepth 0 (tokens.filterMap Lexeme.ofToken?) = (.ok e, d)) :
    ∃ prolog tag start rest, tokens = prolog ++ .start tag :: rest ∧
      prolog.all Token.isPlain = true ∧ StartTag.ofRaw tag = .ok start ∧
      Xml.Nested [tag.name] rest ∧ e = .opened start 1 ∧
      d = ⟨rest.filterMap Lexeme.ofToken?, fault, 1, maxDepth⟩ := by
  induction tokens with
  | nil => simp [Document.seekRoot] at h
  | cons token rest ih =>
    cases hnested with
    | text raw hrest =>
      cases hraw : Xml.expand raw with
      | error fault => simp [Lexeme.ofToken?, Document.seekRoot, Lexeme.read, hraw] at h
      | ok text =>
        simp only [List.filterMap_cons, Lexeme.ofToken?, Document.seekRoot, Lexeme.read, hraw] at h
        obtain ⟨prolog, tag, start, later, rfl, hprolog, hroot⟩ := ih hrest h
        exact ⟨.text raw :: prolog, tag, start, later, rfl,
          by simpa [Token.isPlain, hraw, Except.toOption] using hprolog, hroot⟩
    | cdata raw hrest =>
      simp only [List.filterMap_cons, Lexeme.ofToken?, Document.seekRoot, Lexeme.read] at h
      obtain ⟨prolog, tag, start, later, rfl, hprolog, hroot⟩ := ih hrest h
      exact ⟨.cdata raw :: prolog, tag, start, later, rfl,
        by simpa [Token.isPlain] using hprolog, hroot⟩
    | aside hrest =>
      obtain ⟨prolog, tag, start, later, rfl, hprolog, hroot⟩ := ih hrest h
      exact ⟨.aside :: prolog, tag, start, later, rfl,
        by simpa [Token.isPlain] using hprolog, hroot⟩
    | start tag hrest =>
      simp only [List.filterMap_cons, Lexeme.ofToken?, Document.seekRoot, Lexeme.read] at h
      by_cases hroom : 0 = maxDepth
      · simp [hroom] at h
      · cases htag : StartTag.ofRaw tag with
        | error fault => simp [hroom, htag] at h
        | ok start =>
          simp only [hroom, htag, if_false] at h
          obtain ⟨heq, rfl⟩ := Prod.mk.inj h
          exact ⟨[], tag, start, rest, rfl, rfl, htag, hrest, (Except.ok.inj heq).symm, rfl⟩

/-- A document can be read exactly if it has a root element of which nothing is at fault. -/
theorem readable_iff :
    (Document.ofChars cs).Readable ↔ ∃ written root, Rooted cs written root := by
  constructor
  · rintro ⟨e, d, htake, hskip⟩
    obtain ⟨prolog, tag, start, rest, htokens, hprolog, htag, hnested, rfl, rfl⟩ :=
      exists_of_seekRoot (Xml.nested_ofChars cs) htake
    have hcloses : Xml.Closes defaultMaxDepth [tag.name] rest :=
      Element.closes_of_skip rfl rfl hnested (by decide) hskip
    cases hcloses with
    | @cons _ epilog content read _ hread hdepth _ =>
      refine ⟨⟨prolog, tag, content, epilog⟩, _,
        htokens, Xml.Written.root?_of hprolog htag hread, ?_⟩
      have hroom : 0 + 1 + read.depth ≤ defaultMaxDepth := hdepth
      show read.depth < defaultMaxDepth
      omega
  · rintro ⟨written, root, hrooted⟩
    refine ⟨_, _, hrooted.takeRoot, ?_⟩
    rw [(hrooted.fresh _).stands.skip]

end Wire

end WireShapes
