import WireShapes.Proofs.Calls
import WireShapes.Proofs.ShowcaseDecoders
import WireShapes.Proofs.Swapping

/-!
# Documents that are cut off

What is decoded of a document is nothing unless its root element is read to its end: a document cut
off before the end of its root's end tag does not decode, wherever the cut falls, be it inside a
character.  There is one exception: the reader takes an end tag for finished at the end of the input,
so a document that lacks no more than blanks and the last `>` of its root's end tag decodes as if it
were whole.
-/

namespace WireShapes

/-! ## Cuts of bytes and of characters -/

namespace Text.Utf8

/-- What bytes before a cut are read as: a fault, or the characters before it, if the bytes behind
the cut are characters of their own. -/
def CutsOff (read : Except Fault (List Char)) (more : List UInt8) (cs : List Char) : Prop :=
  (∃ fault, read = .error fault) ∨
    ∃ before after index, read = .ok before ∧ decodeFrom index more = .ok after ∧
      cs = before ++ after

theorem CutsOff.cons {read : Except Fault (List Char)} {more : List UInt8} {cs : List Char}
    (c : Char) (h : CutsOff read more cs) : CutsOff ((c :: ·) <$> read) more (c :: cs) := by
  rcases h with ⟨fault, rfl⟩ | ⟨before, after, index, rfl, hafter, rfl⟩
  · exact .inl ⟨fault, rfl⟩
  · exact .inr ⟨c :: before, after, index, rfl, hafter, rfl⟩

/-- Bytes that are cut off are not UTF-8, or the characters before the cut. -/
theorem cutsOff_decodeFrom {index : Nat} {cut more : List UInt8} {cs : List Char}
    (h : decodeFrom index (cut ++ more) = .ok cs) : CutsOff (decodeFrom index cut) more cs := by
  fun_induction decodeFrom index cut generalizing cs with
  | case1 index => exact .inr ⟨[], cs, index, rfl, h, rfl⟩
  | case3 index a rest hlead ih =>
    rw [List.cons_append] at h
    unfold decodeFrom at h
    simp only [hlead] at h
    obtain ⟨later, hlater, rfl⟩ := Failing.map_eq_ok.mp h
    exact (ih hlater).cons _
  | case5 index a hlead b rest hb ih =>
    rw [List.cons_append, List.cons_append] at h
    unfold decodeFrom at h
    simp only [hlead, hb, if_true] at h
    obtain ⟨later, hlater, rfl⟩ := Failing.map_eq_ok.mp h
    exact (ih hlater).cons _
  | case9 index a low high hlead b hb c rest hc ih =>
    rw [List.cons_append, List.cons_append, List.cons_append] at h
    unfold decodeFrom at h
    simp only [hlead, hb, hc, if_true] at h
    obtain ⟨later, hlater, rfl⟩ := Failing.map_eq_ok.mp h
    exact (ih hlater).cons _
  | case15 index a low high hlead b hb c hc d rest hd ih =>
    rw [List.cons_append, List.cons_append, List.cons_append, List.cons_append] at h
    unfold decodeFrom at h
    simp only [hlead, hb, hc, hd, if_true] at h
    obtain ⟨later, hlater, rfl⟩ := Failing.map_eq_ok.mp h
    exact (ih hlater).cons _
  | _ => exact .inl ⟨_, rfl⟩

/-- Bytes give at least one character. -/
theorem decodeFrom_eq_nil {index : Nat} {bytes : List UInt8}
    (h : decodeFrom index bytes = .ok []) : bytes = [] := by
  fun_induction decodeFrom index bytes with
  | case1 => rfl
  | case3 | case5 | case9 | case15 =>
    obtain ⟨later, -, hcons⟩ := Failing.map_eq_ok.mp h
    simp at hcons
  | _ => simp at h

/-- Bytes cut off are not UTF-8, or fewer characters. -/
theorem decode_of_isPrefix {cut bytes : List UInt8} {cs : List Char}
    (h : decode bytes = .ok cs) (hcut : cut <+: bytes) (hne : cut ≠ bytes) :
    (∃ fault, decode cut = .error fault) ∨
      ∃ before after, decode cut = .ok before ∧ cs = before ++ after ∧ after ≠ [] := by
  obtain ⟨more, rfl⟩ := hcut
  rcases cutsOff_decodeFrom h with hfault | ⟨before, after, index, hbefore, hafter, rfl⟩
  · exact .inl hfault
  · refine .inr ⟨before, after, hbefore, rfl, ?_⟩
    rintro rfl
    exact hne (by rw [decodeFrom_eq_nil hafter, List.append_nil])

end Text.Utf8

namespace Xml

/-! ## The end of an input -/

/-- A step that leaves the reader behind a piece of markup completes a token. -/
def Step.Completes : Step → Prop
  | .go tokens next => next.stage = .text [] → tokens ≠ []
  | .stop _ _ => True

namespace Scanner

variable {s next : Scanner} {tokens : List Token} {names : List (List Char)}
  {seen cs : List Char}

/-- Two parts of an input are read one after the other. -/
theorem exists_reads_of_append {before after : List Char}
    (h : s.reads (before ++ after) = some (tokens, next)) :
    ∃ first middle later, s.reads before = some (first, middle) ∧
      middle.reads after = some (later, next) ∧ tokens = first ++ later := by
  induction before generalizing s tokens with
  | nil => exact ⟨[], s, tokens, rfl, h, rfl⟩
  | cons c before ih =>
    rw [List.cons_append] at h
    obtain ⟨first, between, later, hstep, hlater, rfl⟩ := reads_cons_eq_some h
    obtain ⟨second, middle, last, hsecond, hlast, rfl⟩ := ih hlater
    refine ⟨first ++ second, middle, last, ?_, hlast, (List.append_assoc _ _ _).symm⟩
    simp [reads, hstep, hsecond]

theorem completes_finishTag (names : List (List Char)) (seen : List Char) :
    (finishTag names seen).Completes := by
  unfold finishTag
  split <;> exact fun _ ↦ List.cons_ne_nil _ _

theorem completes_finishClosing (names : List (List Char)) (seen : List Char) :
    (finishClosing names seen).Completes := by
  unfold finishClosing
  cases names with
  | nil => trivial
  | cons expected outer =>
    dsimp only
    split
    · exact fun _ ↦ List.cons_ne_nil _ _
    · trivial

theorem completes_finishInstruction (names : List (List Char)) (seen : List Char) :
    (finishInstruction names seen).Completes := by
  unfold finishInstruction
  split
  · exact fun _ ↦ List.cons_ne_nil _ _
  · trivial

theorem completes_finishComment (names : List (List Char)) (seen : List Char) :
    (finishComment names seen).Completes := by
  unfold finishComment
  split
  · exact fun _ ↦ List.cons_ne_nil _ _
  · trivial

theorem completes_finishCdata (names : List (List Char)) (seen : List Char) :
    (finishCdata names seen).Completes := by
  unfold finishCdata
  dsimp only
  split
  · exact fun _ ↦ List.cons_ne_nil _ _
  · trivial

theorem completes_finishDoctype (names : List (List Char)) (seen : List Char) :
    (finishDoctype names seen).Completes := by
  unfold finishDoctype
  dsimp only
  split
  · split
    · trivial
    · exact fun _ ↦ List.cons_ne_nil _ _
  · trivial

theorem completes_tagStep (names : List (List Char)) (quote : Option Char) (seen : List Char)
    (c : Char) : (tagStep names quote seen c).Completes := by
  unfold tagStep
  split
  · simp [Step.Completes]
  · split
    · exact completes_finishTag names seen
    · split <;> simp [Step.Completes]

/-- One character. -/
theorem completes_step (s : Scanner) (c : Char) : (s.step c).Completes := by
  obtain ⟨stage, names⟩ := s
  unfold step
  cases stage with
  | text seen =>
    dsimp only
    split <;> simp [Step.Completes]
  | opened =>
    dsimp only
    repeat' split
    · simp [Step.Completes]
    · simp [Step.Completes]
    · simp [Step.Completes]
    · exact completes_tagStep names none [] c
  | tag quote seen => exact completes_tagStep names quote seen c
  | closing seen =>
    dsimp only
    split
    · exact completes_finishClosing names seen
    · simp [Step.Completes]
  | instruction seen =>
    dsimp only
    split
    · exact completes_finishInstruction names seen
    · simp [Step.Completes]
  | bang =>
    simp only [bangStep]
    repeat' split
    all_goals simp [Step.Completes]
  | comment seen =>
    dsimp only
    split
    · exact completes_finishComment names seen
    · simp [Step.Completes]
  | cdata seen =>
    dsimp only
    split
    · exact completes_finishCdata names seen
    · simp [Step.Completes]
  | doctype balance seen =>
    dsimp only
    split
    · split
      · exact completes_finishDoctype names seen
      · simp [Step.Completes]
    · split <;> simp [Step.Completes]

/-- What leaves the reader behind a piece of markup completes a token. -/
theorem reads_ne_nil (hne : cs ≠ []) (h : s.reads cs = some (tokens, resume names)) :
    tokens ≠ [] := by
  induction cs generalizing s tokens with
  | nil => exact absurd rfl hne
  | cons c rest ih =>
    obtain ⟨first, between, later, hstep, hlater, rfl⟩ := reads_cons_eq_some h
    by_cases hrest : rest = []
    · subst hrest
      obtain ⟨rfl, rfl⟩ : later = [] ∧ between = resume names := by
        simpa [reads, eq_comm] using hlater
      have hcompletes := s.completes_step c
      rw [hstep] at hcompletes
      simpa using hcompletes rfl
    · have hne := ih hrest hlater
      simp [hne]

/-- Inside an end tag, the next token is the end of the innermost element. -/
theorem reads_closing (h : reads ⟨.closing seen, names⟩ cs = some (tokens, resume [])) :
    ∃ name outer rest after, names = name :: outer ∧ tokens = .close name :: rest ∧
      (resume outer).reads after = some (rest, resume []) := by
  induction cs generalizing seen tokens with
  | nil => simp [reads, resume] at h
  | cons c cs ih =>
    obtain ⟨first, between, later, hstep, hlater, rfl⟩ := reads_cons_eq_some h
    by_cases hc : c = '>'
    · have hfinish : finishClosing names seen = .go first between := by simpa [step, hc] using hstep
      unfold finishClosing at hfinish
      cases names with
      | nil => simp at hfinish
      | cons expected outer =>
        dsimp only at hfinish
        split at hfinish
        · rename_i hname
          obtain ⟨rfl, rfl⟩ : [Token.close (closingName seen.reverse)] = first ∧
              resume outer = between := by simpa using hfinish
          exact ⟨expected, outer, later, cs, rfl, by rw [hname]; rfl, hlater⟩
        · simp at hfinish
    · obtain ⟨rfl, rfl⟩ : [] = first ∧ ⟨.closing (c :: seen), names⟩ = between := by
        simpa [step, hc] using hstep
      exact ih hlater

/-- An input that is read to its end. -/
theorem run_of_reads (h : s.reads cs = some (tokens, next)) :
    s.run cs = next.finish.prepend tokens := by
  have hrun := run_append h []
  rwa [List.append_nil] at hrun

/-- At the end of an input, no element ends but one whose end tag was begun. -/
theorem finish_cases (s : Scanner) :
    (∀ name, .close name ∉ s.finish.tokens) ∨
      ∃ seen name outer, s = ⟨.closing seen, name :: outer⟩ ∧ closingName seen.reverse = name ∧
        s.finish.tokens = [.close name] := by
  obtain ⟨stage, names⟩ := s
  cases stage with
  | text seen =>
    refine .inl fun name hname ↦ ?_
    simp only [finish, textTokens] at hname
    split at hname <;> simp at hname
  | closing seen =>
    simp only [finish, finishClosing]
    cases names with
    | nil => exact .inl fun name hname ↦ by simp [closed] at hname
    | cons expected outer =>
      dsimp only
      split
      · rename_i hname
        exact .inr ⟨seen, expected, outer, rfl, hname, by simp [closed, hname]⟩
      · exact .inl fun name hname ↦ by simp [closed] at hname
  | instruction seen =>
    refine .inl fun name hname ↦ ?_
    simp only [finish, finishInstruction] at hname
    split at hname <;> simp [closed] at hname
  | _ => exact .inl fun name hname ↦ by simp [finish, Stream.broken, Stream.done] at hname

end Scanner

/-! ## The end of the root element -/

/-- A text ends with the end tag of its root element. -/
structure EndsRoot (cs : List Char) (prolog : List Token) (tag : RawTag) (inside : Content) :
    Prop where
  /-- The root element is the first one. -/
  first : ∀ other, .start other ∉ prolog
  reads : (Scanner.resume []).reads (dropByteOrderMark cs) =
    some (prolog ++ .start tag :: (inside.tokens ++ [.close tag.name]), Scanner.resume [])

/-- A text breaks off in the end tag of its root element, behind the name. -/
def BreaksOff (cs : List Char) (prolog : List Token) (tag : RawTag) (inside : Content) : Prop :=
  ∃ seen, (Scanner.resume []).reads (dropByteOrderMark cs) =
      some (prolog ++ .start tag :: inside.tokens, ⟨.closing seen, [tag.name]⟩) ∧
    Scanner.closingName seen.reverse = tag.name

/-- Tokens have one root element, with nothing of it left to be read behind its end tag. -/
theorem root_unique {prolog prolog' : List Token} {tag tag' : RawTag} {inside inside' : Content}
    {tail tail' : List Token} (hfirst : ∀ other, .start other ∉ prolog)
    (hfirst' : ∀ other, .start other ∉ prolog')
    (h : prolog ++ .start tag :: (inside.tokens ++ .close tag.name :: tail) =
      prolog' ++ .start tag' :: (inside'.tokens ++ .close tag'.name :: tail')) :
    prolog = prolog' ∧ tag = tag' ∧ inside = inside' ∧ tail = tail' := by
  have hprolog : prolog = prolog' := by
    rcases Bindings.prolog_cases h with ⟨between, rfl, hbetween⟩ | ⟨front, rfl, -⟩
    · cases between with
      | nil => exact List.append_nil _
      | cons token between =>
        obtain ⟨rfl, -⟩ := List.cons.inj hbetween
        exact absurd (by simp) (hfirst tag')
    · exact absurd (by simp) (hfirst' tag)
  subst hprolog
  obtain ⟨htag, hrest⟩ := List.cons.inj (List.append_cancel_left h)
  obtain rfl := Token.start.inj htag
  obtain ⟨rfl, -, rfl⟩ := Content.tokens_inj hrest
  exact ⟨rfl, rfl, rfl, rfl⟩

variable {cs before after : List Char} {prolog : List Token} {tag : RawTag} {inside : Content}

/-- A text that breaks off in the root's end tag has the tokens of the whole. -/
theorem EndsRoot.ofChars_eq (h : EndsRoot cs prolog tag inside)
    (hcut : BreaksOff before prolog tag inside) : Stream.ofChars before = Stream.ofChars cs := by
  obtain ⟨seen, hreads, hname⟩ := hcut
  have hfinish : Scanner.finish ⟨.closing seen, [tag.name]⟩ = ⟨[.close tag.name], none⟩ := by
    simp [Scanner.finish, Scanner.finishClosing, hname, Scanner.closed]
  unfold Stream.ofChars
  rw [Scanner.run_of_reads hreads, Scanner.run_of_reads h.reads, hfinish]
  simp [Stream.prepend, Scanner.resume, Scanner.finish, Scanner.textTokens]

theorem dropByteOrderMark_append (hne : before ≠ []) (after : List Char) :
    dropByteOrderMark (before ++ after) = dropByteOrderMark before ++ after := by
  cases before with
  | nil => exact absurd rfl hne
  | cons c rest =>
    simp only [List.cons_append, dropByteOrderMark]
    split <;> rfl

/-- Tokens that do not reach to the root's end tag leave it to those that follow. -/
theorem Written.exists_between {w : Written} {first last : List Token} (h : first ++ last = w.tokens)
    (hends : ∀ tail, first ≠
      w.prolog ++ .start w.tag :: (w.inside.tokens ++ .close w.tag.name :: tail)) :
    ∃ between, w.prolog ++ .start w.tag :: w.inside.tokens = first ++ between ∧
      last = between ++ .close w.tag.name :: w.epilog := by
  have hsplit : first ++ last =
      (w.prolog ++ .start w.tag :: w.inside.tokens) ++ .close w.tag.name :: w.epilog := by
    rw [h]
    simp [tokens]
  rcases List.append_eq_append_iff.mp hsplit with hbetween | ⟨tail, htail, hlast⟩
  · exact hbetween
  · cases tail with
    | nil => exact ⟨[], by simpa using htail.symm, by simpa using hlast.symm⟩
    | cons token tail =>
      obtain ⟨rfl, -⟩ := List.cons.inj hlast
      exact absurd (by simpa using htail) (hends tail)

/-- A text that is cut off has a root element only if it breaks off in the root's end tag. -/
theorem EndsRoot.breaksOff (h : EndsRoot (before ++ after) prolog tag inside) (hcut : after ≠ [])
    {written : Written} {root : Wire.Place} (hrooted : Wire.Rooted before written root) :
    BreaksOff before prolog tag inside := by
  have hne : before ≠ [] := by
    rintro rfl
    have htokens : [] = written.tokens := hrooted.tokens
    simp [Written.tokens] at htokens
  have hreads := h.reads
  rw [dropByteOrderMark_append hne] at hreads
  obtain ⟨first, middle, later, hfirst, hlater, hwhole⟩ := Scanner.exists_reads_of_append hreads
  have hlast : later ≠ [] := Scanner.reads_ne_nil hcut hlater
  have hprolog : ∀ other, .start other ∉ written.prolog := by
    intro other hmem
    have hplain := List.all_eq_true.mp (Written.root?_eq_some hrooted.holds).1 _ hmem
    simp [Token.isPlain] at hplain
  have htokens : first ++ middle.finish.tokens = written.tokens := by
    rw [← hrooted.tokens, Stream.ofChars, Scanner.run_of_reads hfirst]
    rfl
  -- The root of the text cut off is that of the whole, so its end tag is the last token.
  have hends (tail : List Token) : first ≠ written.prolog ++ .start written.tag ::
      (written.inside.tokens ++ .close written.tag.name :: tail) := by
    rintro rfl
    have hsame : prolog ++ .start tag :: (inside.tokens ++ .close tag.name :: []) =
        written.prolog ++ .start written.tag ::
          (written.inside.tokens ++ .close written.tag.name :: (tail ++ later)) := by
      simpa using hwhole
    obtain ⟨-, -, -, htail⟩ := root_unique h.first hprolog hsame
    exact hlast (List.append_eq_nil_iff.mp htail.symm).2
  obtain ⟨between, hbetween, hfinish⟩ := Written.exists_between htokens hends
  rcases middle.finish_cases with hnone | ⟨seen, name, outer, rfl, hname, hsingle⟩
  · exact absurd (by simp [hfinish]) (hnone written.tag.name)
  · obtain ⟨rfl, rfl⟩ : between = [] ∧ name = written.tag.name := by
      rcases List.append_eq_singleton_iff.mp (hfinish.symm.trans hsingle) with
        ⟨hempty, htoken⟩ | ⟨-, hnil⟩
      · exact ⟨hempty, by simpa [eq_comm] using (List.cons.inj htoken).1⟩
      · cases hnil
    obtain rfl : written.prolog ++ .start written.tag :: written.inside.tokens = first := by
      simpa using hbetween
    -- What is left of the end tag completes it, and nothing is left behind it.
    obtain ⟨_, _, rest, end', hnames, rfl, hend⟩ := Scanner.reads_closing hlater
    obtain ⟨rfl, rfl⟩ := List.cons.inj hnames
    have hsame : prolog ++ .start tag :: (inside.tokens ++ .close tag.name :: []) =
        written.prolog ++ .start written.tag ::
          (written.inside.tokens ++ .close written.tag.name :: rest) := by
      simpa using hwhole
    obtain ⟨rfl, rfl, rfl, rfl⟩ := root_unique h.first hprolog hsame
    have houter : outer = [] := by
      by_cases hempty : end' = []
      · subst hempty
        simpa [Scanner.reads, Scanner.resume] using hend
      · exact absurd rfl (Scanner.reads_ne_nil hempty hend)
    subst houter
    exact ⟨seen, hfirst, hname⟩

end Xml

/-! ## Functions of bindings on what is cut off -/

namespace Bindings

open Wire (Document)

/-- Bytes break off in the end tag of their root element, behind the name. -/
def BreaksOff (cut : List UInt8) (prolog : List Xml.Token) (tag : Xml.RawTag)
    (inside : Xml.Content) : Prop :=
  ∃ cs, Text.Utf8.decode cut = .ok cs ∧ Xml.BreaksOff cs prolog tag inside

variable {b : Bindings} {function : String} {f : List UInt8 → Except Wire.DecodeError Answer}

/-- A function of bindings answers only where the root element is there to its end tag.  For a
document that ends with that end tag, it refuses what is cut off anywhere before, unless the cut is
inside the end tag and behind the name: then it does with the rest what it does with the whole. -/
theorem call_of_cut_off (hf : b.call? function = some f) (bytes : List UInt8) :
    (∀ answer, f bytes = .ok answer → ∃ cs written root,
      Text.Utf8.decode bytes = .ok cs ∧ Wire.Rooted cs written root) ∧
    ∀ cs prolog tag inside, Text.Utf8.decode bytes = .ok cs →
      Xml.EndsRoot cs prolog tag inside → ∀ cut, cut <+: bytes → cut ≠ bytes →
        (BreaksOff cut prolog tag inside → f cut = f bytes) ∧
          (¬ BreaksOff cut prolog tag inside → ∃ error, f cut = .error error) := by
  have hrooted {read : List UInt8} {answer : Answer} (hanswer : f read = .ok answer) :
      ∃ cs written root, Text.Utf8.decode read = .ok cs ∧ Wire.Rooted cs written root := by
    obtain ⟨-, cs, hdecode, hreadable⟩ := call_ok hf hanswer
    obtain ⟨written, root, hrooted⟩ := Wire.readable_iff.mp hreadable
    exact ⟨cs, written, root, hdecode, hrooted⟩
  refine ⟨fun answer ↦ hrooted, fun cs prolog tag inside hdecode hends cut hcut hne ↦ ⟨?_, ?_⟩⟩
  · rintro ⟨before, hbefore, hbreaks⟩
    refine call_congr hf ?_
    simp only [Document.ofBytes, hdecode, hbefore, Document.ofChars, hends.ofChars_eq hbreaks]
  · intro hnot
    cases hanswer : f cut with
    | error error => exact ⟨error, rfl⟩
    | ok answer =>
      obtain ⟨before, written, root, hbefore, hroot⟩ := hrooted hanswer
      rcases Text.Utf8.decode_of_isPrefix hdecode hcut hne with ⟨fault, hfault⟩ |
        ⟨_, after, hsame, rfl, hafter⟩
      · simp [hfault] at hbefore
      · obtain rfl := Except.ok.inj (hsame.symm.trans hbefore)
        exact absurd ⟨_, hbefore, hends.breaksOff hafter hroot⟩ hnot

end Bindings

namespace Samples

open Bindings

/-- A tree of one node. -/
def loneNode : List Char :=
  "<Node><value>x</value></Node>".toList

/-- What is inside the node. -/
def loneValue : Xml.Content :=
  .element ⟨"value".toList, []⟩ (.text ['x'] .empty) .empty

theorem endsRoot_loneNode : Xml.EndsRoot loneNode [] ⟨"Node".toList, []⟩ loneValue :=
  ⟨by simp, by decide +kernel⟩

/-- The function that decodes trees, which answers a tree of one node. -/
theorem exists_getTree : ∃ b f, rest = .ok b ∧ b.call? "parse_get_tree_output" = some f ∧
    (∃ answer, f (Xml.utf8Bytes loneNode) = .ok answer) ∧
    ∃ answer, f (Xml.utf8Bytes "<Node><value>x</value></Node".toList) = .ok answer := by
  obtain ⟨b, hb, hfound⟩ := Showcase.exists_bindings { errorWrapping := false }
    (fun b ↦ (b.call? "parse_get_tree_output").any fun f ↦
      (f (Xml.utf8Bytes loneNode)).toOption.isSome &&
        (f (Xml.utf8Bytes "<Node><value>x</value></Node".toList)).toOption.isSome)
    (by decide +kernel)
  obtain ⟨f, hf, hanswers⟩ := (Option.any_eq_true _ _).mp hfound
  obtain ⟨hwhole, hcut⟩ := Bool.and_eq_true_iff.mp hanswers
  obtain ⟨answer, hanswer⟩ := Option.isSome_iff_exists.mp hwhole
  obtain ⟨answer', hanswer'⟩ := Option.isSome_iff_exists.mp hcut
  exact ⟨b, f, hb, hf, ⟨answer, Failing.toOption_eq_some.mp hanswer⟩, answer',
    Failing.toOption_eq_some.mp hanswer'⟩

/-- A tree cut off inside the name of its end tag is refused, and one that lacks the last `>` is
not. -/
theorem lone_node_cut_off : ∃ b f, rest = .ok b ∧ b.call? "parse_get_tree_output" = some f ∧
    (∃ error, f (Xml.utf8Bytes "<Node><value>x</value></No".toList) = .error error) ∧
    f (Xml.utf8Bytes "<Node><value>x</value></Node".toList) = f (Xml.utf8Bytes loneNode) := by
  obtain ⟨b, f, hb, hf, -, -⟩ := exists_getTree
  have hdecode : Text.Utf8.decode (Xml.utf8Bytes loneNode) = .ok loneNode := by decide +kernel
  have hcuts := (call_of_cut_off hf (Xml.utf8Bytes loneNode)).2 loneNode [] ⟨"Node".toList, []⟩
    loneValue hdecode endsRoot_loneNode
  refine ⟨b, f, hb, hf, (hcuts _ (by decide +kernel) (by decide +kernel)).2 ?_,
    (hcuts _ (by decide +kernel) (by decide +kernel)).1 ?_⟩
  · rintro ⟨cs, hcs, seen, hreads, hname⟩
    have hcs' : Text.Utf8.decode (Xml.utf8Bytes "<Node><value>x</value></No".toList) =
        .ok "<Node><value>x</value></No".toList := by decide +kernel
    obtain rfl := Except.ok.inj (hcs.symm.trans hcs')
    have hstate : (Xml.Scanner.resume []).reads
        (Xml.dropByteOrderMark "<Node><value>x</value></No".toList) =
          some (.start ⟨"Node".toList, []⟩ :: loneValue.tokens,
            ⟨.closing "oN".toList, ["Node".toList]⟩) := by decide +kernel
    rw [hstate] at hreads
    obtain rfl : "oN".toList = seen := by simpa using hreads
    exact absurd hname (by decide +kernel)
  · exact ⟨"<Node><value>x</value></Node".toList, by decide +kernel, "edoN".toList,
      by decide +kernel, by decide +kernel⟩

/-- The last `>` of a document may be missing: a document cut off before the end of its root's end
tag decodes. -/
theorem unfinished_end_tag_decodes : ∃ b f, rest = .ok b ∧
    b.call? "parse_get_tree_output" = some f ∧
    (∃ cs prolog tag inside, Text.Utf8.decode (Xml.utf8Bytes loneNode) = .ok cs ∧
      Xml.EndsRoot cs prolog tag inside) ∧
    ∃ cut, cut <+: Xml.utf8Bytes loneNode ∧ cut ≠ Xml.utf8Bytes loneNode ∧
      ∃ answer, f cut = .ok answer := by
  obtain ⟨b, f, hb, hf, -, hanswer⟩ := exists_getTree
  exact ⟨b, f, hb, hf, ⟨loneNode, [], _, loneValue, by decide +kernel, endsRoot_loneNode⟩, _,
    by decide +kernel, by decide +kernel, hanswer⟩

end Samples

end WireShapes
