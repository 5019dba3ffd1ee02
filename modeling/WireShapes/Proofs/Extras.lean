import WireShapes.Proofs.Scanning
import WireShapes.Proofs.ShowcaseDecoders
import WireShapes.Proofs.Swapping

/-!
# Extras in documents

An `Extra` is something that a document has and another has not: a comment or an instruction, an
element whose name the decoder of the element around it does not look for, or an attribute that the
decoder of its element does not look up.  Entry points give the same for a document with extras as
without them.  An extra is told by the characters before it alone, which are read into tokens and
from there into the roles of the open elements.
-/

namespace WireShapes

open Wire (StartTag Place Rooted)
open Xml (Token RawTag RawAttribute Name Scanner)

/-! ## Tags with one more attribute -/

/-- A tag with one more attribute than another, both with sound attribute lists. -/
structure Xml.RawTag.Adds (tag more : RawTag) (given : RawAttribute) : Prop where
  name : more.name = tag.name
  attributes : ∃ before after, tag.attributes = ⟨before ++ after, none⟩ ∧
    more.attributes = ⟨before ++ given :: after, none⟩

/-- An attribute that a look-up does not find, by its name. -/
def Xml.RawAttribute.Unseen (given : RawAttribute) (pattern : String) : Prop :=
  (Name.ofList given.key).declaresNamespace = true ∨
    (Name.ofList given.key).matchesPattern pattern = false

instance (given : RawAttribute) (pattern : String) : Decidable (given.Unseen pattern) := by
  unfold Xml.RawAttribute.Unseen
  infer_instance

namespace Wire.StartTag

variable {tag more : RawTag} {given : RawAttribute} {start : StartTag}

theorem ofRaw_eq_ok : ofRaw tag = .ok start ↔
    tag.attributes.fault = none ∧ ∃ attributes,
      tag.attributes.found.mapM readAttribute = .ok attributes ∧
        ⟨Name.ofList tag.name, attributes⟩ = start := by
  unfold ofRaw
  rw [Failing.bind_eq_ok]
  cases tag.attributes.fault <;> simp

/-- A look-up does not see an attribute that it does not find. -/
theorem get?_added {name : Name} {pattern : String} {before after : List Attribute}
    {added : Attribute}
    (h : added.name.declaresNamespace = true ∨ added.name.matchesPattern pattern = false) :
    get? ⟨name, before ++ added :: after⟩ pattern = get? ⟨name, before ++ after⟩ pattern := by
  unfold get?
  rcases h with h | h
  · simp [List.filter_append, h]
  · by_cases hdeclares : added.name.declaresNamespace = true
    · simp [List.filter_append, hdeclares]
    · simp [List.filter_append, hdeclares, List.find?_append, h]

/-- With an attribute less a tag can be read as well, and look-ups find the same but for that
attribute. -/
theorem exists_ofRaw_of_adds (hadds : tag.Adds more given) (h : ofRaw more = .ok start) :
    ∃ less, ofRaw tag = .ok less ∧ start.name = less.name ∧
      ∀ pattern, given.Unseen pattern → start.get? pattern = less.get? pattern := by
  obtain ⟨hname, before, after, htag, hmore⟩ := hadds
  obtain ⟨-, attributes, hattributes, rfl⟩ := ofRaw_eq_ok.mp h
  rw [hmore, List.mapM_append, List.mapM_cons] at hattributes
  obtain ⟨first, hfirst, hrest⟩ := Failing.bind_eq_ok.mp hattributes
  obtain ⟨later, hlater, hlist⟩ := Failing.bind_eq_ok.mp hrest
  obtain ⟨added, hadded, htail⟩ := Failing.bind_eq_ok.mp hlater
  obtain ⟨last, hlast, hcons⟩ := Failing.bind_eq_ok.mp htail
  obtain rfl := Except.ok.inj hcons
  obtain rfl := Except.ok.inj hlist
  refine ⟨⟨Name.ofList tag.name, first ++ last⟩, ?_, by rw [hname], ?_⟩
  · refine ofRaw_eq_ok.mpr ⟨by rw [htag], first ++ last, ?_, rfl⟩
    rw [htag, List.mapM_append]
    simp [hfirst, hlast, bind, Except.bind, pure, Except.pure]
  · intro pattern hunseen
    have haddedName : added.name = Name.ofList given.key := by
      unfold readAttribute at hadded
      split at hadded
      · exact Except.ok.inj hadded ▸ rfl
      · simp at hadded
    rw [← hname]
    exact get?_added (haddedName ▸ hunseen)

end Wire.StartTag

namespace Bindings

variable {b : Bindings} {role inner : Role} {tag : RawTag} {given : RawAttribute}
  {piece later tail : List Token} {name seen : List Char} {content : Xml.Content}
  {read : Wire.Content}

/-- An attribute that the decoder of an element does not look up. -/
theorem swap_tag {more : RawTag} (hadds : tag.Adds more given)
    (hunseen : ∀ pattern ∈ (role.child b (Name.ofList tag.name)).attributes b,
      given.Unseen pattern) : Swap b role [.start tag] [.start more] := by
  intro content name tail later read htokens hread
  obtain ⟨inside, rest, rfl, hlater⟩ := Xml.Content.exists_of_first_start htokens
  obtain ⟨start, below, behind, hstart, hbelow, hbehind, rfl⟩ :=
    Xml.Content.read?_element_eq_some.mp hread
  obtain ⟨less, hless, hname, hget⟩ := StartTag.exists_ofRaw_of_adds hadds hstart
  refine ⟨.element tag inside rest, .element less below behind, ?_, ?_, ?_⟩
  · rw [hadds.name] at hlater
    simpa [Xml.Content.tokens] using hlater
  · exact Xml.Content.read?_element_eq_some.mpr ⟨less, below, behind, hless, hbelow, hbehind, rfl⟩
  · refine .element hname (fun pattern hpattern ↦ hget pattern (hunseen pattern ?_))
      (.refl b _ below) (.refl b role behind)
    rwa [← StartTag.name_of_ofRaw hless]

/-! ## Insertions -/

/-- What can be put into the content of an element read in a role: what decoders do not see, or an
element of a name that is not looked for. -/
inductive Insertable (b : Bindings) (role : Role) : List Token → Prop
  | aside : Insertable b role [.aside]
  | element (tag : RawTag) (inside : Xml.Content) :
      (∀ pattern ∈ role.patterns b, (Name.ofList tag.name).matchesPattern pattern = false) →
      Insertable b role (.start tag :: (inside.tokens ++ [.close tag.name]))

/-- The rest of a content after the text it begins with. -/
theorem exists_rest_of_text (htokens : content.tokens ++ .close name :: tail =
      Scanner.textTokens seen ++ later) (hread : content.read? = some read) :
    ∃ (rest : Xml.Content) (below : Wire.Content),
      rest.tokens ++ .close name :: tail = later ∧ rest.read? = some below ∧
        ((seen = [] ∧ read = below) ∨ ∃ text,
          seen ≠ [] ∧ Xml.expand seen.reverse = .ok text ∧ read = .text text below) := by
  rcases seen with _ | ⟨c, seen⟩
  · exact ⟨content, read, htokens, hread, .inl ⟨rfl, rfl⟩⟩
  · obtain ⟨rest, rfl, hrest⟩ := Xml.Content.exists_of_first_text htokens
    obtain ⟨text, below, htext, hbelow, rfl⟩ := Xml.Content.read?_text_eq_some.mp hread
    exact ⟨rest, below, hrest, hbelow, .inr ⟨text, by simp, htext, rfl⟩⟩

/-- The rest of a content after something put in: nothing that is looked for is left out. -/
theorem Insertable.exists_rest (h : Insertable b role piece)
    (htokens : content.tokens ++ .close name :: tail = piece ++ later)
    (hread : content.read? = some read) :
    ∃ (rest : Xml.Content) (below : Wire.Content),
      rest.tokens ++ .close name :: tail = later ∧ rest.read? = some below ∧
        ∀ less, Extended b role less below → Extended b role less read := by
  cases h with
  | aside =>
    obtain ⟨rest, rfl, hrest⟩ := Xml.Content.exists_of_first_aside htokens
    exact ⟨rest, read, hrest, hread, fun _ h ↦ h⟩
  | element tag inside hnone =>
    rw [List.cons_append, List.append_assoc] at htokens
    obtain ⟨found, rest, rfl, hlater⟩ := Xml.Content.exists_of_first_start htokens
    obtain ⟨-, -, hrest⟩ := Xml.Content.tokens_inj hlater
    obtain ⟨start, _, behind, hstart, -, hbehind, rfl⟩ :=
      Xml.Content.read?_element_eq_some.mp hread
    refine ⟨rest, behind, hrest, hbehind, fun less hless ↦ .extra start _ ?_ hless⟩
    intro pattern hpattern
    rw [StartTag.matchesPattern, StartTag.name_of_ofRaw hstart]
    exact hnone pattern hpattern

theorem textTokens_of_ne_nil (h : seen ≠ []) : Scanner.textTokens seen = [.text seen.reverse] := by
  simp [Scanner.textTokens, h]

/-- A content that goes on behind a text. -/
theorem Swapped.of_text {text : String} {less : Wire.Content} (hseen : seen ≠ [])
    (htext : Xml.expand seen.reverse = .ok text)
    (htokens : content.tokens ++ .close name :: tail = later) (hless : content.read? = some less)
    (h : Extended b role (.text text less) read) :
    Swapped b role [] (Scanner.textTokens seen) later name tail read := by
  refine ⟨.text seen.reverse content, .text text less, ?_, ?_, h⟩
  · simp [Xml.Content.tokens, textTokens_of_ne_nil hseen, htokens]
  · exact Xml.Content.read?_text_eq_some.mpr ⟨text, less, htext, hless, rfl⟩

/-- Something put into a content, which parts the text that it is put into. -/
theorem Insertable.swap (h : Insertable b role piece) (seen more : List Char) :
    Swap b role (Scanner.textTokens (more ++ seen))
      (Scanner.textTokens seen ++ piece ++ Scanner.textTokens more) := by
  intro content name tail later read htokens hread
  rw [List.append_assoc, List.append_assoc] at htokens
  obtain ⟨_, k₁, h₁, hread₁, hseen⟩ := exists_rest_of_text htokens hread
  obtain ⟨_, k₂, h₂, hread₂, hextra⟩ := h.exists_rest h₁ hread₁
  obtain ⟨rest, below, hrest, hbelow, hmore⟩ := exists_rest_of_text h₂ hread₂
  rcases hseen with ⟨rfl, rfl⟩ | ⟨first, hne, hfirst, rfl⟩
  · rcases hmore with ⟨rfl, rfl⟩ | ⟨second, hne, hsecond, rfl⟩
    · exact ⟨rest, k₂, hrest, hbelow, hextra k₂ (.refl b role k₂)⟩
    · rw [List.append_nil]
      exact .of_text hne hsecond hrest hbelow (hextra _ (.refl b role _))
  · rcases hmore with ⟨rfl, rfl⟩ | ⟨second, hne', hsecond, rfl⟩
    · exact .of_text hne hfirst hrest hbelow (.text first (hextra k₂ (.refl b role k₂)))
    · have hboth : Xml.expand (more ++ seen).reverse = .ok (first ++ second) := by
        rw [List.reverse_append]
        exact Xml.expand_append hfirst hsecond
      exact .of_text (by simp [hne]) hboth hrest hbelow
        (.parted first second (.text first (hextra _ (.refl b role _))))

/-! ## Documents with an extra -/

/-- The second text is the first with one thing more, where an element in the root, or the root, is
read in a role.  The reader stands in text before something put in, and is there again behind it
with the same elements open.  A tag with one more attribute stands for the tag. -/
inductive Extra (b : Bindings) (root : Role) : List Char → List Char → Prop
  | insertion {before ins seen : List Char} {names : List (List Char)} {front piece : List Token}
      {inner : Role} (after : List Char) :
      (Scanner.resume []).reads before = some (front, ⟨.text seen, names⟩) →
      (Role.openAt b root front).head? = some inner →
      Insertable b inner piece →
      (Scanner.resume names).reads ins = some (piece, .resume names) →
      Extra b root (before ++ after) (before ++ (ins ++ after))
  | «attribute» {before markup markup' seen : List Char} {names : List (List Char)}
      {front closing : List Token} {tag more : RawTag} {given : RawAttribute} {next : Scanner}
      {inner : Role} (after : List Char) :
      (Scanner.resume []).reads before = some (front, ⟨.text seen, names⟩) →
      (Scanner.resume names).reads markup = some (.start tag :: closing, next) →
      (Scanner.resume names).reads markup' = some (.start more :: closing, next) →
      tag.Adds more given →
      (Role.openAt b root (front ++ [.start tag])).head? = some inner →
      (∀ pattern ∈ inner.attributes b, given.Unseen pattern) →
      Extra b root (before ++ (markup ++ after)) (before ++ (markup' ++ after))

theorem Insertable.exists_head (h : Insertable b role piece) :
    ∃ token rest, piece = token :: rest ∧ ∀ raw, token ≠ .text raw := by
  cases h with
  | aside => exact ⟨_, _, rfl, by simp⟩
  | element tag inside => exact ⟨_, _, rfl, by simp⟩

namespace Role

/-- Texts open no elements. -/
theorem openAt_textTokens (front : List Token) (seen : List Char) (rest : List Token) :
    openAt b role (front ++ Scanner.textTokens seen ++ rest) = openAt b role (front ++ rest) := by
  have hfollow (roles : List Role) : (Scanner.textTokens seen).foldl (follow b) roles = roles := by
    unfold Scanner.textTokens
    split <;> rfl
  induction front with
  | nil =>
    have hplain : openAt b role (Scanner.textTokens seen ++ rest) = openAt b role rest := by
      unfold Scanner.textTokens
      split <;> rfl
    simpa using hplain
  | cons token front ih =>
    cases token with
    | start tag => simp [openAt, List.foldl_append, hfollow]
    | _ => exact ih

/-- Inside the root a token is followed from the roles before it. -/
theorem openAt_concat {prolog before : List Token} (h : prolog.all Token.isPlain) (tag : RawTag)
    (token : Token) :
    openAt b role (prolog ++ .start tag :: before ++ [token]) =
      follow b (openAt b role (prolog ++ .start tag :: before)) token := by
  rw [List.append_assoc, openAt_prolog h, openAt_prolog h, List.cons_append, openAt, openAt,
    List.foldl_append]
  rfl

theorem openAt_plain {prolog : List Token} (h : prolog.all Token.isPlain) :
    openAt b role prolog = [] := by
  have hprolog : openAt b role (prolog ++ []) = openAt b role [] := openAt_prolog h []
  simpa [openAt] using hprolog

end Role

/-- The roots of two documents are alike for a reader that reads them in a role. -/
structure SameRoot (b : Bindings) (role : Role) (root more : Place) : Prop where
  name : more.tag.name = root.tag.name
  attributes : ∀ pattern ∈ role.attributes b, more.tag.get? pattern = root.tag.get? pattern
  inside : Extended b role root.inside more.inside

variable {cs cs' : List Char} {written : Xml.Written} {root : Place}

/-- A document with a tag for another of its tokens. -/
theorem Rooted.exists_of_attribute {front later : List Token} {more : RawTag}
    (hadds : tag.Adds more given)
    (hcs' : (Xml.Stream.ofChars cs').tokens = front ++ (.start more :: later))
    (hcs : (Xml.Stream.ofChars cs).tokens = front ++ (.start tag :: later))
    (hinner : (Role.openAt b role (front ++ [.start tag])).head? = some inner)
    (hunseen : ∀ pattern ∈ inner.attributes b, given.Unseen pattern)
    (hnew : Rooted cs' written root) :
    ∃ written' root', Rooted cs written' root' ∧ SameRoot b role root' root := by
  obtain ⟨hprolog, htag, hinside, -⟩ := Xml.Written.root?_eq_some hnew.holds
  have htokens : written.prolog ++ .start written.tag :: (written.inside.tokens ++
      .close written.tag.name :: written.epilog) = front ++ (.start more :: later) :=
    hnew.tokens.symm.trans hcs'
  rcases prolog_cases htokens with ⟨between, hbetween, hlater⟩ | ⟨before, hfront, -⟩
  · -- The tag is that of the root itself.
    obtain rfl : between = [] := by
      rcases between with _ | ⟨token, between⟩
      · rfl
      · obtain ⟨rfl, -⟩ := List.cons.inj hlater
        simp [hbetween, Token.isPlain] at hprolog
    obtain rfl : written.prolog = front := by simpa using hbetween
    obtain ⟨hmore, rfl⟩ := List.cons.inj hlater
    obtain rfl : more = written.tag := by simpa using hmore
    rw [Role.openAt_prolog hprolog] at hinner
    obtain rfl : role = inner := by simpa [Role.openAt] using hinner
    obtain ⟨less, hless, hname, hget⟩ := StartTag.exists_ofRaw_of_adds hadds htag
    refine ⟨{ written with tag := tag }, _,
      ⟨?_, Xml.Written.root?_of hprolog hless hinside, hnew.room⟩, ?_⟩
    · rw [hcs, Xml.Written.tokens, hadds.name]
    · exact ⟨hname, fun pattern hpattern ↦ hget pattern (hunseen pattern hpattern),
        .refl b role root.inside⟩
  · have hroles : Role.openAt b role (front ++ [.start tag]) =
        Role.follow b (Role.openAt b role front) (.start tag) :=
      hfront ▸ Role.openAt_concat hprolog written.tag (.start tag)
    rw [hroles] at hinner
    have hswap (outer : Role) (houter : (Role.openAt b role front).head? = some outer) :
        Swap b outer [.start tag] [.start more] := by
      have hchild : outer.child b (Name.ofList tag.name) = inner := by
        simpa only [Role.follow, houter, List.head?_cons, Option.elim_some, Option.some.injEq]
          using hinner
      exact swap_tag hadds (hchild ▸ hunseen)
    obtain ⟨written', root', hrooted, htags, hextended⟩ := Rooted.swap hnew hcs' hcs hfront hswap
    exact ⟨written', root', hrooted, htags ▸ rfl, fun _ _ ↦ htags ▸ rfl, hextended⟩

/-- A document without what was put into it. -/
theorem Rooted.exists_of_insertion {front later : List Token} (hpiece : Insertable b inner piece)
    (seen more : List Char)
    (hcs' : (Xml.Stream.ofChars cs').tokens = front ++
      (Scanner.textTokens seen ++ piece ++ Scanner.textTokens more ++ later))
    (hcs : (Xml.Stream.ofChars cs).tokens = front ++ (Scanner.textTokens (more ++ seen) ++ later))
    (hinner : (Role.openAt b role front).head? = some inner) (hnew : Rooted cs' written root) :
    ∃ written' root', Rooted cs written' root' ∧ SameRoot b role root' root := by
  obtain ⟨hprolog, -⟩ := Xml.Written.root?_eq_some hnew.holds
  have htokens := hnew.tokens.symm.trans hcs'
  rcases prolog_cases htokens with ⟨between, hbetween, -⟩ | ⟨before, hfront, -⟩
  · -- No element would be open.
    have hplain : front.all Token.isPlain = true := by
      rw [hbetween, List.all_append, Bool.and_eq_true] at hprolog
      exact hprolog.1
    simp [Role.openAt_plain hplain] at hinner
  · have hswap (outer : Role) (houter : (Role.openAt b role front).head? = some outer) :
        Swap b outer (Scanner.textTokens (more ++ seen))
          (Scanner.textTokens seen ++ piece ++ Scanner.textTokens more) := by
      obtain rfl : inner = outer := Option.some.inj (hinner.symm.trans houter)
      exact hpiece.swap seen more
    obtain ⟨written', root', hrooted, htags, hextended⟩ := Rooted.swap hnew hcs' hcs hfront hswap
    exact ⟨written', root', hrooted, htags ▸ rfl, fun _ _ ↦ htags ▸ rfl, hextended⟩

/-- A document that can be read to the end of its root can be read without an extra, and then its
root is the same for its reader. -/
theorem Extra.exists_rooted
    (h : Extra b role (Xml.dropByteOrderMark cs) (Xml.dropByteOrderMark cs'))
    (hnew : Rooted cs' written root) :
    ∃ written' root', Rooted cs written' root' ∧ SameRoot b role root' root := by
  have hcs' : Xml.Stream.ofChars cs' = (Scanner.resume []).run (Xml.dropByteOrderMark cs') := rfl
  have hcs : Xml.Stream.ofChars cs = (Scanner.resume []).run (Xml.dropByteOrderMark cs) := rfl
  generalize Xml.dropByteOrderMark cs' = text' at h hcs'
  generalize Xml.dropByteOrderMark cs = text at h hcs
  cases h with
  | insertion after hbefore hinner hpiece hins =>
    obtain ⟨token, rest, rfl, htoken⟩ := hpiece.exists_head
    obtain ⟨more, later, hold, hmore⟩ := Scanner.exists_run_insert hbefore htoken hins after
    exact Rooted.exists_of_insertion hpiece _ more (hcs' ▸ hmore) (hcs ▸ hold) hinner hnew
  | «attribute» after hbefore hmarkup hmarkup' hadds hinner hunseen =>
    have hold := Scanner.run_markup hbefore (by simp) hmarkup after
    have hmore := Scanner.run_markup hbefore (by simp) hmarkup' after
    rw [← Role.openAt_textTokens] at hinner
    exact Rooted.exists_of_attribute hadds (hcs' ▸ hmore) (hcs ▸ hold) hinner hunseen hnew

/-! ## Entry points on documents with extras -/

/-- A document with extras, however many and one in another or not. -/
def Extras (b : Bindings) (role : Role) (cs cs' : List Char) : Prop :=
  Relation.ReflTransGen (Extra b role) (Xml.dropByteOrderMark cs) (Xml.dropByteOrderMark cs')

/-- Without its extras, a document that can be read has a root that means the same. -/
theorem EntryPoint.exists_rooted_of_extras (hdistinct : b.Distinct) (entry : EntryPoint)
    (h : Extras b entry.role cs cs') (hnew : Rooted cs' written root) :
    ∃ written' root', Rooted cs written' root' ∧ root'.tag.name = root.tag.name ∧
      entry.meaning b (root'.tag, root'.inside) = entry.meaning b (root.tag, root.inside) := by
  unfold Extras at h
  generalize htext : Xml.dropByteOrderMark cs = text at h
  induction h using Relation.ReflTransGen.head_induction_on generalizing cs with
  | refl =>
    have hstream : Xml.Stream.ofChars cs = Xml.Stream.ofChars cs' := by
      rw [Xml.Stream.ofChars, htext, Xml.Stream.ofChars]
    exact ⟨written, root, ⟨hstream ▸ hnew.tokens, hnew.holds, hnew.room⟩, rfl, rfl⟩
  | @head text middle hextra _ ih =>
    subst htext
    -- A text in between may begin with a byte order mark of its own, so another is put before it.
    obtain ⟨_, between, hbetween, hnames, hmeans⟩ := @ih ('\uFEFF' :: middle) rfl
    have hstep : Extra b entry.role (Xml.dropByteOrderMark cs)
        (Xml.dropByteOrderMark ('\uFEFF' :: middle)) := hextra
    obtain ⟨written', root', hrooted, hname, hattributes, hinside⟩ := hstep.exists_rooted hbetween
    exact ⟨written', root', hrooted, hname.symm.trans hnames,
      (entry.meaning_congr hdistinct hname hattributes hinside).symm.trans hmeans⟩

/-- An entry point of distinct bindings gives the same for a document with extras. -/
theorem EntryPoint.parse_extras (hdistinct : b.Distinct) (entry : EntryPoint)
    {bytes bytes' : List UInt8} (hbytes : Text.Utf8.decode bytes = .ok cs)
    (hbytes' : Text.Utf8.decode bytes' = .ok cs') (hextras : Extras b entry.role cs cs')
    (hreadable : (Wire.Document.ofChars cs').Readable) :
    (entry.parse b bytes').toOption = (entry.parse b bytes).toOption := by
  obtain ⟨written, root, hnew⟩ := Wire.readable_iff.mp hreadable
  obtain ⟨written', root', hrooted, hname, hmeaning⟩ :=
    entry.exists_rooted_of_extras hdistinct hextras hnew
  rw [entry.parse_toOption hdistinct hbytes' hnew, entry.parse_toOption hdistinct hbytes hrooted,
    StartTag.matchesPattern, StartTag.matchesPattern, hname, hmeaning]

end Bindings

namespace Samples

open Bindings

/-- What the showcase decodes of a document, under either protocol, stays the same with extras in
the document, as long as that can still be read: nothing up to the end of its root is at fault, and
elements nest no deeper than documents may. -/
theorem showcase_ignores_extras {b : Bindings} (hb : rest = .ok b ∨ query = .ok b)
    (entry : EntryPoint) {bytes bytes' : List UInt8} {cs cs' : List Char}
    (hbytes : Text.Utf8.decode bytes = .ok cs) (hbytes' : Text.Utf8.decode bytes' = .ok cs')
    (hextras : Extras b entry.role cs cs') (hreadable : (Wire.Document.ofChars cs').Readable)
    {value : Value} (hvalue : entry.parse b bytes = .ok value) :
    entry.parse b bytes' = .ok value := by
  have hdistinct : b.Distinct := by
    rcases hb with hb | hb
    · obtain ⟨b', hb', hsound⟩ := exists_sound_rest
      obtain rfl : b' = b := Except.ok.inj (hb'.symm.trans hb)
      exact hsound.1
    · obtain ⟨b', hb', hsound⟩ := exists_sound_query
      obtain rfl : b' = b := Except.ok.inj (hb'.symm.trans hb)
      exact hsound.1
  have hsame := entry.parse_extras hdistinct hbytes hbytes' hextras hreadable
  rw [hvalue] at hsame
  exact Failing.toOption_eq_some.mp hsame

section Decoys

/-- A response of the showcase with a number in its result. -/
def response (given number : String) : List Char :=
  "<GetTopResponse><GetTopResult".toList ++ given.toList ++ "><choice><number>".toList ++
    number.toList ++ "</number></choice></GetTopResult></GetTopResponse>".toList

/-- The start tag of the result. -/
def resultTag (given : String) : RawTag :=
  ⟨"GetTopResult".toList, given.toList⟩

/-- The tokens up to the number. -/
def numberTokens : List Token :=
  [.start ⟨"GetTopResponse".toList, []⟩, .start (resultTag " id=\"t\""),
    .start ⟨"choice".toList, []⟩, .start ⟨"number".toList, []⟩]

variable {b : Bindings} {role inner : Role}

/-- An element with the name of another variant in the middle of the number. -/
theorem extra_in_number (h : (Role.openAt b role numberTokens).head? = some .text) :
    Extra b role (Xml.dropByteOrderMark (response " id=\"t\"" "13"))
      (Xml.dropByteOrderMark (response " id=\"t\"" "1<text>2</text>3")) := by
  let before := "<GetTopResponse><GetTopResult id=\"t\"><choice><number>1".toList
  let after := "3</number></choice></GetTopResult></GetTopResponse>".toList
  let names := ["number", "choice", "GetTopResult", "GetTopResponse"].map String.toList
  let piece := Xml.Content.text ['2'] .empty
  have hbefore : (Scanner.resume []).reads before = some (numberTokens, ⟨.text ['1'], names⟩) := by
    decide +kernel
  have hpiece : Insertable b .text
      (.start ⟨"text".toList, []⟩ :: (piece.tokens ++ [.close "text".toList])) :=
    .element ⟨"text".toList, []⟩ piece (by simp [Role.patterns, Role.slots])
  have hins : (Scanner.resume names).reads "<text>2</text>".toList = some
      (.start ⟨"text".toList, []⟩ :: (piece.tokens ++ [.close "text".toList]),
        .resume names) := by
    decide +kernel
  have hold : Xml.dropByteOrderMark (response " id=\"t\"" "13") = before ++ after := by
    decide +kernel
  have hnew : Xml.dropByteOrderMark (response " id=\"t\"" "1<text>2</text>3") =
      before ++ ("<text>2</text>".toList ++ after) := by
    decide +kernel
  rw [hold, hnew]
  exact .insertion after hbefore h hpiece hins

/-- A namespace declaration of the result that has the name of a member. -/
theorem extra_in_result
    (h : (Role.openAt b role [.start ⟨"GetTopResponse".toList, []⟩,
      .start (resultTag " id=\"t\"")]).head? = some inner) :
    Extra b role (Xml.dropByteOrderMark (response " id=\"t\"" "13"))
      (Xml.dropByteOrderMark (response " xmlns:id=\"u\" id=\"t\"" "13")) := by
  let after := "<choice><number>13</number></choice></GetTopResult></GetTopResponse>".toList
  let names := [("GetTopResponse").toList]
  have hbefore : (Scanner.resume []).reads "<GetTopResponse>".toList =
      some ([.start ⟨"GetTopResponse".toList, []⟩], ⟨.text [], names⟩) := by
    decide +kernel
  have htag : (Scanner.resume names).reads "<GetTopResult id=\"t\">".toList =
      some ([.start (resultTag " id=\"t\"")], .resume ("GetTopResult".toList :: names)) := by
    decide +kernel
  have hmore : (Scanner.resume names).reads "<GetTopResult xmlns:id=\"u\" id=\"t\">".toList =
      some ([.start (resultTag " xmlns:id=\"u\" id=\"t\"")],
        .resume ("GetTopResult".toList :: names)) := by
    decide +kernel
  have hadds : (resultTag " id=\"t\"").Adds (resultTag " xmlns:id=\"u\" id=\"t\"")
      ⟨"xmlns:id".toList, ['u']⟩ :=
    ⟨rfl, [], [⟨"id".toList, ['t']⟩], by decide +kernel, by decide +kernel⟩
  have hunseen (pattern : String) :
      (⟨"xmlns:id".toList, ['u']⟩ : RawAttribute).Unseen pattern :=
    .inl (by decide +kernel)
  have hold : Xml.dropByteOrderMark (response " id=\"t\"" "13") =
      "<GetTopResponse>".toList ++ ("<GetTopResult id=\"t\">".toList ++ after) := by
    decide +kernel
  have hnew : Xml.dropByteOrderMark (response " xmlns:id=\"u\" id=\"t\"" "13") =
      "<GetTopResponse>".toList ++
        ("<GetTopResult xmlns:id=\"u\" id=\"t\">".toList ++ after) := by
    decide +kernel
  rw [hold, hnew]
  exact .attribute after hbefore htag hmore hadds h fun pattern _ ↦ hunseen pattern

/-- The root element of such a response. -/
def responseRoot (result : StartTag) (number : Wire.Content) : Place where
  tag := ⟨⟨none, "GetTopResponse"⟩, []⟩
  inside := .element result
    (.element ⟨⟨none, "choice"⟩, []⟩ (.element ⟨⟨none, "number"⟩, []⟩ number .empty) .empty) .empty
  after := []

/-- The response as it is written. -/
def writtenResponse (given : String) (number : Xml.Content) : Xml.Written where
  prolog := []
  tag := ⟨"GetTopResponse".toList, []⟩
  inside := .element (resultTag given)
    (.element ⟨"choice".toList, []⟩ (.element ⟨"number".toList, []⟩ number .empty) .empty) .empty
  epilog := []

/-- In the middle of a number stands an element with the name of another variant, and the result has
a namespace declaration with the name of a member. -/
theorem showcase_ignores_decoys : ∃ b decl value, query = .ok b ∧
    (∃ op ∈ b.operations, op.output = some decl) ∧
    b.parseOutput decl (Xml.utf8Bytes (response " id=\"t\"" "13")) = .ok value ∧
    b.parseOutput decl (Xml.utf8Bytes (response " id=\"t\"" "1<text>2</text>3")) = .ok value ∧
    b.parseOutput decl (Xml.utf8Bytes (response " xmlns:id=\"u\" id=\"t\"" "13")) =
      .ok value := by
  obtain ⟨b, hb, hfound⟩ := Showcase.exists_bindings { envelope := .wrapped }
    (fun b ↦ b.operations.any fun op ↦ op.output.any fun decl ↦
      (Role.openAt b (EntryPoint.output decl).role numberTokens).head? = some .text ∧
        (b.parseOutput decl (Xml.utf8Bytes (response " id=\"t\"" "13"))).toOption.isSome)
    (by decide +kernel)
  obtain ⟨op, hop, hoperation⟩ := List.any_eq_true.mp hfound
  obtain ⟨decl, hdecl⟩ : ∃ decl, op.output = some decl := by
    cases houtput : op.output with
    | none => simp [houtput] at hoperation
    | some decl => exact ⟨decl, rfl⟩
  rw [hdecl] at hoperation
  obtain ⟨hnumber, hsome⟩ := of_decide_eq_true hoperation
  obtain ⟨value, hvalue⟩ := Option.isSome_iff_exists.mp hsome
  have hplain := Failing.toOption_eq_some.mp hvalue
  have hdecoy : Rooted (response " id=\"t\"" "1<text>2</text>3")
      (writtenResponse " id=\"t\"" (.text ['1'] (.element ⟨"text".toList, []⟩ (.text ['2'] .empty)
        (.text ['3'] .empty))))
      (responseRoot ⟨⟨none, "GetTopResult"⟩, [⟨⟨none, "id"⟩, "t"⟩]⟩
        (.text "1" (.element ⟨⟨none, "text"⟩, []⟩ (.text "2" .empty) (.text "3" .empty)))) :=
    ⟨by decide +kernel, by decide +kernel, by decide +kernel⟩
  have hdeclared : Rooted (response " xmlns:id=\"u\" id=\"t\"" "13")
      (writtenResponse " xmlns:id=\"u\" id=\"t\"" (.text ['1', '3'] .empty))
      (responseRoot ⟨⟨none, "GetTopResult"⟩, [⟨⟨some "xmlns", "id"⟩, "u"⟩, ⟨⟨none, "id"⟩, "t"⟩]⟩
        (.text "13" .empty)) :=
    ⟨by decide +kernel, by decide +kernel, by decide +kernel⟩
  have hdecode : Text.Utf8.decode (Xml.utf8Bytes (response " id=\"t\"" "13")) =
      .ok (response " id=\"t\"" "13") := by
    decide +kernel
  have hdecodeDecoy : Text.Utf8.decode (Xml.utf8Bytes (response " id=\"t\"" "1<text>2</text>3")) =
      .ok (response " id=\"t\"" "1<text>2</text>3") := by
    decide +kernel
  have hdecodeDeclared :
      Text.Utf8.decode (Xml.utf8Bytes (response " xmlns:id=\"u\" id=\"t\"" "13")) =
        .ok (response " xmlns:id=\"u\" id=\"t\"" "13") := by
    decide +kernel
  refine ⟨b, decl, value, hb, ⟨op, hop, hdecl⟩, hplain, ?_, ?_⟩
  · exact showcase_ignores_extras (.inr hb) (.output decl) hdecode hdecodeDecoy
      (.single (extra_in_number hnumber)) (Wire.readable_iff.mpr ⟨_, _, hdecoy⟩) hplain
  · exact showcase_ignores_extras (.inr hb) (.output decl) hdecode hdecodeDeclared
      (.single (extra_in_result rfl)) (Wire.readable_iff.mpr ⟨_, _, hdeclared⟩) hplain

end Decoys

end Samples

end WireShapes
