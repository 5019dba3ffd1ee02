import WireShapes.Proofs.Session

/-!
# The text of an element

The text of an element, asked for after any moves, is what its own texts and CDATA sections say that
are still to be read.  A `Site` is an element where it stands in a document as it is written, with
its comments and references; its own texts are those between its tags but not inside an element
there, and one is still to be read if the tokens from it on are.  Every element of a document can be
come to by handing out children and leaving those that it is not in.
-/

namespace WireShapes

namespace Xml

/-! ## Elements as written -/

/-- What a text says with its references replaced, or a CDATA section as it stands. -/
def Token.said? : Token → Option String
  | .text raw => (expand raw).toOption
  | .cdata raw => some (String.ofList raw)
  | .start _ | .close _ | .aside => none

/-- An element where it stands: its tag, what is inside, and the tokens after its end tag. -/
structure Site where
  tag : RawTag
  inside : Content
  after : List Token

namespace Content

/-- The texts and CDATA sections of the content itself, in order, each with the tokens behind it. -/
def ownTexts (tail : List Token) : Content → List (Token × List Token)
  | .empty => []
  | .text raw rest => (.text raw, rest.tokens ++ tail) :: rest.ownTexts tail
  | .cdata raw rest => (.cdata raw, rest.tokens ++ tail) :: rest.ownTexts tail
  | .aside rest | .element _ _ rest => rest.ownTexts tail

/-- The elements of a content at any depth, in the order of their start tags. -/
def sites (tail : List Token) : Content → List Site
  | .empty => []
  | .text _ rest | .cdata _ rest | .aside rest => rest.sites tail
  | .element tag inside rest =>
    ⟨tag, inside, rest.tokens ++ tail⟩ ::
      (inside.sites (.close tag.name :: (rest.tokens ++ tail)) ++ rest.sites tail)

end Content

namespace Site

/-- The tokens from the end tag on. -/
def ending (site : Site) : List Token := .close site.tag.name :: site.after

/-- The element as it is read, if nothing of it is at fault. -/
def read? (site : Site) : Option Wire.Place := do
  return ⟨← (Wire.StartTag.ofRaw site.tag).toOption, ← site.inside.read?,
    site.after.filterMap Wire.Lexeme.ofToken?⟩

/-- The texts directly inside that are still to be read, as one. -/
def textLeft (site : Site) (pending : List Wire.Lexeme) : String :=
  String.join (((site.inside.ownTexts site.ending).filter fun text ↦
    (text.1 :: text.2).filterMap Wire.Lexeme.ofToken? <:+ pending).filterMap fun text ↦
      text.1.said?)

end Site

/-- The elements of a document, its root first. -/
def Written.sites (w : Written) : List Site :=
  ⟨w.tag, w.inside, w.epilog⟩ :: w.inside.sites (.close w.tag.name :: w.epilog)

namespace Content

variable {content rest : Content} {read later : Wire.Content} {pending : List Wire.Lexeme}
  {token : Token} {text : String}

/-- An own text in front of others is still to be read just if its node is. -/
theorem said_cons (htoken : Wire.Lexeme.ofToken? token = some (.text (.ok text)))
    (hsaid : token.said? = some text) (hrest : rest.read? = some later) (tail : List Token)
    {others : List (Token × List Token)} {nodes : List Wire.Node}
    (hothers : ((others.filter fun text ↦
      (text.1 :: text.2).filterMap Wire.Lexeme.ofToken? <:+ pending).filterMap fun text ↦
        text.1.said?) = (nodes.filter fun node ↦ node.Unread pending).filterMap Wire.Node.text?) :
    ((((token, rest.tokens ++ tail) :: others).filter fun text ↦
      (text.1 :: text.2).filterMap Wire.Lexeme.ofToken? <:+ pending).filterMap fun text ↦
        text.1.said?) =
      ((.text text (later.lexemes ++ tail.filterMap Wire.Lexeme.ofToken?) :: nodes).filter
        fun node ↦ node.Unread pending).filterMap Wire.Node.text? := by
  have hpieces : (token :: (rest.tokens ++ tail)).filterMap Wire.Lexeme.ofToken? =
      .text (.ok text) :: (later.lexemes ++ tail.filterMap Wire.Lexeme.ofToken?) := by
    rw [List.filterMap_cons_some htoken, List.filterMap_append, filterMap_tokens hrest]
  have hsame : (token :: (rest.tokens ++ tail)).filterMap Wire.Lexeme.ofToken? <:+ pending ↔
      (Wire.Node.text text (later.lexemes ++ tail.filterMap Wire.Lexeme.ofToken?)).Unread pending :=
    hpieces ▸ Iff.rfl
  by_cases hunread :
      (Wire.Node.text text (later.lexemes ++ tail.filterMap Wire.Lexeme.ofToken?)).Unread pending
  · rw [List.filter_cons_of_pos (by simpa only [decide_eq_true_eq, hsame] using hunread),
      List.filter_cons_of_pos (by simpa only [decide_eq_true_eq] using hunread),
      List.filterMap_cons, List.filterMap_cons, hothers]
    simp [hsaid, Wire.Node.text?]
  · rw [List.filter_cons_of_neg (by simpa only [decide_eq_true_eq, hsame] using hunread),
      List.filter_cons_of_neg (by simpa only [decide_eq_true_eq] using hunread), hothers]

/-- The own texts that are still to be read are the nodes of text that are. -/
theorem said_ownTexts (h : content.read? = some read) (tail : List Token) :
    (((content.ownTexts tail).filter fun text ↦
      (text.1 :: text.2).filterMap Wire.Lexeme.ofToken? <:+ pending).filterMap fun text ↦
        text.1.said?) =
      ((read.nodes (tail.filterMap Wire.Lexeme.ofToken?)).filter fun node ↦
        node.Unread pending).filterMap Wire.Node.text? := by
  induction content generalizing read with
  | empty =>
    obtain rfl : Wire.Content.empty = read := by simpa [read?] using h
    rfl
  | text raw rest ih =>
    obtain ⟨text, later, htext, hrest, rfl⟩ := read?_text_eq_some.mp h
    exact said_cons (by rw [Wire.Lexeme.ofToken?, htext]) (by rw [Token.said?, htext]; rfl) hrest
      tail (ih hrest)
  | cdata raw rest ih =>
    obtain ⟨later, hrest, rfl⟩ := read?_cdata_eq_some.mp h
    exact said_cons rfl rfl hrest tail (ih hrest)
  | aside rest ih => exact ih h
  | element tag inside rest _ ih =>
    obtain ⟨start, below, later, -, -, hrest, rfl⟩ := read?_element_eq_some.mp h
    rw [ownTexts, ih hrest, Wire.Content.nodes, List.filter_cons]
    split <;> rfl

end Content

theorem Site.read?_eq_some {site : Site} {place : Wire.Place} (h : site.read? = some place) :
    Wire.StartTag.ofRaw site.tag = .ok place.tag ∧ site.inside.read? = some place.inside ∧
      site.after.filterMap Wire.Lexeme.ofToken? = place.after := by
  unfold read? at h
  cases htag : Wire.StartTag.ofRaw site.tag with
  | error fault => simp [htag, Except.toOption] at h
  | ok tag =>
    cases hinside : site.inside.read? with
    | none => simp [hinside] at h
    | some inside =>
      obtain rfl : (⟨tag, inside, site.after.filterMap Wire.Lexeme.ofToken?⟩ : Wire.Place) =
          place := by
        simpa [htag, hinside, Except.toOption] using h
      exact ⟨rfl, rfl, rfl⟩

/-- The text that is left of an element is that of its place. -/
theorem Site.textLeft_eq {site : Site} {place : Wire.Place} (h : site.read? = some place)
    (pending : List Wire.Lexeme) : site.textLeft pending = place.textLeft pending := by
  obtain ⟨-, hinside, hafter⟩ := read?_eq_some h
  have hending : site.ending.filterMap Wire.Lexeme.ofToken? = .close :: place.after := by
    simpa [ending, Wire.Lexeme.ofToken?] using hafter
  rw [textLeft, Content.said_ownTexts hinside, hending]
  rfl

end Xml

namespace Wire

open Xml (Token)

/-! ## Coming to an element -/

/-- Once a child is begun, what is unread of its parent is what follows the child. -/
theorem Content.filter_unread_child {content : Content} {tail : List Lexeme}
    {before back : List Node} {child : Place}
    (h : content.nodes tail = before ++ .element child :: back) :
    (content.nodes tail).filter (fun node ↦ node.Unread child.pieces) = back := by
  induction content generalizing before with
  | empty => simp [nodes] at h
  | text content rest ih =>
    cases before with
    | nil => simp [nodes] at h
    | cons first before =>
      have hrest : rest.nodes tail = before ++ .element child :: back := (List.cons.inj h).2
      have hmem : .element child ∈ rest.nodes tail := by simp [hrest]
      have hchild := suffix_of_mem_nodes hmem
      have hread : ¬ (Node.text content (rest.lexemes ++ tail)).Unread child.pieces :=
        Node.not_unread rfl ((List.suffix_cons _ _).trans hchild)
      rw [nodes, List.filter_cons_of_neg (by simpa using hread), ih hrest]
  | element tag inside rest _ ih =>
    cases before with
    | nil =>
      obtain ⟨hfirst, rfl⟩ := List.cons.inj h
      obtain rfl : (⟨tag, inside, rest.lexemes ++ tail⟩ : Place) = child := by simpa using hfirst
      have hread : ¬ (Node.element ⟨tag, inside, rest.lexemes ++ tail⟩).Unread
          (Place.pieces ⟨tag, inside, rest.lexemes ++ tail⟩) :=
        Node.not_unread rfl (List.suffix_refl _)
      rw [nodes, List.filter_cons_of_neg (by simpa using hread)]
      exact filter_unread_start ((List.suffix_cons _ _).trans (List.suffix_append _ _))
    | cons first before =>
      have hrest : rest.nodes tail = before ++ .element child :: back := (List.cons.inj h).2
      have hmem : .element child ∈ rest.nodes tail := by simp [hrest]
      have hchild := suffix_of_mem_nodes hmem
      have hread : ¬ (Node.element ⟨tag, inside, rest.lexemes ++ tail⟩).Unread child.pieces := by
        refine Node.not_unread rfl ?_
        calc
          child.pieces <:+ rest.lexemes ++ tail := (List.suffix_cons _ _).trans hchild
          _ <:+ .close :: (rest.lexemes ++ tail) := List.suffix_cons _ _
          _ <:+ inside.lexemes ++ .close :: (rest.lexemes ++ tail) := List.suffix_append _ _
      rw [nodes, List.filter_cons_of_neg (by simpa using hread), ih hrest]

namespace Cursor

variable {place child : Place} {outer : List Place} {pending : List Lexeme}
  {before front back : List Node}

/-- The first element that is left is handed out. -/
theorem step_next (hleft : place.left pending = front ++ .element child :: back)
    (hfront : ∀ node ∈ front, node.place? = none) :
    (⟨pending, place :: outer⟩ : Cursor).step .next =
      (.child (some child.tag), ⟨child.pieces, child :: place :: outer⟩) := by
  have hnext : place.next? pending = some child := by
    rw [Place.next?, hleft, List.findSome?_append, List.findSome?_eq_none_iff.mpr hfront]
    rfl
  simp only [step, hnext]

/-- A text more is no element. -/
theorem place?_append_text (hfront : ∀ node ∈ front, node.place? = none) {text : String}
    {after : List Lexeme} : ∀ node ∈ front ++ [.text text after], node.place? = none := by
  intro node hnode
  rcases List.mem_append.mp hnode with hnode | hnode
  · exact hfront node hnode
  · obtain rfl := List.mem_singleton.mp hnode
    rfl

/-- From where a content is all that is left of an element, every element of it can be come to. -/
theorem exists_moves {raw : Xml.Content} {content : Content} (hread : raw.read? = some content)
    {tail : List Token}
    (hnodes : place.nodes = before ++ content.nodes (tail.filterMap Lexeme.ofToken?))
    (hleft : place.left pending = front ++ content.nodes (tail.filterMap Lexeme.ofToken?))
    (hfront : ∀ node ∈ front, node.place? = none) {site : Xml.Site}
    (hsite : site ∈ raw.sites tail) :
    ∃ inner moves outer', site.read? = some inner ∧
      (⟨pending, place :: outer⟩ : Cursor).play moves = ⟨inner.pieces, inner :: outer'⟩ := by
  induction raw generalizing content tail place outer pending before front with
  | empty => simp [Xml.Content.sites] at hsite
  | text raw rest ih =>
    obtain ⟨text, later, -, hrest, rfl⟩ := Xml.Content.read?_text_eq_some.mp hread
    exact ih hrest (hnodes.trans (List.append_cons ..)) (hleft.trans (List.append_cons ..))
      (place?_append_text hfront) hsite
  | cdata raw rest ih =>
    obtain ⟨later, hrest, rfl⟩ := Xml.Content.read?_cdata_eq_some.mp hread
    exact ih hrest (hnodes.trans (List.append_cons ..)) (hleft.trans (List.append_cons ..))
      (place?_append_text hfront) hsite
  | aside rest ih => exact ih hread hnodes hleft hfront hsite
  | element tag inside rest ihInside ih =>
    obtain ⟨start, below, later, htag, hinside, hrest, rfl⟩ :=
      Xml.Content.read?_element_eq_some.mp hread
    have htail : (rest.tokens ++ tail).filterMap Lexeme.ofToken? =
        later.lexemes ++ tail.filterMap Lexeme.ofToken? := by
      rw [List.filterMap_append, Xml.Content.filterMap_tokens hrest]
    have hending : (.close tag.name :: (rest.tokens ++ tail)).filterMap Lexeme.ofToken? =
        .close :: (later.lexemes ++ tail.filterMap Lexeme.ofToken?) := by
      rw [← htail]
      rfl
    let child : Place := ⟨start, below, later.lexemes ++ tail.filterMap Lexeme.ofToken?⟩
    have hnext : (⟨pending, place :: outer⟩ : Cursor).step .next =
        (.child (some start), ⟨child.pieces, child :: place :: outer⟩) := step_next hleft hfront
    simp only [Xml.Content.sites, List.mem_cons, List.mem_append] at hsite
    rcases hsite with rfl | hsite | hsite
    · refine ⟨child, [.next], place :: outer, ?_, congrArg Prod.snd hnext⟩
      simp only [Xml.Site.read?, htag, hinside, htail]
      rfl
    · have hinsideNodes : child.nodes = [] ++ below.nodes
          ((.close tag.name :: (rest.tokens ++ tail)).filterMap Lexeme.ofToken?) := by
        rw [hending]
        rfl
      have hinsideLeft : child.left child.pieces = [] ++ below.nodes
          ((.close tag.name :: (rest.tokens ++ tail)).filterMap Lexeme.ofToken?) := by
        rw [hending]
        exact Content.filter_unread_start (List.suffix_refl _)
      obtain ⟨inner, moves, outer', hinner, hplay⟩ :
          ∃ inner moves outer', site.read? = some inner ∧
            (⟨child.pieces, child :: place :: outer⟩ : Cursor).play moves =
              ⟨inner.pieces, inner :: outer'⟩ :=
        ihInside hinside hinsideNodes hinsideLeft (by simp) hsite
      refine ⟨inner, .next :: moves, outer', hinner, ?_⟩
      rw [play, List.foldl_cons, hnext]
      exact hplay
    · have hlaterNodes : place.nodes = (before ++ [.element child]) ++
          later.nodes (tail.filterMap Lexeme.ofToken?) := hnodes.trans (List.append_cons ..)
      have hlaterLeft : place.left child.pieces = [] ++
          later.nodes (tail.filterMap Lexeme.ofToken?) := Content.filter_unread_child hnodes
      obtain ⟨inner, moves, outer', hinner, hplay⟩ :
          ∃ inner moves outer', site.read? = some inner ∧
            (⟨child.pieces, place :: outer⟩ : Cursor).play moves =
              ⟨inner.pieces, inner :: outer'⟩ :=
        ih hrest hlaterNodes hlaterLeft (by simp) hsite
      refine ⟨inner, .next :: .leave :: moves, outer', hinner, ?_⟩
      rw [play, List.foldl_cons, hnext]
      exact hplay

end Cursor

/-- The text of the innermost element in use is what is left of its place, and the document is left
behind its end tag. -/
theorem Session.Tracks.step_text {s : Session} {c : Cursor} (h : s.Tracks c) {place : Place}
    {outer : List Place} (hlive : c.live = place :: outer) :
    ∃ e es, s.live = e :: es ∧ e.start = place.tag ∧
      s.step .text = (.ok (.text (place.textLeft s.document.pending)),
        ⟨e.behind place s.document, e.close :: es⟩) := by
  obtain ⟨d, live⟩ := s
  obtain ⟨pending, places⟩ := c
  obtain rfl : places = place :: outer := hlive
  have hplaces := h.live
  obtain ⟨e, es, rfl⟩ : ∃ e es, live = e :: es := by cases hplaces <;> exact ⟨_, _, rfl⟩
  refine ⟨e, es, rfl, hplaces.head.start, ?_⟩
  simp only [Session.step, Session.called, hplaces.head.takeText]
  rfl

/-- In a document of one root element, nested no deeper than it allows, every element can be come
to; and whatever moves were made, the text of the element that is then innermost is what its own
texts and CDATA sections say that were not passed yet, in order.  It closes the element and leaves
the document right behind its end tag. -/
theorem Session.text_own {cs : List Char} {maxDepth : Nat} (written : Xml.Written) {root : Place}
    (htokens : (Xml.Stream.ofChars cs).tokens = written.tokens)
    (hroot : written.root? = some root) (hroom : root.inside.depth < maxDepth) :
    ∃ session, Session.ofDocument (Document.ofChars cs maxDepth) = .ok session ∧
      ∀ site ∈ written.sites, ∃ place, site.read? = some place ∧
        (∃ moves outer, ((Cursor.ofRoot root).play moves).live = place :: outer) ∧
        ∀ moves outer, ((Cursor.ofRoot root).play moves).live = place :: outer →
          ∃ e es, (session.play moves).live = e :: es ∧ e.start = place.tag ∧
            (session.play moves).step .text =
              (.ok (.text (site.textLeft (session.play moves).document.pending)),
                ⟨⟨site.after.filterMap Lexeme.ofToken?, (session.play moves).document.fault,
                  e.depth - 1, (session.play moves).document.maxDepth⟩, e.close :: es⟩) := by
  obtain ⟨-, htag, hinside, hafter⟩ := Xml.Written.root?_eq_some hroot
  have hread : (⟨written.tag, written.inside, written.epilog⟩ : Xml.Site).read? = some root := by
    simp [Xml.Site.read?, htag, hinside, ← hafter, Except.toOption]
  have hnodes : root.nodes = root.inside.nodes
      ((.close written.tag.name :: written.epilog).filterMap Lexeme.ofToken?) := by
    have hending : (Xml.Token.close written.tag.name :: written.epilog).filterMap
        Lexeme.ofToken? = .close :: root.after := by
      rw [hafter]
      rfl
    rw [hending]
    rfl
  have hleft : root.left root.pieces = root.nodes :=
    Content.filter_unread_start (List.suffix_refl _)
  refine ⟨_, Session.ofDocument_eq htokens hroot (Nat.zero_lt_of_lt hroom), fun site hsite ↦ ?_⟩
  have hplace : ∃ place, site.read? = some place ∧
      ∃ moves outer, ((Cursor.ofRoot root).play moves).live = place :: outer := by
    rcases List.mem_cons.mp hsite with rfl | hsite
    · exact ⟨root, hread, [], [], rfl⟩
    · have hbefore : root.nodes = [] ++ _ := hnodes
      have hfront : root.left root.pieces = [] ++ _ := hleft.trans hnodes
      obtain ⟨place, moves, outer, hplace, hplay⟩ :
          ∃ inner moves outer, site.read? = some inner ∧
            (Cursor.ofRoot root).play moves = ⟨inner.pieces, inner :: outer⟩ :=
        Cursor.exists_moves hinside hbefore hfront (by simp) hsite
      exact ⟨place, hplace, moves, outer, congrArg Cursor.live hplay⟩
  obtain ⟨place, hplace, hmoves⟩ := hplace
  refine ⟨place, hplace, hmoves, fun moves outer hlive ↦ ?_⟩
  obtain ⟨-, -, hbehind⟩ := Xml.Site.read?_eq_some hplace
  rw [Xml.Site.textLeft_eq hplace, hbehind]
  exact ((Session.tracks_root hroom (Xml.Stream.ofChars cs).fault).play moves).step_text hlive

/-- A text in five parts, with a comment and an element between them. -/
def dividedText : List Char :=
  "<a>x<b>y<c/>z</b>&lt;<!-- > --><d>u</d><![CDATA[&]]>v</a>".toList

/-- After a child was left inside its own child, what follows that child is the text that is
left. -/
theorem Session.text_own_divided : ∃ session e,
    Session.ofDocument (.ofChars dividedText 3) = .ok session ∧
      (session.play [.next, .next, .leave, .leave]).live = [e] ∧
      (session.play [.next, .next, .leave, .leave]).step .text =
        (.ok (.text "<&v"), ⟨⟨[], none, e.depth - 1, 3⟩, [e.close]⟩) := by
  let inside : Xml.Content := .text ['x'] (.element ⟨['b'], []⟩
    (.text ['y'] (.element ⟨['c'], []⟩ .empty (.text ['z'] .empty)))
    (.text "&lt;".toList (.aside (.element ⟨['d'], []⟩ (.text ['u'] .empty)
      (.cdata ['&'] (.text ['v'] .empty))))))
  let root : Place := ⟨⟨⟨none, "a"⟩, []⟩, .text "x" (.element ⟨⟨none, "b"⟩, []⟩
    (.text "y" (.element ⟨⟨none, "c"⟩, []⟩ .empty (.text "z" .empty)))
    (.text "<" (.element ⟨⟨none, "d"⟩, []⟩ (.text "u" .empty) (.text "&" (.text "v" .empty))))), []⟩
  let written : Xml.Written := ⟨[], ⟨['a'], []⟩, inside, []⟩
  let site : Xml.Site := ⟨⟨['a'], []⟩, inside, []⟩
  let moves : List Move := [.next, .next, .leave, .leave]
  have htokens : (Xml.Stream.ofChars dividedText).tokens = written.tokens := by decide +kernel
  have hroot : written.root? = some root := by decide +kernel
  have hread : site.read? = some root := by decide +kernel
  obtain ⟨session, hsession, hsites⟩ :=
    Session.text_own written htokens hroot (show root.inside.depth < 3 by decide +kernel)
  obtain ⟨place, hplace, -, htext⟩ := hsites site List.mem_cons_self
  obtain rfl : root = place := Option.some.inj (hread.symm.trans hplace)
  obtain ⟨e, es, hlive, -, hstep⟩ := htext moves [] (by decide +kernel)
  have hplayed : (Session.ofDocument (.ofChars dividedText 3)).toOption.map (fun session ↦
      let played := session.play moves
      (played.live.length, site.textLeft played.document.pending, played.document.fault,
        played.document.maxDepth)) = some (1, "<&v", none, 3) := by decide +kernel
  rw [hsession] at hplayed
  simp only [Except.toOption, Option.map_some, Option.some.injEq, Prod.mk.injEq] at hplayed
  obtain ⟨hlength, htextLeft, hfault, hlimit⟩ := hplayed
  obtain rfl : es = [] := by simpa [hlive] using hlength
  rw [htextLeft, hfault, hlimit] at hstep
  exact ⟨session, e, hsession, hlive, hstep⟩

end Wire

end WireShapes
