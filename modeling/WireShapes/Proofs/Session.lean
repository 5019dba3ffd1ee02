import WireShapes.Proofs.Scope

/-!
# Sessions

A `Session` is a document with the elements in use, innermost first: calls go to the innermost one,
a child that is handed out becomes it, and `leave` drops it, in whatever state it is.  A `Cursor`
does the same on the tree of the document and knows nothing of depths: it looks for the first child
whose start tag has not been read, and puts what follows an element in front once the element is
read.  `Session.follows_cursor` says that the two agree, whatever the moves.
-/

namespace WireShapes

/-! ## Documents as written -/

namespace Xml

/-- Whether a token that is no tag can be read: an aside, or a text without a faulty reference. -/
def Token.isPlain : Token → Bool
  | .text raw => (expand raw).toOption.isSome
  | .cdata _ | .aside => true
  | .start _ | .close _ => false

/-- A document as it is written: its root element, and what stands before and after it. -/
structure Written where
  prolog : List Token
  tag : RawTag
  inside : Content
  epilog : List Token

namespace Written

def tokens (w : Written) : List Token :=
  w.prolog ++ .start w.tag :: (w.inside.tokens ++ .close w.tag.name :: w.epilog)

/-- The root element as it is read, if nothing up to its end tag is at fault. -/
def root? (w : Written) : Option Wire.Place :=
  if w.prolog.all Token.isPlain then do
    return ⟨← (Wire.StartTag.ofRaw w.tag).toOption, ← w.inside.read?,
      w.epilog.filterMap Wire.Lexeme.ofToken?⟩
  else none

theorem root?_eq_some {w : Written} {root : Wire.Place} (h : w.root? = some root) :
    w.prolog.all Token.isPlain ∧ Wire.StartTag.ofRaw w.tag = .ok root.tag ∧
      w.inside.read? = some root.inside ∧
      root.after = w.epilog.filterMap Wire.Lexeme.ofToken? := by
  unfold root? at h
  split at h
  · rename_i hprolog
    cases htag : Wire.StartTag.ofRaw w.tag with
    | error fault => simp [htag, Except.toOption] at h
    | ok tag =>
      cases hinside : w.inside.read? with
      | none => simp [hinside] at h
      | some inside =>
        obtain rfl :
            (⟨tag, inside, w.epilog.filterMap Wire.Lexeme.ofToken?⟩ : Wire.Place) = root := by
          simpa [htag, hinside, Except.toOption] using h
        exact ⟨hprolog, rfl, rfl, rfl⟩
  · simp at h

theorem root?_of {w : Written} {start : Wire.StartTag} {inside : Wire.Content}
    (hprolog : w.prolog.all Token.isPlain) (htag : Wire.StartTag.ofRaw w.tag = .ok start)
    (hinside : w.inside.read? = some inside) :
    w.root? = some ⟨start, inside, w.epilog.filterMap Wire.Lexeme.ofToken?⟩ := by
  simp [root?, hprolog, htag, hinside, Except.toOption]

/-- The pieces of the tokens of a document. -/
theorem filterMap_tokens {w : Written} {root : Wire.Place} (h : w.root? = some root) :
    w.tokens.filterMap Wire.Lexeme.ofToken? =
      w.prolog.filterMap Wire.Lexeme.ofToken? ++ .start (.ok root.tag) :: root.pieces := by
  obtain ⟨-, htag, hinside, hafter⟩ := root?_eq_some h
  simp [tokens, Wire.Lexeme.ofToken?, htag, Content.filterMap_tokens hinside, Wire.Place.pieces,
    hafter]

end Written

end Xml

namespace Wire

/-! ## Moves -/

/-- What a user of a document can do next. -/
inductive Move
  | next
  | text
  | skip
  | leave
deriving DecidableEq

/-- What a move is answered. -/
inductive Reply
  /-- The tag of the child handed out, if there is one. -/
  | child (tag : Option StartTag)
  | text (content : String)
  | skipped
  | left
  /-- No element is in use. -/
  | idle
deriving DecidableEq

/-- What a call is answered on an element that is read to its end. -/
def Move.spent : Move → Reply
  | .next => .child none
  | .text => .text ""
  | .skip => .skipped
  | .leave => .left

/-- A document and the elements in use, innermost first. -/
structure Session where
  document : Document
  live : List Element

namespace Session

/-- A document at its root element. -/
def ofDocument (d : Document) : Except DecodeError Session :=
  match d.takeRoot with
  | (.ok root, document) => .ok ⟨document, [root]⟩
  | (.error error, _) => .error error

/-- The session after a call on its innermost element; what the call hands out comes into use. -/
def called {α : Type} (call : Call α) (reply : α → Reply) (handed : List Element)
    (outer : List Element) : Except DecodeError Reply × Session :=
  (call.answer.map reply, ⟨call.document, handed ++ call.element :: outer⟩)

/-- The child that a call hands out. -/
def handed : Except DecodeError (Option Element) → List Element
  | .ok (some child) => [child]
  | _ => []

def step (s : Session) (move : Move) : Except DecodeError Reply × Session :=
  match move, s.live with
  | .leave, live => (.ok .left, ⟨s.document, live.tail⟩)
  | _, [] => (.ok .idle, s)
  | .next, e :: outer =>
    let call := e.nextChild s.document
    called call (fun child ↦ .child (child.map Element.start)) (handed call.answer) outer
  | .text, e :: outer => called (e.takeText s.document) .text [] outer
  | .skip, e :: outer => called (e.skip s.document) (fun _ ↦ .skipped) [] outer

/-- The session after some moves. -/
def play (s : Session) (moves : List Move) : Session :=
  moves.foldl (fun s move ↦ (s.step move).2) s

end Session

/-- The pieces still to be read, and the places in use, innermost first. -/
structure Cursor where
  pending : List Lexeme
  live : List Place

namespace Cursor

/-- In front of everything inside the root element. -/
def ofRoot (root : Place) : Cursor := ⟨root.pieces, [root]⟩

def step (c : Cursor) (move : Move) : Reply × Cursor :=
  match move, c.live with
  | .leave, live => (.left, ⟨c.pending, live.tail⟩)
  | _, [] => (.idle, c)
  | .next, place :: outer =>
    match place.next? c.pending with
    | some child => (.child (some child.tag), ⟨child.pieces, child :: place :: outer⟩)
    | none => (.child none, ⟨place.after, place :: outer⟩)
  | .text, place :: outer => (.text (place.textLeft c.pending), ⟨place.after, place :: outer⟩)
  | .skip, place :: outer => (.skipped, ⟨place.after, place :: outer⟩)

/-- The cursor after some moves. -/
def play (c : Cursor) (moves : List Move) : Cursor :=
  moves.foldl (fun c move ↦ (c.step move).2) c

end Cursor

/-! ## What a session keeps -/

/-- The elements in use stand at places of the tree, each in the one before it. -/
inductive Live (d : Document) : List Element → List Place → Prop
  | nil : Live d [] []
  | root {e : Element} {place : Place} : e.At place d → Live d [e] [place]
  | child {c e : Element} {inner place : Place} {es : List Element} {places : List Place} :
      c.At inner d → c.depth = e.depth + 1 → .element inner ∈ place.nodes → e.closed = false →
      Live d (e :: es) (place :: places) → Live d (c :: e :: es) (inner :: place :: places)

namespace Live

variable {d d' : Document} {e e' : Element} {place child : Place} {es : List Element}
  {places : List Place}

theorem head (h : Live d (e :: es) (place :: places)) : e.At place d := by
  cases h with
  | root hat => exact hat
  | child hat => exact hat

/-- A call on the innermost element leaves all elements at their places. -/
theorem advance (h : Live d (e :: es) (place :: places)) (hat : e'.At place d')
    (hdepth : e'.depth = e.depth) (hmax : d'.maxDepth = d.maxDepth) :
    Live d' (e' :: es) (place :: places) := by
  induction es generalizing e e' place places with
  | nil =>
    cases h with
    | root _ => exact .root hat
  | cons parent es ih =>
    cases h with
    | child _ hchild hmem hopen houter =>
      have hparent := Element.At.of_child hmem (hdepth.trans hchild) hat houter.head.start hopen
        (hmax ▸ houter.head.room)
      exact .child hat (hdepth.trans hchild) hmem hopen (ih houter hparent rfl)

/-- A child that is handed out stands in its parent. -/
theorem next (h : Live d (e :: es) (place :: places)) (hnext : place.next? d.pending = some child) :
    Live (e.inChild child d) (.opened child.tag (e.depth + 1) :: e :: es)
      (child :: place :: places) :=
  have hmem := Element.At.mem_nodes_of_next? hnext
  .child (h.head.opened hmem) rfl hmem (h.head.open_of_next? hnext)
    (h.advance (h.head.after_next hnext) rfl rfl)

/-- An element that is read to its end stands behind its end tag. -/
theorem behind (h : Live d (e :: es) (place :: places)) :
    Live (e.behind place d) (e.close :: es) (place :: places) :=
  h.advance h.head.at_behind rfl rfl

theorem tail {live : List Element} (h : Live d live places) : Live d live.tail places.tail := by
  cases h with
  | nil => exact .nil
  | root _ => exact .nil
  | child _ _ _ _ houter => exact houter

theorem after_suffix {live : List Element} (h : Live d live places) :
    ∀ place ∈ places, place.after <:+ d.pending := by
  induction h with
  | nil => simp
  | root hat => simpa using hat.after_suffix
  | child hat _ _ _ _ ih =>
    intro place hplace
    rcases List.mem_cons.mp hplace with rfl | hplace
    · exact hat.after_suffix
    · exact ih place hplace

theorem map_start {live : List Element} (h : Live d live places) :
    live.map Element.start = places.map Place.tag := by
  induction h with
  | nil => rfl
  | root hat => simp [hat.start]
  | child hat _ _ _ _ ih => rw [List.map_cons, ih, hat.start, ← List.map_cons]

end Live

/-! ## Sessions follow cursors -/

/-- A session and a cursor stand at the same places of the tree. -/
structure Session.Tracks (s : Session) (c : Cursor) : Prop where
  pending : s.document.pending = c.pending
  live : Live s.document s.live c.live

/-- A session answers as a cursor does. -/
structure Session.Follows (s : Session) (c : Cursor) : Prop where
  /-- The same pieces are still to be read. -/
  pending : s.document.pending = c.pending
  /-- The elements in use have the tags of the places. -/
  live : s.live.map Element.start = c.live.map Place.tag
  /-- No move fails, and each is answered alike. -/
  replies : ∀ move, (s.step move).1 = .ok (c.step move).1
  /-- The next child is the first whose start tag has not been read, or none if there is none. -/
  next : ∀ place outer, c.live = place :: outer →
    (s.step .next).1 = .ok (.child ((place.next? s.document.pending).map Place.tag))
  /-- What follows an element in use is still to be read. -/
  inside : ∀ place ∈ c.live, place.after <:+ s.document.pending
  /-- Once there is no next child, calls change nothing and have nothing to answer. -/
  spent : (s.step .next).1 = .ok (.child none) → ∀ later : List Move, .leave ∉ later →
    (s.step .next).2.play later = (s.step .next).2 ∧
      ∀ move ≠ .leave, ((s.step .next).2.step move).1 = .ok move.spent

namespace Session

variable {s : Session} {c : Cursor} {e : Element} {es : List Element} {d : Document}
  {place : Place} {places : List Place}

theorem Tracks.step (h : s.Tracks c) (move : Move) :
    (s.step move).1 = .ok (c.step move).1 ∧ (s.step move).2.Tracks (c.step move).2 := by
  obtain ⟨d, live⟩ := s
  obtain ⟨pending, places⟩ := c
  obtain ⟨hpending, hlive⟩ := h
  obtain rfl : d.pending = pending := hpending
  cases places with
  | nil =>
    cases hlive
    cases move <;> exact ⟨rfl, rfl, .nil⟩
  | cons place places =>
    obtain ⟨e, es, rfl⟩ : ∃ e es, live = e :: es := by cases hlive <;> exact ⟨_, _, rfl⟩
    have hat := hlive.head
    cases move with
    | next =>
      have hcall := hat.nextChild
      cases hnext : place.next? d.pending with
      | none =>
        rw [hnext] at hcall
        simp only [Session.step, Cursor.step, called, hcall, hnext]
        exact ⟨rfl, rfl, hlive.behind⟩
      | some child =>
        rw [hnext] at hcall
        simp only [Session.step, Cursor.step, called, hcall, hnext]
        exact ⟨rfl, rfl, hlive.next hnext⟩
    | text =>
      simp only [Session.step, Cursor.step, called, hat.takeText]
      exact ⟨rfl, rfl, hlive.behind⟩
    | skip =>
      simp only [Session.step, Cursor.step, called, hat.skip]
      exact ⟨rfl, rfl, hlive.behind⟩
    | leave => exact ⟨rfl, rfl, hlive.tail⟩

theorem Tracks.play (h : s.Tracks c) (moves : List Move) :
    (s.play moves).Tracks (c.play moves) := by
  induction moves generalizing s c with
  | nil => exact h
  | cons move moves ih => exact ih (h.step move).2

/-- The innermost element is read to its end. -/
def Spent (s : Session) : Prop :=
  ∃ e outer, s.live = e :: outer ∧ e.closed = true

theorem Spent.step {move : Move} (h : s.Spent) (hmove : move ≠ .leave) :
    s.step move = (.ok move.spent, s) := by
  obtain ⟨d, live⟩ := s
  obtain ⟨e, outer, rfl, hclosed⟩ := h
  have hnext : e.nextChild d = ⟨.ok none, e, d⟩ := by simp [Element.nextChild, hclosed]
  have htext : e.takeText d = ⟨.ok "", e, d⟩ := by simp [Element.takeText, hclosed]
  have hskip : e.skip d = ⟨.ok (), e, d⟩ := by
    rw [Element.skip]
    split <;> simp_all
  cases move with
  | next =>
    simp only [Session.step, called, hnext]
    rfl
  | text =>
    simp only [Session.step, called, htext]
    rfl
  | skip =>
    simp only [Session.step, called, hskip]
    rfl
  | leave => exact absurd rfl hmove

theorem Spent.play {later : List Move} (h : s.Spent) (hlater : .leave ∉ later) :
    s.play later = s := by
  induction later with
  | nil => rfl
  | cons move later ih =>
    obtain ⟨hmove, hrest⟩ : .leave ≠ move ∧ .leave ∉ later := by simpa using hlater
    rw [Session.play, List.foldl_cons, h.step hmove.symm]
    exact ih hrest

/-- An element without a next child is read to its end. -/
theorem Tracks.spent (h : s.Tracks c) (hnone : (s.step .next).1 = .ok (.child none)) :
    (s.step .next).2.Spent := by
  obtain ⟨d, live⟩ := s
  obtain ⟨pending, places⟩ := c
  obtain ⟨-, hlive⟩ := h
  cases places with
  | nil =>
    cases hlive
    simp [Session.step] at hnone
  | cons place places =>
    obtain ⟨e, es, rfl⟩ : ∃ e es, live = e :: es := by cases hlive <;> exact ⟨_, _, rfl⟩
    have hcall := hlive.head.nextChild
    cases hnext : place.next? d.pending with
    | none =>
      rw [hnext] at hcall
      refine ⟨e.close, es, ?_, rfl⟩
      simp only [Session.step, called, hcall]
      rfl
    | some child =>
      rw [hnext] at hcall
      simp [Session.step, called, hcall, Except.map] at hnone

theorem Tracks.follows (h : s.Tracks c) : s.Follows c where
  pending := h.pending
  live := h.live.map_start
  replies move := (h.step move).1
  next place outer hlive := by
    rw [(h.step .next).1, h.pending]
    simp only [Cursor.step, hlive]
    cases place.next? c.pending <;> rfl
  inside := h.live.after_suffix
  spent hnone later hlater := by
    have hspent := h.spent hnone
    exact ⟨hspent.play hlater, fun move hmove ↦ by rw [hspent.step hmove]⟩

end Session

/-! ## The root element -/

/-- Texts before the root element are passed over. -/
theorem Document.seekRoot_append {prolog : List Xml.Token} (hprolog : prolog.all Xml.Token.isPlain)
    (fault : Option Xml.ScanFault) (maxDepth : Nat) (rest : List Lexeme) :
    Document.seekRoot fault maxDepth 0 (prolog.filterMap Lexeme.ofToken? ++ rest) =
      Document.seekRoot fault maxDepth 0 rest := by
  induction prolog with
  | nil => rfl
  | cons token prolog ih =>
    obtain ⟨htoken, hprolog⟩ : token.isPlain = true ∧ prolog.all Xml.Token.isPlain = true := by
      simpa using hprolog
    have hrest := ih hprolog
    cases token with
    | start tag => simp [Xml.Token.isPlain] at htoken
    | close name => simp [Xml.Token.isPlain] at htoken
    | aside => simpa [List.filterMap_cons, Lexeme.ofToken?] using hrest
    | cdata raw => simpa [Lexeme.ofToken?, seekRoot, Lexeme.read] using hrest
    | text raw =>
      cases htext : Xml.expand raw with
      | error fault => simp [Xml.Token.isPlain, htext, Except.toOption] at htoken
      | ok text => simpa [Lexeme.ofToken?, htext, seekRoot, Lexeme.read] using hrest

theorem Document.seekRoot_prolog {prolog : List Xml.Token} (hprolog : prolog.all Xml.Token.isPlain)
    (fault : Option Xml.ScanFault) {maxDepth : Nat} (hroom : 0 < maxDepth) (tag : StartTag)
    (rest : List Lexeme) :
    Document.seekRoot fault maxDepth 0
        (prolog.filterMap Lexeme.ofToken? ++ .start (.ok tag) :: rest) =
      (.ok (.opened tag 1), ⟨rest, fault, 1, maxDepth⟩) := by
  have hne : 0 ≠ maxDepth := by omega
  rw [seekRoot_append hprolog]
  simp [seekRoot, Lexeme.read, hne]

/-- The document at a root element, if it allows one. -/
theorem Session.ofDocument_eq {cs : List Char} {limit : Nat} {written : Xml.Written} {root : Place}
    (htokens : (Xml.Stream.ofChars cs).tokens = written.tokens)
    (hroot : written.root? = some root) (hlimit : 0 < limit) :
    Session.ofDocument (.ofChars cs limit) = .ok
      ⟨⟨root.pieces, (Xml.Stream.ofChars cs).fault, 1, limit⟩, [.opened root.tag 1]⟩ := by
  obtain ⟨hprolog, -, -, -⟩ := Xml.Written.root?_eq_some hroot
  have hseek := Document.seekRoot_prolog hprolog (Xml.Stream.ofChars cs).fault hlimit root.tag
    root.pieces
  rw [← Xml.Written.filterMap_tokens hroot, ← htokens] at hseek
  simp only [Session.ofDocument, Document.takeRoot, Document.ofChars, hseek]

/-- A root element that nests no deeper than its document allows is followed from its start. -/
theorem Session.tracks_root {root : Place} {limit : Nat} (hroom : root.inside.depth < limit)
    (fault : Option Xml.ScanFault) :
    Session.Tracks ⟨⟨root.pieces, fault, 1, limit⟩, [.opened root.tag 1]⟩ (.ofRoot root) where
  pending := rfl
  live := .root {
    start := rfl
    room := by
      show 1 + root.inside.depth ≤ limit
      omega
    inside := fun _ ↦ .start root.inside 1 (.close :: root.after)
    behind := fun hclosed ↦ by simp [Element.opened] at hclosed }

/-- A document of one root element, nested no deeper than it allows, is met piece by piece: in any
order of moves, whatever is dropped and wherever, each answer is that of the tree. -/
theorem Session.follows_cursor {cs : List Char} {maxDepth : Nat} (written : Xml.Written)
    {root : Place} (htokens : (Xml.Stream.ofChars cs).tokens = written.tokens)
    (hroot : written.root? = some root) (hroom : root.inside.depth < maxDepth) :
    ∃ session, Session.ofDocument (Document.ofChars cs maxDepth) = .ok session ∧
      ∀ moves, (session.play moves).Follows ((Cursor.ofRoot root).play moves) := by
  obtain ⟨hprolog, -, -, -⟩ := Xml.Written.root?_eq_some hroot
  have hseek := Document.seekRoot_prolog hprolog (Xml.Stream.ofChars cs).fault
    (Nat.zero_lt_of_lt hroom) root.tag root.pieces
  rw [← Xml.Written.filterMap_tokens hroot, ← htokens] at hseek
  have hopen : Session.ofDocument (Document.ofChars cs maxDepth) =
      .ok ⟨⟨root.pieces, (Xml.Stream.ofChars cs).fault, 1, maxDepth⟩, [.opened root.tag 1]⟩ := by
    simp only [Session.ofDocument, Document.takeRoot, Document.ofChars, hseek]
  refine ⟨_, hopen, fun moves ↦ Session.Tracks.follows (Session.Tracks.play ?_ moves)⟩
  exact {
    pending := rfl
    live := .root {
      start := rfl
      room := by
        show 1 + root.inside.depth ≤ maxDepth
        omega
      inside := fun _ ↦ .start root.inside 1 (.close :: root.after)
      behind := fun hclosed ↦ by simp [Element.opened] at hclosed } }

/-- A document with a text, an attribute, a comment and elements inside elements, as deep as it may
be. -/
theorem Session.follows_cursor_nested :
    ∃ session, Session.ofDocument
        (Document.ofChars "\n<a><b i=\"1\">x<c/></b><!-- y --><d/></a>".toList 3) = .ok session ∧
      ∀ moves, (session.play moves).Follows ((Cursor.ofRoot
        ⟨⟨⟨none, "a"⟩, []⟩,
          .element ⟨⟨none, "b"⟩, [⟨⟨none, "i"⟩, "1"⟩]⟩
            (.text "x" (.element ⟨⟨none, "c"⟩, []⟩ .empty .empty))
            (.element ⟨⟨none, "d"⟩, []⟩ .empty .empty), []⟩).play moves) :=
  Session.follows_cursor
    { prolog := [.text "\n".toList]
      tag := ⟨"a".toList, []⟩
      inside := .element ⟨"b".toList, " i=\"1\"".toList⟩
        (.text "x".toList (.element ⟨"c".toList, []⟩ .empty .empty))
        (.aside (.element ⟨"d".toList, []⟩ .empty .empty))
      epilog := [] }
    (by decide +kernel) (by decide +kernel) (by decide +kernel)

end Wire

end WireShapes
