import WireShapes.Proofs.Truncation

/-!
# The nesting limit

A document counts its open elements as it is read.  The count is right at every point that reading
comes to without an error, and never more than the limit, whatever calls are made on the elements in
use and whatever is left unread (`Document.Behind`).  Where elements nest no deeper than the limit no
call fails; where they do, calls fail at the first start tag past the limit and nowhere before
(`Document.Before`).  Decoders call one another only for elements inside, so their recursion has no
more levels than documents have.
-/

namespace WireShapes

namespace Wire

open Xml (Token)

/-! ## Counting open elements -/

/-- How many elements are open behind some pieces, if every end tag among them is that of an open
one. -/
def openAfter : (depth : Nat) → List Lexeme → Option Nat
  | depth, [] => some depth
  | depth, .start _ :: rest => openAfter (depth + 1) rest
  | 0, .close :: _ => none
  | depth + 1, .close :: rest => openAfter depth rest
  | depth, .text _ :: rest => openAfter depth rest

/-- Pieces that lead from a depth to the limit: none is at fault, no start tag passes the limit, and
no end tag is that of the outermost element. -/
def Climbs (limit : Nat) : (depth : Nat) → List Lexeme → Prop
  | depth, [] => depth = limit
  | depth, .start (.ok _) :: rest => depth < limit ∧ Climbs limit (depth + 1) rest
  | _, .start (.error _) :: _ => False
  | depth, .close :: rest => 1 < depth ∧ Climbs limit (depth - 1) rest
  | depth, .text (.ok _) :: rest => Climbs limit depth rest
  | _, .text (.error _) :: _ => False

theorem openAfter_append (depth : Nat) (front back : List Lexeme) :
    openAfter depth (front ++ back) = (openAfter depth front).bind fun after ↦
      openAfter after back := by
  fun_induction openAfter depth front with
  | case1 depth => rfl
  | case2 depth tag rest ih => simpa [openAfter] using ih
  | case3 rest => simp [openAfter]
  | case4 depth rest ih => simpa [openAfter] using ih
  | case5 depth text rest ih => simpa [openAfter] using ih

/-- Texts outside of elements open none. -/
theorem openAfter_prolog {prolog : List Token} (h : prolog.all Token.isPlain = true) (depth : Nat) :
    openAfter depth (prolog.filterMap Lexeme.ofToken?) = some depth := by
  induction prolog with
  | nil => rfl
  | cons token rest ih =>
    obtain ⟨htoken, hrest⟩ : token.isPlain = true ∧ rest.all Token.isPlain = true := by
      simpa using h
    cases token with
    | start tag => simp [Token.isPlain] at htoken
    | close name => simp [Token.isPlain] at htoken
    | aside | cdata raw | text raw =>
      simpa [List.filterMap_cons, Lexeme.ofToken?, openAfter] using ih hrest

/-! ### Contents that nest too deep -/

/-- A content that fits does not change the depth. -/
theorem Climbs.content {content : Content} {limit level : Nat} {more : List Lexeme}
    (h : Climbs limit level more) (hlevel : 0 < level) (hroom : level + content.depth ≤ limit) :
    Climbs limit level (content.lexemes ++ more) := by
  induction content generalizing level more with
  | empty => exact h
  | text content rest ih => exact ih h hlevel hroom
  | element tag inside rest ihInside ih =>
    simp only [Content.depth] at hroom
    have hclose : Climbs limit (level + 1) (.close :: (rest.lexemes ++ more)) :=
      ⟨by omega, ih h hlevel (by omega)⟩
    have hinside := ihInside hclose (Nat.succ_pos level) (by omega)
    simp only [Content.lexemes, List.cons_append, List.append_assoc]
    exact ⟨by omega, hinside⟩

/-- Where a content does not fit, there is a first start tag past the limit. -/
theorem exists_climbs {content : Content} {limit level : Nat} (tail : List Lexeme)
    (hlevel : 0 < level) (hlimit : level ≤ limit) (hdeep : limit < level + content.depth) :
    ∃ between tag after, content.lexemes ++ tail = between ++ .start (.ok tag) :: after ∧
      Climbs limit level between := by
  induction content generalizing level tail with
  | empty =>
    simp only [Content.depth] at hdeep
    omega
  | text content rest ih =>
    obtain ⟨between, tag, after, hpieces, hclimbs⟩ := ih tail hlevel hlimit hdeep
    exact ⟨.text (.ok content) :: between, tag, after, by simp [Content.lexemes, hpieces], hclimbs⟩
  | element tag inside rest ihInside ih =>
    simp only [Content.depth] at hdeep
    simp only [Content.lexemes, List.cons_append, List.append_assoc]
    by_cases hfull : level = limit
    · exact ⟨[], tag, _, rfl, hfull⟩
    · by_cases hinside : limit < level + 1 + inside.depth
      · obtain ⟨between, inner, after, hpieces, hclimbs⟩ :=
          ihInside (.close :: (rest.lexemes ++ tail)) (Nat.succ_pos level) (by omega) hinside
        exact ⟨.start (.ok tag) :: between, inner, after, by rw [hpieces, List.cons_append],
          by omega, hclimbs⟩
      · obtain ⟨between, inner, after, hpieces, hclimbs⟩ := ih tail hlevel hlimit (by omega)
        have hclose : Climbs limit (level + 1) (.close :: between) := ⟨by omega, hclimbs⟩
        exact ⟨.start (.ok tag) :: (inside.lexemes ++ .close :: between), inner, after,
          by simp [hpieces], by omega, hclose.content (Nat.succ_pos level) (by omega)⟩

/-! ## Documents as they are read -/

namespace Document

/-- Reading has come to a point behind some of the pieces, and counts what is open there. -/
def Behind (pieces : List Lexeme) (d : Document) : Prop :=
  ∃ front, pieces = front ++ d.pending ∧ openAfter 0 front = some d.depth

/-- Inside the root element, reading is on the way to the first start tag past the limit. -/
structure Before (limit : Nat) (tag : Except TagFault StartTag) (after : List Lexeme)
    (fault : Option Xml.ScanFault) (d : Document) : Prop where
  pending : ∃ between, d.pending = between ++ .start tag :: after ∧ Climbs limit d.depth between
  inside : 0 < d.depth
  maxDepth_eq : d.maxDepth = limit
  fault_eq : d.fault = fault

variable {level : Nat} {d d' : Document} {pieces : List Lexeme}

theorem Behind.reaches (h : d.Behind pieces) (hreaches : d.Reaches level d') :
    d'.Behind pieces := by
  induction hreaches with
  | refl d => exact h
  | @step piece rest fault depth maxDepth after event d hread hclose _ ih =>
    obtain ⟨front, hpieces, hopen⟩ := h
    refine ih ⟨front ++ [piece], by rw [hpieces]; simp, ?_⟩
    rw [openAfter_append, hopen]
    show openAfter depth [piece] = some after
    rcases piece with tag | - | content
    · by_cases hfull : depth = maxDepth
      · simp [Lexeme.read, hfull] at hread
      · cases tag with
        | error reason => simp [Lexeme.read, hfull] at hread
        | ok tag =>
          obtain ⟨-, rfl⟩ : Event.start tag = event ∧ depth + 1 = after := by
            simpa [Lexeme.read, hfull] using hread
          rfl
    · obtain ⟨rfl, rfl⟩ : Event.close = event ∧ depth - 1 = after := by
        simpa [Lexeme.read] using hread
      have hpos := hclose rfl
      cases depth with
      | zero => omega
      | succ depth => rfl
    · cases content with
      | error reason => simp [Lexeme.read] at hread
      | ok text =>
        obtain ⟨-, rfl⟩ : Event.text text = event ∧ depth = after := by
          simpa [Lexeme.read] using hread
        rfl

section Before

variable {limit : Nat} {tag : Except TagFault StartTag} {after : List Lexeme}
  {fault : Option Xml.ScanFault}

/-- Short of the tag past the limit no piece is at fault. -/
theorem Before.read {piece : Lexeme} {rest : List Lexeme} {depth : Nat}
    (h : Before limit tag after fault ⟨piece :: rest, fault, depth, limit⟩) :
    (piece = .start tag ∧ rest = after ∧ depth = limit) ∨
      ∃ event next, piece.read depth limit = (.ok event, next) ∧
        Before limit tag after fault ⟨rest, fault, next, limit⟩ := by
  obtain ⟨⟨between, hpending, hclimbs⟩, hinside, -, -⟩ := h
  dsimp only at hpending hclimbs hinside
  cases between with
  | nil =>
    obtain ⟨rfl, rfl⟩ := List.cons.inj hpending
    exact .inl ⟨rfl, rfl, hclimbs⟩
  | cons first between =>
    obtain ⟨rfl, rfl⟩ := List.cons.inj hpending
    refine .inr ?_
    rcases piece with (reason | start) | - | (reason | text)
    · exact absurd hclimbs id
    · obtain ⟨hroom, hlater⟩ : depth < limit ∧ Climbs limit (depth + 1) between := hclimbs
      exact ⟨.start start, depth + 1, by simp [Lexeme.read, Nat.ne_of_lt hroom],
        ⟨between, rfl, hlater⟩, Nat.succ_pos depth, rfl, rfl⟩
    · obtain ⟨hdeep, hlater⟩ : 1 < depth ∧ Climbs limit (depth - 1) between := hclimbs
      exact ⟨.close, depth - 1, rfl, ⟨between, rfl, hlater⟩, Nat.sub_pos_of_lt hdeep, rfl, rfl⟩
    · exact absurd hclimbs id
    · exact ⟨.text text, depth, rfl, ⟨between, rfl, hclimbs⟩, hinside, rfl, rfl⟩

theorem Before.reaches (h : d.Before limit tag after fault) (hreaches : d.Reaches level d') :
    d'.Before limit tag after fault := by
  induction hreaches with
  | refl d => exact h
  | @step piece rest _ depth _ next event d hread _ _ ih =>
    obtain rfl := h.maxDepth_eq
    obtain rfl := h.fault_eq
    rcases h.read with ⟨rfl, rfl, rfl⟩ | ⟨event', next', hread', hbefore⟩
    · simp [Lexeme.read] at hread
    · rw [hread] at hread'
      obtain ⟨-, rfl⟩ := Prod.mk.inj hread'
      exact ih hbefore

/-- Where reading stops is at the first start tag past the limit. -/
theorem Before.stops (h : d.Before limit tag after fault) {e : Element} {error : DecodeError}
    (hstops : d.Stops e error d') : error = .tooDeep limit ∧ d' = ⟨after, fault, limit, limit⟩ := by
  cases hstops with
  | fault hread =>
    obtain rfl := h.maxDepth_eq
    obtain rfl := h.fault_eq
    rcases h.read with ⟨rfl, rfl, rfl⟩ | ⟨event, next, hread', -⟩
    · simp only [Lexeme.read, if_true, Prod.mk.injEq, Except.error.injEq] at hread
      obtain ⟨rfl, rfl⟩ := hread
      exact ⟨rfl, rfl⟩
    · simp [hread] at hread'
  | finished =>
    obtain ⟨between, hpending, -⟩ := h.pending
    simp at hpending

/-- The root element is not read to its end. -/
theorem Before.not_finishes (h : d.Before limit tag after fault) {e : Element} (hroot : e.depth = 1)
    (hfinishes : e.Finishes d d') : False := by
  obtain ⟨rest, hreaches, -⟩ := hfinishes
  obtain ⟨between, hpending, hclimbs⟩ := (h.reaches hreaches).pending
  dsimp only at hpending hclimbs
  cases between with
  | nil => simp at hpending
  | cons piece between =>
    obtain ⟨rfl, -⟩ := List.cons.inj hpending
    have hdeep : 1 < e.depth := hclimbs.1
    omega

end Before

end Document

/-! ## Sessions -/

/-- Elements in use, innermost first, each inside the next one, and that one still open. -/
inductive Stacked : List Element → Prop
  | none : Stacked []
  | root {e : Element} : e.depth = 1 → Stacked [e]
  | inner {c e : Element} {outer : List Element} : c.depth = e.depth + 1 → e.closed = false →
      Stacked (e :: outer) → Stacked (c :: e :: outer)

namespace Stacked

variable {e e' : Element} {outer live : List Element}

theorem pos (h : Stacked (e :: outer)) : 0 < e.depth := by
  cases h with
  | root hroot => omega
  | inner hdepth => omega

theorem tail (h : Stacked live) : Stacked live.tail := by
  cases h with
  | none => exact .none
  | root => exact .none
  | inner _ _ houter => exact houter

theorem replace (h : Stacked (e :: outer)) (hdepth : e'.depth = e.depth) :
    Stacked (e' :: outer) := by
  cases h with
  | root hroot => exact .root (hdepth.trans hroot)
  | inner hinner hopen houter => exact .inner (hdepth.trans hinner) hopen houter

end Stacked

/-- The innermost element in use is the one that the document is inside of, or was closed last. -/
structure Session.InUse (s : Session) : Prop where
  stacked : Stacked s.live
  level : ∀ e ∈ s.live.head?, if e.closed then s.document.depth + 1 = e.depth
    else e.depth ≤ s.document.depth

/-- No move of a list fails. -/
def Session.Runs (s : Session) : List Move → Prop
  | [] => True
  | move :: rest => (∃ reply, (s.step move).1 = .ok reply) ∧ (s.step move).2.Runs rest

namespace Session

variable {s : Session} {e : Element} {outer : List Element} {d : Document}

theorem InUse.closed (h : InUse ⟨d, e :: outer⟩) (hclosed : e.closed = true) :
    d.depth + 1 = e.depth := by
  have hlevel := h.level e rfl
  rwa [hclosed, if_pos rfl] at hlevel

theorem InUse.open (h : InUse ⟨d, e :: outer⟩) (hopen : e.closed = false) : e.depth ≤ d.depth := by
  have hlevel := h.level e rfl
  rwa [hopen, if_neg (by simp)] at hlevel

/-- An element that is no longer used leaves the one around it in use. -/
theorem InUse.tail (h : s.InUse) : InUse ⟨s.document, s.live.tail⟩ := by
  obtain ⟨d, live⟩ := s
  refine ⟨h.stacked.tail, ?_⟩
  intro parent hparent
  cases hlive : live with
  | nil => simp [hlive] at hparent
  | cons c outer =>
    subst hlive
    have hstacked := h.stacked
    cases hstacked with
    | root => simp at hparent
    | @inner _ e outer hdepth hopen _ =>
      obtain rfl : e = parent := by simpa using hparent
      rw [hopen, if_neg (by simp)]
      show e.depth ≤ d.depth
      cases hclosed : c.closed with
      | true =>
        have hlevel := h.closed hclosed
        omega
      | false =>
        have hlevel := h.open hclosed
        omega

/-- A call that reads its element to the end leaves it in use. -/
theorem InUse.called_of_closes {α : Type} {call : Call α} {answer : α}
    (h : InUse ⟨d, e :: outer⟩) (hcall : call.Closes e d answer) (reply : α → Reply) :
    ∃ next, called call reply [] outer = (.ok (reply answer), next) ∧ next.InUse ∧
      d.Reaches 0 next.document := by
  have hpos := h.stacked.pos
  obtain ⟨d', rfl, hfinishes⟩ := hcall
  refine ⟨_, rfl, ⟨h.stacked.replace rfl, ?_⟩, hfinishes.reaches hpos⟩
  obtain ⟨rest, -, rfl⟩ := hfinishes
  intro other hother
  obtain rfl : e.close = other := by simpa using hother
  show e.depth - 1 + 1 = e.depth
  omega

theorem called_of_fails {α : Type} {call : Call α} (hcall : call.Fails e d) (reply : α → Reply)
    (handed outer : List Element) :
    ∃ e error between, (called call reply handed outer).1 = .error error ∧ d.Reaches 0 between ∧
      between.Stops e error (called call reply handed outer).2.document := by
  obtain ⟨error, between, d', rfl, hreaches, hstops⟩ := hcall
  exact ⟨e, error, between, rfl, hreaches.mono (Nat.zero_le _), hstops⟩

/-- A move leaves elements in use and reads on, or it fails where reading stops. -/
theorem InUse.step (h : s.InUse) (move : Move) :
    (∃ reply next, s.step move = (.ok reply, next) ∧ next.InUse ∧
      s.document.Reaches 0 next.document) ∨
    ∃ e error d, (s.step move).1 = .error error ∧ s.document.Reaches 0 d ∧
      d.Stops e error (s.step move).2.document := by
  obtain ⟨d, live⟩ := s
  cases live with
  | nil =>
    cases move <;> exact .inl ⟨_, _, rfl, ⟨.none, by simp⟩, .refl d⟩
  | cons e outer =>
    by_cases hleave : move = .leave
    · subst hleave
      exact .inl ⟨_, _, rfl, h.tail, .refl d⟩
    · cases hclosed : e.closed with
      | true =>
        have hspent : Spent ⟨d, e :: outer⟩ := ⟨e, outer, rfl, hclosed⟩
        exact .inl ⟨_, _, hspent.step hleave, h, .refl d⟩
      | false =>
        have hlevel := h.open hclosed
        cases move with
        | leave => exact absurd rfl hleave
        | next =>
          rcases Element.nextChild_cases hclosed hlevel with hopens | hcall | hcall
          · obtain ⟨tag, d', hcall, hdepth, hreaches⟩ := hopens
            refine .inl ⟨.child (some tag), ⟨d', .opened tag (e.depth + 1) :: e :: outer⟩, ?_,
              ⟨.inner rfl hclosed h.stacked, ?_⟩, hreaches.mono (Nat.zero_le _)⟩
            · simp only [Session.step, Session.called, hcall]
              rfl
            · intro other hother
              obtain rfl : Element.opened tag (e.depth + 1) = other := by simpa using hother
              show e.depth + 1 ≤ d'.depth
              omega
          · have hhanded : Session.handed (e.nextChild d).answer = [] := by
              obtain ⟨d', hcall, -⟩ := hcall
              simp [hcall, Session.handed]
            obtain ⟨next, hnext, hkeeps⟩ :=
              h.called_of_closes hcall fun child ↦ .child (child.map Element.start)
            refine .inl ⟨.child none, next, ?_, hkeeps⟩
            simp only [Session.step, hhanded]
            exact hnext
          · exact .inr (called_of_fails hcall _ _ _)
        | text =>
          rcases Element.takeText_cases hclosed hlevel with ⟨text, hcall⟩ | hcall
          · obtain ⟨next, hnext, hkeeps⟩ := h.called_of_closes hcall .text
            exact .inl ⟨_, next, hnext, hkeeps⟩
          · exact .inr (called_of_fails hcall _ _ _)
        | skip =>
          rcases Element.skip_cases hclosed hlevel with hcall | hcall
          · obtain ⟨next, hnext, hkeeps⟩ := h.called_of_closes hcall fun _ ↦ .skipped
            exact .inl ⟨_, next, hnext, hkeeps⟩
          · exact .inr (called_of_fails hcall _ _ _)

/-- Moves that do not fail leave elements in use and read on. -/
theorem InUse.play (h : s.InUse) {moves : List Move} (hruns : s.Runs moves) :
    (s.play moves).InUse ∧ s.document.Reaches 0 (s.play moves).document := by
  induction moves generalizing s with
  | nil => exact ⟨h, .refl _⟩
  | cons move rest ih =>
    obtain ⟨⟨reply, hreply⟩, hrest⟩ := hruns
    rcases h.step move with ⟨_, next, hstep, hinUse, hreaches⟩ | ⟨_, error, _, herror, -⟩
    · rw [hstep] at hrest
      obtain ⟨hlast, hlater⟩ := ih hinUse hrest
      rw [Session.play, List.foldl_cons, hstep]
      exact ⟨hlast, hreaches.trans hlater⟩
    · simp [hreply] at herror

end Session

/-! ### Root elements -/

variable {cs : List Char} {limit : Nat} {written : Xml.Written} {root : Place} {session : Session}

theorem Document.pos_of_seekRoot {fault : Option Xml.ScanFault} {maxDepth : Nat}
    {pieces : List Lexeme} {e : Element} {d : Document}
    (h : Document.seekRoot fault maxDepth 0 pieces = (.ok e, d)) : 0 < maxDepth := by
  rw [Nat.pos_iff_ne_zero]
  rintro rfl
  induction pieces with
  | nil => simp [seekRoot] at h
  | cons piece rest ih =>
    rcases piece with tag | - | (fault | text)
    · simp [seekRoot, Lexeme.read] at h
    · exact ih (by simpa [seekRoot, Lexeme.read] using h)
    · simp [seekRoot, Lexeme.read] at h
    · exact ih (by simpa [seekRoot, Lexeme.read] using h)

/-- At its root element a document counts one open element. -/
theorem Session.start (h : Session.ofDocument (.ofChars cs limit) = .ok session) :
    session.InUse ∧ session.document.Behind (Document.ofChars cs limit).pending ∧
      session.document.depth ≤ limit ∧ session.document.maxDepth = limit := by
  rcases htake : (Document.ofChars cs limit).takeRoot with ⟨error | e, d⟩
  · simp [Session.ofDocument, htake] at h
  · obtain rfl : ⟨d, [e]⟩ = session := by simpa [Session.ofDocument, htake] using h
    have hpos : 0 < limit := Document.pos_of_seekRoot htake
    obtain ⟨prolog, tag, start, rest, htokens, hprolog, htag, -, rfl, rfl⟩ :=
      exists_of_seekRoot (Xml.nested_ofChars cs) htake
    refine ⟨⟨.root rfl, by simp [Element.opened]⟩, ⟨prolog.filterMap Lexeme.ofToken? ++
      [.start (.ok start)], ?_, ?_⟩, hpos, rfl⟩
    · simp [Document.ofChars, htokens, Lexeme.ofToken?, htag]
    · rw [openAfter_append, openAfter_prolog hprolog]
      rfl

/-- The outermost place of a cursor is the root. -/
theorem Cursor.play_live (root : Place) (moves : List Move) :
    ((Cursor.ofRoot root).play moves).live = [] ∨
      ((Cursor.ofRoot root).play moves).live.getLast? = some root := by
  induction moves using List.reverseRecOn with
  | nil => exact .inr rfl
  | append_singleton moves move ih =>
    rw [Cursor.play, List.foldl_append, List.foldl_cons, List.foldl_nil, ← Cursor.play]
    generalize (Cursor.ofRoot root).play moves = c at ih
    obtain ⟨pending, live⟩ := c
    cases live with
    | nil => cases move <;> exact .inl rfl
    | cons place outer =>
      have hlast : (place :: outer).getLast? = some root := by simpa using ih
      cases move with
      | next =>
        simp only [Cursor.step]
        split
        · exact .inr (by rw [List.getLast?_cons_cons, hlast])
        · exact .inr hlast
      | text => exact .inr hlast
      | skip => exact .inr hlast
      | leave =>
        cases outer with
        | nil => exact .inl rfl
        | cons parent outer =>
          rw [List.getLast?_cons_cons] at hlast
          exact .inr hlast

/-! ## Sessions up to the limit and past it -/

/-- No call on elements fails, and the root element can be read to its end at any point; a document
is left behind it. -/
def Session.ReadsThrough (session : Session) (behind : Document) : Prop :=
  ∀ moves, session.Runs moves ∧ ∀ e, (session.play moves).live = [e] →
    (session.play moves).step .skip = (.ok .skipped, ⟨behind, [e.close]⟩)

/-- Calls on elements do not get past a piece: those that fail do so there, and the root element
cannot be read to its end. -/
def Session.StopsAt (session : Session) (piece : Lexeme) (after : List Lexeme)
    (error : DecodeError) (behind : Document) : Prop :=
  ∀ moves, session.Runs moves →
    (piece :: after <:+ (session.play moves).document.pending ∧
      ∀ move reason, ((session.play moves).step move).1 = .error reason →
        reason = error ∧ ((session.play moves).step move).2.document = behind) ∧
    ∀ e, (session.play moves).live = [e] → ((session.play moves).step .skip).1 = .error error

/-- Elements that nest no deeper than the limit are read whatever the calls. -/
theorem Session.readsThrough (htokens : (Xml.Stream.ofChars cs).tokens = written.tokens)
    (hroot : written.root? = some root) (hroom : root.inside.depth < limit) :
    Session.ReadsThrough
      ⟨⟨root.pieces, (Xml.Stream.ofChars cs).fault, 1, limit⟩, [.opened root.tag 1]⟩
      ⟨root.after, (Xml.Stream.ofChars cs).fault, 0, limit⟩ := by
  intro moves
  have hstart := Session.ofDocument_eq htokens hroot (Nat.zero_lt_of_lt hroom)
  have htracks := Session.tracks_root hroom (Xml.Stream.ofChars cs).fault
  generalize hsession : (⟨⟨root.pieces, (Xml.Stream.ofChars cs).fault, 1, limit⟩,
    [.opened root.tag 1]⟩ : Session) = session at hstart htracks ⊢
  have hruns {s : Session} {c : Cursor} (h : s.Tracks c) (moves : List Move) : s.Runs moves := by
    induction moves generalizing s c with
    | nil => trivial
    | cons move rest ih => exact ⟨⟨_, (h.step move).1⟩, ih (h.step move).2⟩
  obtain ⟨hinUse, hreaches⟩ := (Session.start hstart).1.play (hruns htracks moves)
  have hplayed := htracks.play moves
  refine ⟨hruns htracks moves, fun e hlive ↦ ?_⟩
  have hplaces := hplayed.live
  obtain ⟨place, hplace⟩ : ∃ place, ((Cursor.ofRoot root).play moves).live = [place] := by
    rw [hlive] at hplaces
    generalize ((Cursor.ofRoot root).play moves).live = places at hplaces
    cases hplaces
    exact ⟨_, rfl⟩
  obtain rfl : place = root := by
    rcases Cursor.play_live root moves with hnone | hlast
    · simp [hplace] at hnone
    · simpa [hplace] using hlast
  rw [hlive, hplace] at hplaces
  have hstacked := hinUse.stacked
  rw [hlive] at hstacked
  obtain hdepth : e.depth = 1 := by
    cases hstacked with
    | root hdepth => exact hdepth
  have hskip := hplaces.head.skip
  have hfault : session.document.fault = (Xml.Stream.ofChars cs).fault := by rw [← hsession]
  have hmax : session.document.maxDepth = limit := by rw [← hsession]
  rw [Element.behind, hdepth, hreaches.fault_eq, hreaches.maxDepth_eq, hfault, hmax] at hskip
  simp only [Session.step, hlive, hskip]
  rfl

/-- Where elements nest deeper, calls come to the first start tag past the limit. -/
theorem Session.stopsAt (htokens : (Xml.Stream.ofChars cs).tokens = written.tokens)
    (hroot : written.root? = some root) (hlimit : 0 < limit) {between after : List Lexeme}
    {tag : Except TagFault StartTag} (hpieces : root.pieces = between ++ .start tag :: after)
    (hclimbs : Climbs limit 1 between) :
    Session.StopsAt
      ⟨⟨root.pieces, (Xml.Stream.ofChars cs).fault, 1, limit⟩, [.opened root.tag 1]⟩
      (.start tag) after (.tooDeep limit)
      ⟨after, (Xml.Stream.ofChars cs).fault, limit, limit⟩ := by
  intro moves hruns
  have hstart := Session.ofDocument_eq htokens hroot hlimit
  obtain ⟨hinUse, hreaches⟩ := (Session.start hstart).1.play hruns
  have hfirst : Document.Before limit tag after (Xml.Stream.ofChars cs).fault
      ⟨root.pieces, (Xml.Stream.ofChars cs).fault, 1, limit⟩ :=
    ⟨⟨between, hpieces, hclimbs⟩, Nat.one_pos, rfl, rfl⟩
  have hbefore := hfirst.reaches hreaches
  obtain ⟨front, hpending, -⟩ := hbefore.pending
  refine ⟨⟨hpending ▸ List.suffix_append _ _, fun move reason hreason ↦ ?_⟩, fun e hlive ↦ ?_⟩
  · rcases hinUse.step move with ⟨_, _, hstep, -⟩ | ⟨e, error, d, herror, hon, hstops⟩
    · simp [hstep] at hreason
    · obtain rfl : error = reason := by simpa [herror] using hreason
      exact (hbefore.reaches hon).stops hstops
  · have hstacked := hinUse.stacked
    have hpos := hbefore.inside
    generalize (Session.play _ moves) = s at hinUse hbefore hlive hstacked hpos ⊢
    obtain ⟨d, live⟩ := s
    obtain rfl : live = [e] := hlive
    obtain hdepth : e.depth = 1 := by
      cases hstacked with
      | root hdepth => exact hdepth
    cases hclosed : e.closed with
    | true =>
      have hlevel := hinUse.closed hclosed
      have hpos : 0 < d.depth := hpos
      omega
    | false =>
      rcases Element.skip_cases hclosed (hinUse.open hclosed) with hcloses | hfails
      · obtain ⟨d', -, hfinishes⟩ := hcloses
        exact absurd hfinishes (hbefore.not_finishes hdepth)
      · obtain ⟨error, d', d'', hcall, hon, hstops⟩ := hfails
        obtain ⟨rfl, -⟩ := (hbefore.reaches hon).stops hstops
        simp only [Session.step, Session.called, hcall]
        rfl

end Wire

namespace Bindings

open Wire

/-- The nesting limit of documents is kept exactly.  Where the root element nests no deeper, all calls
succeed; otherwise they fail at the first start tag past the limit, which may be that of the root.
Wherever calls lead without an error, the count of open elements is right and within the limit.
Decoders have no more levels than the elements they may meet, whatever deeper levels would do, and
the values that functions of bindings answer nest no deeper. -/
theorem nesting_is_limited (cs : List Char) (limit : Nat) :
    (∀ (written : Xml.Written) (root : Place),
      (Xml.Stream.ofChars cs).tokens = written.tokens → written.root? = some root →
        (root.inside.depth < limit → ∃ session,
          Session.ofDocument (.ofChars cs limit) = .ok session ∧
            session.ReadsThrough ⟨root.after, (Xml.Stream.ofChars cs).fault, 0, limit⟩) ∧
        (limit ≤ root.inside.depth → ∃ before tag after,
          .start (.ok root.tag) :: root.pieces = before ++ .start tag :: after ∧
            Climbs limit 0 before ∧
            (limit = 0 → (Document.ofChars cs limit).takeRoot = (.error (.tooDeep limit),
              ⟨after, (Xml.Stream.ofChars cs).fault, limit, limit⟩)) ∧
            (0 < limit → ∃ session, Session.ofDocument (.ofChars cs limit) = .ok session ∧
              session.StopsAt (.start tag) after (.tooDeep limit)
                ⟨after, (Xml.Stream.ofChars cs).fault, limit, limit⟩))) ∧
      (∀ session, Session.ofDocument (.ofChars cs limit) = .ok session →
        ∀ moves, session.Runs moves →
          (session.play moves).document.Behind (Document.ofChars cs limit).pending ∧
            (session.play moves).document.depth ≤ limit) ∧
      (∀ (b : Bindings) (deeper : Reader) (source : Source) (e : Element) (d : Document)
        (levels : Nat), e.closed = false → e.depth ≤ d.depth → d.depth ≤ d.maxDepth →
          d.maxDepth = defaultMaxDepth → levels ≤ defaultMaxDepth →
            defaultMaxDepth < e.depth + levels →
              b.readElement source e d = b.level^[levels] deeper source e d) ∧
      ∀ (b : Bindings) (function : String) (f : List UInt8 → Except DecodeError Answer)
        (bytes : List UInt8) (answer : Answer), b.call? function = some f →
          f bytes = .ok answer → ∀ value ∈ answer.values, value.Nests defaultMaxDepth := by
  refine ⟨fun written root htokens hroot ↦ ⟨fun hroom ↦ ?_, fun hdeep ↦ ?_⟩, ?_, ?_, ?_⟩
  · exact ⟨_, Session.ofDocument_eq htokens hroot (Nat.zero_lt_of_lt hroom),
      Session.readsThrough htokens hroot hroom⟩
  · rcases Nat.eq_zero_or_pos limit with rfl | hpos
    · refine ⟨[], .ok root.tag, root.pieces, rfl, rfl, fun _ ↦ ?_, fun hpos ↦ by omega⟩
      obtain ⟨hprolog, -, -, -⟩ := Xml.Written.root?_eq_some hroot
      have hseek := Document.seekRoot_append hprolog (Xml.Stream.ofChars cs).fault 0
        (.start (.ok root.tag) :: root.pieces)
      rw [← Xml.Written.filterMap_tokens hroot, ← htokens] at hseek
      exact hseek.trans (by simp [Document.seekRoot, Lexeme.read])
    · have hdeeper : limit < 1 + root.inside.depth := by omega
      obtain ⟨between, tag, after, hpieces, hclimbs⟩ :=
        exists_climbs (.close :: root.after) Nat.one_pos hpos hdeeper
      exact ⟨.start (.ok root.tag) :: between, .ok tag, after, congrArg (_ :: ·) hpieces,
        ⟨hpos, hclimbs⟩, fun hzero ↦ by omega, fun _ ↦
          ⟨_, Session.ofDocument_eq htokens hroot hpos,
            Session.stopsAt htokens hroot hpos hpieces hclimbs⟩⟩
  · intro session hsession moves hruns
    obtain ⟨hinUse, hbehind, hroom, hmax⟩ := Session.start hsession
    obtain ⟨-, hreaches⟩ := hinUse.play hruns
    have hdepth := hreaches.depth_le (by rw [hmax]; exact hroom)
    rw [hreaches.maxDepth_eq, hmax] at hdepth
    exact ⟨hbehind.reaches hreaches, hdepth⟩
  · intro b deeper source e d levels hopen hlevel hroom hmax hlevels hdeep
    have halike := madeAlike_readElement b.fails_all deeper hlevels hdeep source e hopen
      (Nat.le_refl _) (source.resolves_all b)
    exact (halike.run hopen (Nat.le_of_eq hmax) hlevel hroom).1
  · intro b function f bytes answer hf hanswer
    exact (call_ok hf hanswer).1

end Bindings

namespace Samples

open Bindings Wire

/-- An element of three levels. -/
def threeLevels : List Char :=
  "<a><b/><c>x<d/></c></a>".toList

/-- What is inside of it. -/
def threeLevelsInside : Xml.Content :=
  .element ⟨['b'], []⟩ .empty
    (.element ⟨['c'], []⟩ (.text ['x'] (.element ⟨['d'], []⟩ .empty .empty)) .empty)

/-- Three levels are read where three are allowed, and reading stops where two are; a tree of one node
is within the limit of the decoders. -/
theorem three_levels_are_limited :
    (∃ session, Session.ofDocument (.ofChars threeLevels 3) = .ok session ∧
      session.ReadsThrough ⟨[], none, 0, 3⟩ ∧
        ∀ moves, (session.play moves).document.depth ≤ 3) ∧
    (∃ session tag after, Session.ofDocument (.ofChars threeLevels 2) = .ok session ∧
      session.StopsAt (.start tag) after (.tooDeep 2) ⟨after, none, 2, 2⟩) ∧
    ∃ b f answer, rest = .ok b ∧ b.call? "parse_get_tree_output" = some f ∧
      f (Xml.utf8Bytes loneNode) = .ok answer ∧
        (∀ value ∈ answer.values, value.Nests defaultMaxDepth) ∧
          ∀ (source : Source) (deeper : Reader) (start : StartTag) (pieces : List Lexeme),
            b.readElement source (.opened start 1) ⟨pieces, none, 1, defaultMaxDepth⟩ =
              b.level^[defaultMaxDepth] deeper source (.opened start 1)
                ⟨pieces, none, 1, defaultMaxDepth⟩ := by
  let written : Xml.Written := ⟨[], ⟨['a'], []⟩, threeLevelsInside, []⟩
  have htokens : (Xml.Stream.ofChars threeLevels).tokens = written.tokens := by decide +kernel
  have hfault : (Xml.Stream.ofChars threeLevels).fault = none := by decide +kernel
  have hsome : written.root?.map (fun root ↦ (root.inside.depth, root.after)) = some (2, []) := by
    decide +kernel
  obtain ⟨root, hroot, hmeasures⟩ := Option.map_eq_some_iff.mp hsome
  obtain ⟨hdepth, hafter⟩ := Prod.mk.inj hmeasures
  refine ⟨?_, ?_, ?_⟩
  · obtain ⟨hreads, hcounts, -, -⟩ := nesting_is_limited threeLevels 3
    obtain ⟨session, hsession, hthrough⟩ := (hreads written root htokens hroot).1 (by omega)
    rw [hafter, hfault] at hthrough
    exact ⟨session, hsession, hthrough, fun moves ↦
      (hcounts session hsession moves (hthrough moves).1).2⟩
  · obtain ⟨before, tag, after, -, -, -, hstops⟩ :=
      ((nesting_is_limited threeLevels 2).1 written root htokens hroot).2 (by omega)
    obtain ⟨session, hsession, hstops⟩ := hstops Nat.two_pos
    rw [hfault] at hstops
    exact ⟨session, tag, after, hsession, hstops⟩
  · obtain ⟨b, f, hb, hf, ⟨answer, hanswer⟩, -⟩ := exists_getTree
    obtain ⟨-, -, hlevels, hvalues⟩ := nesting_is_limited loneNode defaultMaxDepth
    have hpos : 1 ≤ defaultMaxDepth := by decide
    exact ⟨b, f, answer, hb, hf, hanswer, hvalues b _ f _ answer hf hanswer,
      fun source deeper start pieces ↦ hlevels b deeper source (.opened start 1)
        ⟨pieces, none, 1, defaultMaxDepth⟩ defaultMaxDepth rfl (Nat.le_refl 1) hpos rfl
        (Nat.le_refl _) (Nat.lt_add_of_pos_left Nat.one_pos)⟩

end Samples

end WireShapes
