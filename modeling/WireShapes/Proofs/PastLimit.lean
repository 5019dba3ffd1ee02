import WireShapes.Proofs.Astray

/-!
# Reading on past the nesting limit

A session is followed beside marks, one for each element in use: what was to be read when it was
handed out, and how many calls have failed since (`Session.watch`).  The marks tell how far astray
the elements are (`Session.Strays`).  As long as no call has failed since it was handed out, an
element hands out its own children only and ends at its own end tag; as soon as one has, it does
neither (`Session.next_past_limit`).
-/

namespace WireShapes.Wire

/-! ## Sessions beside marks -/

/-- What is kept beside an element in use: the pieces that were to be read when it was handed out,
and how many calls have failed since, on the element or inside of it. -/
structure Mark where
  opened : List Lexeme
  failed : Nat

/-- Where an element in use stands, and how far astray it is. -/
structure Track where
  place : Place
  missed : Nat

/-- The answers to calls that come to the end of their element. -/
def Reply.isEnd : Reply → Bool
  | .child none | .text _ | .skipped => true
  | .child (some _) | .left | .idle => false

def Mark.fail (mark : Mark) : Mark := { mark with failed := mark.failed + 1 }

def Track.fail (track : Track) : Track := { track with missed := track.missed + 1 }

def Track.mark (track : Track) : Mark := ⟨track.place.pieces, track.missed⟩

def Track.start (track : Track) : StartTag := track.place.tag

/-- Each place is inside of the next one, and the element there is as far astray as it was when the
element inside was handed out, and by as much more as that element is. -/
inductive Linked (root : Place) : List Track → Prop
  | none : Linked root []
  | root (missed : Nat) : Linked root [⟨root, missed⟩]
  | inner {place child : Place} {missed n : Nat} {outer : List Track} :
      place.Below (n + 1) child → Linked root (⟨place, n + missed⟩ :: outer) →
      Linked root (⟨child, missed⟩ :: ⟨place, n + missed⟩ :: outer)

namespace Linked

variable {root child : Place} {track : Track} {tracks : List Track}

theorem tail (h : Linked root tracks) : Linked root tracks.tail := by
  cases h with
  | none => exact .none
  | root => exact .none
  | inner _ houter => exact houter

theorem fail (h : Linked root tracks) : Linked root (tracks.map Track.fail) := by
  induction h with
  | none => exact .none
  | root missed => exact .root (missed + 1)
  | inner hbelow _ ih => exact .inner hbelow ih

theorem hand (h : Linked root (track :: tracks))
    (hchild : track.place.Below (track.missed + 1) child) :
    Linked root (⟨child, 0⟩ :: track :: tracks) :=
  .inner hchild h

/-- All places are in the tree. -/
theorem exists_below (h : Linked root tracks) :
    ∀ track ∈ tracks, ∃ n, root.Below n track.place := by
  induction h with
  | none => simp
  | root missed => simpa using ⟨0, root.below_refl⟩
  | @inner place child missed n outer hbelow _ ih =>
    intro track htrack
    rcases List.mem_cons.mp htrack with rfl | htrack
    · obtain ⟨m, hplace⟩ := ih ⟨place, n + missed⟩ List.mem_cons_self
      exact ⟨m + (n + 1), hplace.trans hbelow⟩
    · exact ih track htrack

end Linked

namespace Session

/-- What is kept beside the elements in use after a move: an element that is handed out is noted,
one that is left is forgotten, and a failure is counted for all. -/
def mark (s : Session) (move : Move) (marks : List Mark) : List Mark :=
  match s.step move with
  | (.ok (.child (some _)), next) => ⟨next.document.pending, 0⟩ :: marks
  | (.ok .left, _) => marks.tail
  | (.ok _, _) => marks
  | (.error _, _) => marks.map Mark.fail

/-- What is kept after some moves. -/
def watch (s : Session) (marks : List Mark) : List Move → List Mark
  | [] => marks
  | move :: rest => (s.step move).2.watch (s.mark move marks) rest

/-- The elements in use are inside of one another, and each is astray as its track says. -/
structure Strays (s : Session) (root : Place) (limit : Nat) (tracks : List Track) : Prop where
  stacked : Stacked s.live
  linked : Linked root tracks
  starts : s.live.map Element.start = tracks.map Track.start
  head : ∀ e ∈ s.live.head?, ∀ track ∈ tracks.head?,
    e.Astray track.place track.missed s.document
  maxDepth_eq : s.document.maxDepth = limit

/-- What a move comes to while an element is in use. -/
inductive Turn (root : Place) (limit : Nat) (track : Track) (outer : List Track) :
    Except DecodeError Reply × Session → Prop
  | child {child : Place} {next : Session} :
      track.place.Below (track.missed + 1) child → next.document.pending = child.pieces →
      next.Strays root limit (⟨child, 0⟩ :: track :: outer) →
      Turn root limit track outer (.ok (.child (some child.tag)), next)
  | ended {reply : Reply} {inner : Place} {next : Session} :
      reply.isEnd = true → track.place.Below track.missed inner →
      next.document.pending = inner.after → next.Strays root limit (track :: outer) →
      Turn root limit track outer (.ok reply, next)
  | refused {next : Session} :
      next.Strays root limit ((track :: outer).map Track.fail) →
      Turn root limit track outer (.error (.tooDeep limit), next)
  | left {next : Session} :
      next.Strays root limit outer → Turn root limit track outer (.ok .left, next)

namespace Strays

variable {s : Session} {d d' : Document} {e e' : Element} {live : List Element} {root : Place}
  {limit : Nat} {track track' : Track} {outer outer' : List Track}

theorem length_eq {tracks : List Track} (h : s.Strays root limit tracks) :
    s.live.length = tracks.length := by
  simpa using congrArg List.length h.starts

/-- A call on the innermost element leaves the others where they are. -/
theorem called (h : Strays ⟨d, e :: live⟩ root limit (track :: outer))
    (hlinked : Linked root (track' :: outer'))
    (hstarts : (track' :: outer').map Track.start = (track :: outer).map Track.start)
    (hstart : e'.start = e.start) (hdepth : e'.depth = e.depth) (hmax : d'.maxDepth = d.maxDepth)
    (hastray : e'.Astray track'.place track'.missed d') :
    Strays ⟨d', e' :: live⟩ root limit (track' :: outer') where
  stacked := h.stacked.replace hdepth
  linked := hlinked
  starts := by
    rw [hstarts, ← h.starts, List.map_cons, hstart, ← List.map_cons]
  head := by simpa using hastray
  maxDepth_eq := hmax.trans h.maxDepth_eq

/-- An element that is no longer used leaves the one around it as far astray as both were. -/
theorem leave (h : Strays ⟨d, e :: live⟩ root limit (track :: outer)) :
    Strays ⟨d, live⟩ root limit outer where
  stacked := h.stacked.tail
  linked := h.linked.tail
  starts := (List.cons.inj h.starts).2
  head := by
    have hinner := h.head e rfl track rfl
    have hstacked := h.stacked
    have hlinked := h.linked
    intro parent hparent above habove
    cases hlinked with
    | root => simp at habove
    | inner hbelow _ =>
      cases hstacked with
      | root => simp at hparent
      | inner hdepth hopen _ =>
        obtain rfl := Option.some.inj hparent
        obtain rfl := Option.some.inj habove
        exact hinner.outer hbelow hdepth hopen
  maxDepth_eq := h.maxDepth_eq

/-- A call that comes to the end of its element. -/
theorem turn_of_closes {α : Type} {call : Call α} {answer : α} {reply : α → Reply}
    (h : Strays ⟨d, e :: live⟩ root limit (track :: outer)) (hopen : e.closed = false)
    (hcall : call.Closes e d answer) (hreply : (reply answer).isEnd = true) :
    Turn root limit track outer (Session.called call reply [] live) := by
  obtain ⟨inner, d', rfl, hbelow, hpending, hmax, hastray⟩ :=
    (h.head e rfl track rfl).closes hopen hcall
  exact .ended hreply hbelow hpending (h.called h.linked rfl rfl rfl hmax hastray)

/-- A call that fails. -/
theorem turn_of_fails {α : Type} {call : Call α} (reply : α → Reply)
    (h : Strays ⟨d, e :: live⟩ root limit (track :: outer)) (hopen : e.closed = false)
    (hcall : call.Fails e d) :
    Turn root limit track outer (Session.called call reply [] live) := by
  obtain ⟨d', rfl, hmax, hastray⟩ := (h.head e rfl track rfl).fails hopen hcall
  obtain rfl : d.maxDepth = limit := h.maxDepth_eq
  have hstarts : ((track :: outer).map Track.fail).map Track.start =
      (track :: outer).map Track.start := List.map_map
  exact .refused (h.called h.linked.fail hstarts rfl rfl hmax hastray)

theorem turn (h : s.Strays root limit (track :: outer)) (move : Move) :
    Turn root limit track outer (s.step move) := by
  obtain ⟨d, live⟩ := s
  obtain ⟨e, live, rfl⟩ : ∃ e rest, live = e :: rest :=
    List.exists_cons_of_length_eq_add_one h.length_eq
  by_cases hleave : move = .leave
  · subst hleave
    exact .left h.leave
  have hastray := h.head e rfl track rfl
  cases hclosed : e.closed with
  | true =>
    have hspent : Spent ⟨d, e :: live⟩ := ⟨e, live, rfl, hclosed⟩
    obtain ⟨inner, hbelow, hpending, -⟩ := hastray.behind hclosed
    have hend : move.spent.isEnd = true := by
      cases move with
      | leave => exact absurd rfl hleave
      | next | text | skip => rfl
    rw [hspent.step hleave]
    exact .ended hend hbelow hpending h
  | false =>
    have hlevel := hastray.level_le hclosed
    cases move with
    | leave => exact absurd rfl hleave
    | next =>
      rcases Element.nextChild_cases hclosed hlevel with hopens | hcall | hcall
      · obtain ⟨tag, d', hanswer, -⟩ := hopens
        obtain ⟨inner, hbelow, hcall, hinner⟩ :=
          hastray.opens hclosed hlevel (congrArg Call.answer hanswer)
        simp only [Session.step, Session.called, hcall]
        exact .child hbelow rfl {
          stacked := .inner rfl hclosed h.stacked
          linked := h.linked.hand hbelow
          starts := congrArg (inner.tag :: ·) h.starts
          head := by simpa [Session.handed] using hinner
          maxDepth_eq := h.maxDepth_eq }
      · have hhanded : Session.handed (e.nextChild d).answer = [] := by
          obtain ⟨d', hcall, -⟩ := hcall
          simp [hcall, Session.handed]
        simp only [Session.step, hhanded]
        exact h.turn_of_closes hclosed hcall rfl
      · have hhanded : Session.handed (e.nextChild d).answer = [] := by
          obtain ⟨error, between, d', hcall, -⟩ := hcall
          simp [hcall, Session.handed]
        simp only [Session.step, hhanded]
        exact h.turn_of_fails _ hclosed hcall
    | text =>
      rcases Element.takeText_cases hclosed hlevel with ⟨text, hcall⟩ | hcall
      · exact h.turn_of_closes hclosed hcall rfl
      · exact h.turn_of_fails _ hclosed hcall
    | skip =>
      rcases Element.skip_cases hclosed hlevel with hcall | hcall
      · exact h.turn_of_closes hclosed hcall rfl
      · exact h.turn_of_fails _ hclosed hcall

/-- What is kept beside a session tells how far astray its elements are. -/
theorem step {tracks : List Track} (h : s.Strays root limit tracks) (move : Move) :
    ∃ tracks', s.mark move (tracks.map Track.mark) = tracks'.map Track.mark ∧
      (s.step move).2.Strays root limit tracks' := by
  cases tracks with
  | nil =>
    obtain ⟨d, live⟩ := s
    obtain rfl : live = [] := List.length_eq_zero_iff.mp h.length_eq
    cases move <;> exact ⟨[], rfl, h⟩
  | cons track outer =>
    have hturn := h.turn move
    unfold mark
    generalize s.step move = result at hturn ⊢
    cases hturn with
    | child hbelow hpending hnext =>
      exact ⟨_, by simp [Track.mark, hpending], hnext⟩
    | @ended reply inner next hend hbelow hpending hnext =>
      refine ⟨track :: outer, ?_, hnext⟩
      rcases reply with (- | tag) | text | - | - | -
      · rfl
      · simp [Reply.isEnd] at hend
      · rfl
      · rfl
      · simp [Reply.isEnd] at hend
      · simp [Reply.isEnd] at hend
    | refused hnext =>
      refine ⟨(track :: outer).map Track.fail, ?_, hnext⟩
      simp only [List.map_map]
      rfl
    | left hnext => exact ⟨outer, rfl, hnext⟩

theorem watch {tracks : List Track} (h : s.Strays root limit tracks) (moves : List Move) :
    ∃ tracks', s.watch (tracks.map Track.mark) moves = tracks'.map Track.mark ∧
      (s.play moves).Strays root limit tracks' := by
  induction moves generalizing s tracks with
  | nil => exact ⟨tracks, rfl, h⟩
  | cons move rest ih =>
    obtain ⟨tracks', hmarks, hnext⟩ := h.step move
    rw [Session.watch, hmarks]
    exact ih hnext

/-- A call fails only past the limit. -/
theorem error_eq {tracks : List Track} {move : Move} {error : DecodeError}
    (h : s.Strays root limit tracks) (herror : (s.step move).1 = .error error) :
    error = .tooDeep limit := by
  cases tracks with
  | nil =>
    obtain ⟨d, live⟩ := s
    obtain rfl : live = [] := List.length_eq_zero_iff.mp h.length_eq
    cases move <;> simp [Session.step] at herror
  | cons track outer =>
    have hturn := h.turn move
    generalize s.step move = result at hturn herror
    cases hturn with
    | refused => exact (Except.error.inj herror).symm
    | child | ended | left => simp at herror

/-- A child that is handed out is as many levels down as the element is astray, and one. -/
theorem exists_child {tag : StartTag} (h : s.Strays root limit (track :: outer))
    (htag : (s.step .next).1 = .ok (.child (some tag))) :
    ∃ child, track.place.Below (track.missed + 1) child ∧ child.tag = tag ∧
      (s.step .next).2.document.pending = child.pieces ∧
      (.element child ∈ track.place.nodes ↔ track.missed = 0) := by
  have hturn := h.turn .next
  generalize s.step .next = result at hturn htag
  cases hturn with
  | child hbelow hpending _ =>
    obtain rfl : _ = tag := by simpa using htag
    refine ⟨_, hbelow, rfl, hpending, fun hchild ↦ ?_, fun hzero ↦ ?_⟩
    · have hone := (track.place.below_refl.inside hchild).level_eq hbelow
      omega
    · rw [hzero] at hbelow
      obtain ⟨between, rfl, hchild⟩ := hbelow
      exact hchild
  | ended hend =>
    obtain rfl := Except.ok.inj htag
    simp [Reply.isEnd] at hend
  | refused | left => simp at htag

/-- The end that is reported is that of an element as many levels down. -/
theorem exists_end (h : s.Strays root limit (track :: outer))
    (hnone : (s.step .next).1 = .ok (.child none)) :
    ∃ inner, track.place.Below track.missed inner ∧
      (s.step .next).2.document.pending = inner.after ∧ (inner = track.place ↔ track.missed = 0) ∧
      (track.missed ≠ 0 → .close :: track.place.after <:+ inner.after) := by
  have hturn := h.turn .next
  generalize s.step .next = result at hturn hnone
  cases hturn with
  | ended _ hbelow hpending _ =>
    refine ⟨_, hbelow, hpending, ⟨?_, ?_⟩, hbelow.after_suffix⟩
    · rintro rfl
      exact hbelow.level_eq track.place.below_refl
    · intro hzero
      rw [hzero] at hbelow
      exact (show track.place = _ from hbelow).symm
  | child | refused | left => simp at hnone

end Strays

end Session

/-! ## After refusals -/

theorem Session.limit_pos {cs : List Char} {limit : Nat} {session : Session}
    (h : Session.ofDocument (.ofChars cs limit) = .ok session) : 0 < limit := by
  rcases htake : (Document.ofChars cs limit).takeRoot with ⟨error | e, d⟩
  · simp [Session.ofDocument, htake] at h
  · exact Document.pos_of_seekRoot htake

/-- The root element stands where it is. -/
theorem Session.strays_root (root : Place) (fault : Option Xml.ScanFault) (limit : Nat) :
    Session.Strays ⟨⟨root.pieces, fault, 1, limit⟩, [.opened root.tag 1]⟩ root limit
      [⟨root, 0⟩] where
  stacked := .root rfl
  linked := .root 0
  starts := rfl
  head := by
    have hroot : (Element.opened root.tag 1).Astray root 0 ⟨root.pieces, fault, 1, limit⟩ :=
      ⟨fun _ ↦ ⟨root, root.below_refl, .start _ _ _⟩,
        fun hclosed ↦ by simp [Element.opened] at hclosed⟩
    simpa using hroot
  maxDepth_eq := rfl

/-- Calls on the elements of a document fail only past the nesting limit, whatever failed before,
and as long as no call has failed since an element was handed out, its next child is one directly
inside and its end is its own.  Once calls have failed, a child that the element hands out is so
many levels further down, and its end is reported with its own end tag still to be read. -/
theorem Session.next_past_limit {cs : List Char} {limit : Nat} (written : Xml.Written)
    {root : Place} (htokens : (Xml.Stream.ofChars cs).tokens = written.tokens)
    (hroot : written.root? = some root) {session : Session}
    (hsession : Session.ofDocument (.ofChars cs limit) = .ok session) (moves : List Move) :
    (∀ move error, ((session.play moves).step move).1 = .error error → error = .tooDeep limit) ∧
    (session.watch [⟨root.pieces, 0⟩] moves).length = (session.play moves).live.length ∧
    ∀ mark ∈ (session.watch [⟨root.pieces, 0⟩] moves).head?,
      ∃ place, (∃ level, root.Below level place) ∧ place.pieces = mark.opened ∧
        (session.play moves).live.head?.map Element.start = some place.tag ∧
        (∀ tag, ((session.play moves).step .next).1 = .ok (.child (some tag)) →
          ∃ child, place.Below (mark.failed + 1) child ∧ child.tag = tag ∧
            ((session.play moves).step .next).2.document.pending = child.pieces ∧
            (.element child ∈ place.nodes ↔ mark.failed = 0)) ∧
        (((session.play moves).step .next).1 = .ok (.child none) →
          ∃ inner, place.Below mark.failed inner ∧
            ((session.play moves).step .next).2.document.pending = inner.after ∧
            (inner = place ↔ mark.failed = 0) ∧
            (mark.failed ≠ 0 → .close :: place.after <:+ inner.after)) := by
  have hstart := Session.ofDocument_eq htokens hroot (Session.limit_pos hsession)
  obtain rfl := Except.ok.inj (hstart.symm.trans hsession)
  obtain ⟨tracks, hmarks, hstrays⟩ :=
    (Session.strays_root root (Xml.Stream.ofChars cs).fault limit).watch moves
  rw [show [(⟨root.pieces, 0⟩ : Mark)] = [(⟨root, 0⟩ : Track)].map Track.mark from rfl, hmarks]
  generalize Session.play _ moves = s at hstrays ⊢
  -- The head of the marks is that of the tracks, which tells what the next call comes to.
  refine ⟨fun move error ↦ hstrays.error_eq, by rw [List.length_map, hstrays.length_eq], ?_⟩
  intro mark hmark
  cases tracks with
  | nil => simp at hmark
  | cons track outer =>
    obtain rfl : track.mark = mark := by simpa using hmark
    have hhead : s.live.head?.map Element.start = some track.place.tag := by
      rw [← List.head?_map, hstrays.starts]
      rfl
    exact ⟨track.place, hstrays.linked.exists_below track List.mem_cons_self, rfl, hhead,
      fun tag ↦ hstrays.exists_child, hstrays.exists_end⟩

/-! ### A refused element -/

/-- An element `a` of two elements, `b` and `d`, and in `b` an `x`. -/
def refused : List Char :=
  "<a><b><x/></b><d/></a>".toList

/-- Where its root element is, and what is inside. -/
def refusedRoot : Place :=
  ⟨⟨⟨none, "a"⟩, []⟩,
    .element ⟨⟨none, "b"⟩, []⟩ (.element ⟨⟨none, "x"⟩, []⟩ .empty .empty)
      (.element ⟨⟨none, "d"⟩, []⟩ .empty .empty), []⟩

theorem refused_reads :
    ∃ written : Xml.Written, (Xml.Stream.ofChars refused).tokens = written.tokens ∧
      written.root? = some refusedRoot :=
  ⟨⟨[], ⟨['a'], []⟩, .element ⟨['b'], []⟩ (.element ⟨['x'], []⟩ .empty .empty)
    (.element ⟨['d'], []⟩ .empty .empty), []⟩, by decide +kernel, by decide +kernel⟩

/-- Where two levels are allowed the tag of `x` is refused, and once `b` is left, `a` has no next
child and is closed, but `d` and the end tag of `a` are still to be read. -/
theorem Session.end_past_refusal_is_early :
    ∃ session, Session.ofDocument (.ofChars refused 2) = .ok session ∧
      ((session.play [.next]).step .next).1 = .error (.tooDeep 2) ∧
      (session.play [.next, .next, .leave]).live = session.live ∧
      ((session.play [.next, .next, .leave]).step .next).1 = .ok (.child none) ∧
      ((session.play [.next, .next, .leave]).step .next).2.document.pending =
        [.start (.ok ⟨⟨none, "d"⟩, []⟩), .close, .close] := by
  obtain ⟨written, htokens, hroot⟩ := refused_reads
  exact ⟨_, Session.ofDocument_eq htokens hroot Nat.two_pos, rfl, rfl, rfl, rfl⟩

/-- Before the refusal `a` hands out a child of its own, afterwards it ends with an element
inside. -/
theorem Session.next_past_limit_around_refusal :
    ∃ session, Session.ofDocument (.ofChars refused 2) = .ok session ∧
      (∃ place child : Place, place.pieces = refusedRoot.pieces ∧ .element child ∈ place.nodes ∧
        (session.step .next).2.document.pending = child.pieces) ∧
      ∃ place inner : Place, place.pieces = refusedRoot.pieces ∧ place.Below 1 inner ∧
        ((session.play [.next, .next, .leave]).step .next).2.document.pending = inner.after ∧
        .close :: place.after <:+ inner.after := by
  obtain ⟨written, htokens, hroot⟩ := refused_reads
  have hsession := Session.ofDocument_eq htokens hroot Nat.two_pos
  refine ⟨_, hsession, ?_, ?_⟩
  · obtain ⟨-, -, hnext⟩ := Session.next_past_limit written htokens hroot hsession []
    obtain ⟨place, -, hopened, -, hchild, -⟩ := hnext _ rfl
    obtain ⟨child, -, -, hpending, hdirect⟩ := hchild _ rfl
    exact ⟨place, child, hopened, hdirect.mpr rfl, hpending⟩
  · obtain ⟨-, -, hnext⟩ :=
      Session.next_past_limit written htokens hroot hsession [.next, .next, .leave]
    obtain ⟨place, -, hopened, -, -, hend⟩ := hnext _ rfl
    obtain ⟨inner, hbelow, hpending, -, hunread⟩ := hend rfl
    exact ⟨place, inner, hopened, hbelow, hpending, hunread Nat.one_ne_zero⟩

end WireShapes.Wire
