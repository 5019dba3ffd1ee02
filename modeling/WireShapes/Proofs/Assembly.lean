import WireShapes.Decoding.Run
import WireShapes.Proofs.Advance

/-!
# What decoders are made of

A decoder gives an answer, takes the text of its element, or folds over the children of its element,
and goes on from there.  `Reading.Made` says that a reading is made so, together with another one
that differs from it only for elements deeper than a limit; that its answers satisfy a condition;
and that answers it gives as errors are allowed.  Decoders are shown to be `Made` once
(`Bindings.made_read`); what they do to documents follows for all of them: they read their element
to its end (`Reading.Made.run`), and in front of an element without faults they fail only as allowed
(`Reading.Made.fails`).
-/

namespace WireShapes

namespace Wire

/-! ## Outcomes -/

namespace Reading

variable {α β : Type}

theorem outcome_ext {d : Document} {o o' : Outcome d α} (hanswer : o.answer = o'.answer)
    (hrest : o.rest = o'.rest) : o = o' := by
  cases o
  cases o'
  simp_all

theorem bind_answer (r : Reading α) (next : α → Reading β) (d : Document) :
    ((r >>= next) d).answer = (match (r d).answer with
      | .error error => .error error
      | .ok a => (next a (r d).rest).answer) ∧
    ((r >>= next) d).rest = match (r d).answer with
      | .error _ => (r d).rest
      | .ok a => (next a (r d).rest).rest := by
  have hrun : (r >>= next) d = Reading.andThen r next d := rfl
  rw [hrun, Reading.andThen]
  cases (r d).answer <;> exact ⟨rfl, rfl⟩

/-- Going on with an answer. -/
theorem bind_give (r : Reading α) (answer : α → Except DecodeError β) (d : Document) :
    ((r >>= fun a ↦ give (answer a)) d).answer = (r d).answer >>= answer := by
  rw [(bind_answer _ _ _).1]
  cases (r d).answer <;> rfl

end Reading

/-! ## Folds over children -/

namespace Element

variable {σ : Type} {e after child : Element} {d d' : Document} {error : DecodeError}

/-- Two folds over the children of an element whose steps do the same, and keep the element open,
do the same; and if they succeed they have read the element to its end. -/
theorem foldChildren_alike {step step' : σ → Element → Reading σ} {inv : σ → Prop} {limit : Nat}
    (hopen : e.closed = false)
    (hsteps : ∀ t child (d : Document), inv t → child.closed = false →
      child.depth = e.depth + 1 → d.maxDepth ≤ limit → child.depth ≤ d.depth →
      d.depth ≤ d.maxDepth → step t child d = step' t child d ∧
        ∀ u, (step t child d).answer = .ok u →
          inv u ∧ d.Reaches e.depth (step t child d).rest)
    {s : σ} (hs : inv s) (hlimit : d.maxDepth ≤ limit) (hlevel : e.depth ≤ d.depth)
    (hroom : d.depth ≤ d.maxDepth) :
    e.foldChildren step s d = e.foldChildren step' s d ∧
      ∀ u, (e.foldChildren step s d).answer = .ok u →
        inv u ∧ e.Finishes d (e.foldChildren step s d).rest := by
  induction hsize : d.size using Nat.strongRecOn generalizing d s with
  | ind size ih =>
    rcases nextChild_cases hopen hlevel with hopens | hcloses | hfails
    · obtain ⟨tag, d', hcall, hdepth, hreaches⟩ := hopens
      have hlt : d'.size < size := by
        have hsmaller := e.nextChild_size_lt d (.opened tag (e.depth + 1)) (by rw [hcall])
        rwa [hcall, hsize] at hsmaller
      obtain ⟨hsame, hok⟩ := hsteps s (.opened tag (e.depth + 1)) d' hs rfl rfl
        (hreaches.maxDepth_eq ▸ hlimit) (Nat.le_of_eq hdepth.symm) (hreaches.depth_le hroom)
      cases hstep : (step s (.opened tag (e.depth + 1)) d').answer with
      | error error =>
        obtain ⟨hanswer, hrest⟩ := foldChildren_of_step_fails step s hcall hstep
        obtain ⟨hanswer', hrest'⟩ := foldChildren_of_step_fails step' s hcall (hsame ▸ hstep)
        rw [← hsame] at hrest'
        refine ⟨Reading.outcome_ext (hanswer.trans hanswer'.symm) (hrest.trans hrest'.symm), ?_⟩
        intro u hu
        simp [hanswer] at hu
      | ok t =>
        obtain ⟨hanswer, hrest⟩ := foldChildren_of_opens step s hcall hstep
        obtain ⟨hanswer', hrest'⟩ := foldChildren_of_opens step' s hcall (hsame ▸ hstep)
        rw [← hsame] at hanswer' hrest'
        obtain ⟨ht, hchild⟩ := hok t hstep
        have hwhole := hreaches.trans hchild
        obtain ⟨hlater, hlast⟩ := ih _ (Nat.lt_of_le_of_lt (step s _ d').size_le hlt) ht
          (hwhole.maxDepth_eq ▸ hlimit) (hwhole.level_le hlevel) (hwhole.depth_le hroom) rfl
        rw [← hlater] at hanswer' hrest'
        refine ⟨Reading.outcome_ext (hanswer.trans hanswer'.symm) (hrest.trans hrest'.symm), ?_⟩
        intro u hu
        rw [hanswer] at hu
        rw [hrest]
        exact ⟨(hlast u hu).1, .of_reaches hwhole (hlast u hu).2⟩
    · obtain ⟨d', hcall, hfinishes⟩ := hcloses
      obtain ⟨hanswer, hrest⟩ := foldChildren_of_closes step s hcall
      obtain ⟨hanswer', hrest'⟩ := foldChildren_of_closes step' s hcall
      refine ⟨Reading.outcome_ext (hanswer.trans hanswer'.symm) (hrest.trans hrest'.symm), ?_⟩
      intro u hu
      obtain rfl : s = u := by simpa [hanswer] using hu
      exact ⟨hs, hrest ▸ hfinishes⟩
    · obtain ⟨error, d', d'', hcall, -⟩ := hfails
      obtain ⟨hanswer, hrest⟩ := foldChildren_of_fails step s hcall
      obtain ⟨hanswer', hrest'⟩ := foldChildren_of_fails step' s hcall
      refine ⟨Reading.outcome_ext (hanswer.trans hanswer'.symm) (hrest.trans hrest'.symm), ?_⟩
      intro u hu
      simp [hanswer] at hu

/-- A fold over the children of an element at its place fails only where a step fails: until then
the element stays at its place, so that it has a next child or none. -/
theorem foldChildren_fails {step : σ → Element → Reading σ} {inv : σ → Prop} {limit : Nat}
    {allows : DecodeError → Prop} {place : Place} (hat : e.At place d) (hlimit : d.maxDepth ≤ limit)
    (hsteps : ∀ t inner (d : Document), inv t → (opened inner.tag (e.depth + 1)).Fresh inner d →
      d.maxDepth ≤ limit →
      (∀ error, (step t (.opened inner.tag (e.depth + 1)) d).answer = .error error →
        allows error) ∧
      ∀ u, (step t (.opened inner.tag (e.depth + 1)) d).answer = .ok u →
        inv u ∧ ((step t (.opened inner.tag (e.depth + 1)) d).rest = d ∨
          (opened inner.tag (e.depth + 1)).Finishes d
            (step t (.opened inner.tag (e.depth + 1)) d).rest))
    {s : σ} (hs : inv s) (herror : (e.foldChildren step s d).answer = .error error) :
    allows error := by
  induction hsize : d.size using Nat.strongRecOn generalizing d s with
  | ind size ih =>
    have hcall := hat.nextChild
    cases hnext : place.next? d.pending with
    | none =>
      rw [hnext] at hcall
      simp [(foldChildren_of_closes step s hcall).1] at herror
    | some inner =>
      rw [hnext] at hcall
      have hmem := At.mem_nodes_of_next? hnext
      have hlt : (e.inChild inner d).size < size := by
        have hsmaller := e.nextChild_size_lt d (.opened inner.tag (e.depth + 1)) (by rw [hcall])
        rwa [hcall, hsize] at hsmaller
      obtain ⟨hallowed, hok⟩ := hsteps s inner (e.inChild inner d) hs
        (Fresh.child hmem hat.room) hlimit
      cases hstep : (step s (.opened inner.tag (e.depth + 1)) (e.inChild inner d)).answer with
      | error reason =>
        rw [(foldChildren_of_step_fails step s hcall hstep).1] at herror
        obtain rfl : reason = error := by simpa using herror
        exact hallowed reason hstep
      | ok t =>
        rw [(foldChildren_of_opens step s hcall hstep).1] at herror
        obtain ⟨ht, hread⟩ := hok t hstep
        refine ih _ (Nat.lt_of_le_of_lt (step s _ _).size_le hlt) ?_ ?_ ht herror rfl
        · rcases hread with hidle | hfinishes
          · rw [hidle]
            exact hat.after_next hnext
          · have hinner := hat.opened hmem
            have hskip := hfinishes.skip_eq rfl
            rw [hinner.skip] at hskip
            have hrest := congrArg Call.document hskip
            dsimp only at hrest
            rw [← hrest]
            exact .of_child hmem rfl hinner.at_behind hat.start (hat.open_of_next? hnext) hat.room
        · rcases hread with hidle | hfinishes
          · rw [hidle]
            exact hlimit
          · rw [(hfinishes.reaches (Nat.lt_succ_self _)).maxDepth_eq]
            exact hlimit

/-! ## The first child that is accepted -/

variable {accept : StartTag → Bool}

theorem firstChild_of_accepted (hnext : e.nextChild d = ⟨.ok (some child), after, d'⟩)
    (haccept : accept child.start = true) :
    (e.firstChild accept d).answer = .ok (some child) ∧ (e.firstChild accept d).rest = d' := by
  have hanswer : (e.nextChild d).answer = .ok (some child) := by rw [hnext]
  obtain rfl : (e.nextChild d).document = d' := by rw [hnext]
  clear hnext
  rw [firstChild]
  split <;> simp_all

theorem firstChild_of_passed (hnext : e.nextChild d = ⟨.ok (some child), after, d'⟩)
    (haccept : accept child.start = false) :
    (e.firstChild accept d).answer = (after.firstChild accept d').answer ∧
      (e.firstChild accept d).rest = (after.firstChild accept d').rest := by
  have hanswer : (e.nextChild d).answer = .ok (some child) := by rw [hnext]
  obtain rfl : (e.nextChild d).element = after := by rw [hnext]
  obtain rfl : (e.nextChild d).document = d' := by rw [hnext]
  clear hnext
  rw [firstChild]
  split <;> simp_all

theorem firstChild_of_closes (hnext : e.nextChild d = ⟨.ok none, after, d'⟩) :
    (e.firstChild accept d).answer = .ok none ∧ (e.firstChild accept d).rest = d' := by
  have hanswer : (e.nextChild d).answer = .ok none := by rw [hnext]
  obtain rfl : (e.nextChild d).document = d' := by rw [hnext]
  clear hnext
  rw [firstChild]
  split <;> simp_all

theorem firstChild_of_fails (hnext : e.nextChild d = ⟨.error error, after, d'⟩) :
    (e.firstChild accept d).answer = .error error ∧ (e.firstChild accept d).rest = d' := by
  have hanswer : (e.nextChild d).answer = .error error := by rw [hnext]
  obtain rfl : (e.nextChild d).document = d' := by rw [hnext]
  clear hnext
  rw [firstChild]
  split <;> simp_all

/-- A child that is accepted is handed out open, inside the element. -/
theorem firstChild_reaches (hopen : e.closed = false) (hlevel : e.depth ≤ d.depth)
    (h : (e.firstChild accept d).answer = .ok (some child)) :
    child.closed = false ∧ child.depth = e.depth + 1 ∧
      (e.firstChild accept d).rest.depth = e.depth + 1 ∧
      d.Reaches e.depth (e.firstChild accept d).rest := by
  induction hsize : d.size using Nat.strongRecOn generalizing d with
  | ind size ih =>
    rcases nextChild_cases hopen hlevel with hopens | hcloses | hfails
    · obtain ⟨tag, d', hcall, hdepth, hreaches⟩ := hopens
      have hlt : d'.size < size := by
        have hsmaller := e.nextChild_size_lt d (.opened tag (e.depth + 1)) (by rw [hcall])
        rwa [hcall, hsize] at hsmaller
      cases haccept : accept tag with
      | true =>
        obtain ⟨hanswer, hrest⟩ := firstChild_of_accepted hcall haccept
        obtain rfl : Element.opened tag (e.depth + 1) = child := by simpa [hanswer] using h
        exact ⟨rfl, rfl, hrest ▸ hdepth, hrest ▸ hreaches⟩
      | false =>
        obtain ⟨hanswer, hrest⟩ := firstChild_of_passed hcall haccept
        rw [hanswer] at h
        rw [hrest]
        obtain ⟨hclosed, hchild, hlast, hlater⟩ := ih _ hlt (by omega) h rfl
        exact ⟨hclosed, hchild, hlast, hreaches.trans hlater⟩
    · obtain ⟨d', hcall, -⟩ := hcloses
      simp [(firstChild_of_closes hcall).1] at h
    · obtain ⟨error, d', d'', hcall, -⟩ := hfails
      simp [(firstChild_of_fails hcall).1] at h

end Element

/-! ## Readings that are made alike -/

namespace Reading

/-- Two readings of an element are made alike up to a depth, of answers that satisfy a condition and
errors that are allowed.  They are `whole` if they read the element to its end whenever they
succeed; otherwise they may leave it as it is. -/
inductive Made (allows : DecodeError → Prop) (limit : Nat) : (whole : Bool) → {α : Type} →
    Element → (α → Prop) → Reading α → Reading α → Prop
  | deep {whole : Bool} {α : Type} {e : Element} {post : α → Prop} {r r' : Reading α} :
      limit < e.depth → Made allows limit whole e post r r'
  | fail {whole : Bool} {α : Type} {e : Element} {post : α → Prop} {error : DecodeError} :
      allows error → Made allows limit whole e post (fail error) (fail error)
  | pure {α : Type} {e : Element} {post : α → Prop} {a : α} :
      post a → Made allows limit false e post (Pure.pure a) (Pure.pure a)
  | whole {α : Type} {e : Element} {post : α → Prop} {r r' : Reading α} :
      Made allows limit true e post r r' → Made allows limit false e post r r'
  | text {e : Element} : Made allows limit true e (fun _ ↦ True) e.text e.text
  | fold {σ : Type} {e : Element} {inv : σ → Prop} {step step' : σ → Element → Reading σ} {s : σ} :
      inv s → (∀ t child, inv t → child.closed = false → child.depth = e.depth + 1 →
        Made allows limit false child inv (step t child) (step' t child)) →
      Made allows limit true e inv (e.foldChildren step s) (e.foldChildren step' s)
  | after_give {α β : Type} {e : Element} {post : β → Prop} {answer : Except DecodeError α}
      {next next' : α → Reading β} : (∀ error, answer = .error error → allows error) →
      (∀ a, answer = .ok a → Made allows limit true e post (next a) (next' a)) →
      Made allows limit true e post (give answer >>= next) (give answer >>= next')
  | then_give {α β : Type} {e : Element} {mid : α → Prop} {post : β → Prop} {r r' : Reading α}
      {answer : α → Except DecodeError β} : Made allows limit true e mid r r' →
      (∀ a error, mid a → answer a = .error error → allows error) →
      (∀ a b, mid a → answer a = .ok b → post b) →
      Made allows limit true e post (r >>= fun a ↦ give (answer a)) (r' >>= fun a ↦ give (answer a))

namespace Made

variable {allows : DecodeError → Prop} {limit : Nat} {whole : Bool} {α β : Type} {e : Element}
  {post : α → Prop} {r r' : Reading α} {d : Document}

theorem then_pure {f : α → β} {target : β → Prop} (h : Made allows limit true e post r r')
    (hf : ∀ a, post a → target (f a)) :
    Made allows limit true e target (r >>= fun a ↦ Pure.pure (f a))
      (r' >>= fun a ↦ Pure.pure (f a)) :=
  .then_give h (fun a error _ herror ↦ by simp at herror) fun a b ha hb ↦ by
    obtain rfl : f a = b := by simpa using hb
    exact hf a ha

/-- Going on in some other way that only gives an answer. -/
theorem then_answer {next : α → Reading β} {target : β → Prop} (answer : α → Except DecodeError β)
    (hnext : ∀ a, next a = give (answer a)) (h : Made allows limit true e post r r')
    (hallows : ∀ a error, post a → answer a = .error error → allows error)
    (htarget : ∀ a b, post a → answer a = .ok b → target b) :
    Made allows limit true e target (r >>= next) (r' >>= next) := by
  obtain rfl : next = fun a ↦ give (answer a) := funext hnext
  exact .then_give h hallows htarget

/-- What the two readings come to in a document that nests no deeper than the limit: the same; and
if they succeed they have read the element to its end, or nothing of it. -/
theorem run (h : Made allows limit whole e post r r') (hopen : e.closed = false)
    (hlimit : d.maxDepth ≤ limit) (hlevel : e.depth ≤ d.depth) (hroom : d.depth ≤ d.maxDepth) :
    r d = r' d ∧ ∀ a, (r d).answer = .ok a →
      post a ∧ ((whole = false ∧ (r d).rest = d) ∨ e.Finishes d (r d).rest) := by
  induction h generalizing d with
  | deep hdeep => omega
  | fail _ => exact ⟨rfl, fun a ha ↦ by simp [Reading.fail, give] at ha⟩
  | @pure α e post a hpost =>
    refine ⟨rfl, fun b hb ↦ ?_⟩
    obtain rfl : a = b := by simpa [Pure.pure, give] using hb
    exact ⟨hpost, .inl ⟨rfl, rfl⟩⟩
  | whole _ ih =>
    obtain ⟨hsame, hok⟩ := ih hopen hlimit hlevel hroom
    refine ⟨hsame, fun a ha ↦ ⟨(hok a ha).1, .inr ?_⟩⟩
    simpa using (hok a ha).2
  | @text e =>
    refine ⟨rfl, fun a ha ↦ ⟨trivial, .inr ?_⟩⟩
    rcases Element.takeText_cases hopen hlevel with ⟨text, d', hcall, hfinishes⟩ | hfails
    · have hrest : (e.text d).rest = d' := by
        show (e.takeText d).document = d'
        rw [hcall]
      rwa [hrest]
    · obtain ⟨error, d', d'', hcall, -⟩ := hfails
      have hanswer : (e.takeText d).answer = .ok a := ha
      simp [hcall] at hanswer
  | @fold σ e inv step step' s hs _ ih =>
    have hsteps (t : σ) (child : Element) (d : Document) (ht : inv t)
        (hchild : child.closed = false)
        (hdepth : child.depth = e.depth + 1) (hlimit : d.maxDepth ≤ limit)
        (hlevel : child.depth ≤ d.depth) (hroom : d.depth ≤ d.maxDepth) :
        step t child d = step' t child d ∧ ∀ u, (step t child d).answer = .ok u →
          inv u ∧ d.Reaches e.depth (step t child d).rest := by
      obtain ⟨hsame, hok⟩ := ih t child ht hchild hdepth hchild hlimit hlevel hroom
      refine ⟨hsame, fun u hu ↦ ⟨(hok u hu).1, ?_⟩⟩
      rcases (hok u hu).2 with ⟨-, hidle⟩ | hfinishes
      · exact hidle.symm ▸ .refl _
      · exact hfinishes.reaches (hdepth ▸ Nat.lt_succ_self _)
    obtain ⟨hsame, hok⟩ := Element.foldChildren_alike hopen hsteps hs hlimit hlevel hroom
    exact ⟨hsame, fun t ht ↦ ⟨(hok t ht).1, .inr (hok t ht).2⟩⟩
  | @after_give α β e post answer next next' _ _ ih =>
    cases answer with
    | error error => exact ⟨rfl, fun a ha ↦ by simp [bind_answer, give] at ha⟩
    | ok a => exact ih a rfl hopen hlimit hlevel hroom
  | @then_give α β e mid post r r' answer _ _ hpost ih =>
    obtain ⟨hsame, hok⟩ := ih hopen hlimit hlevel hroom
    obtain ⟨hanswer, hrest⟩ := bind_answer r (fun a ↦ give (answer a)) d
    obtain ⟨hanswer', hrest'⟩ := bind_answer r' (fun a ↦ give (answer a)) d
    rw [← hsame] at hanswer' hrest'
    refine ⟨outcome_ext (hanswer.trans hanswer'.symm) (hrest.trans hrest'.symm), fun b hb ↦ ?_⟩
    cases hr : (r d).answer with
    | error error => simp [hanswer, hr] at hb
    | ok a =>
      rw [hanswer, hr] at hb
      rw [hrest, hr]
      exact ⟨hpost a b (hok a hr).1 hb, (hok a hr).2⟩

/-- In front of an element of which nothing is at fault, a reading fails only as is allowed. -/
theorem fails (h : Made allows limit whole e post r r') {place : Place} (hfresh : e.Fresh place d)
    (hlimit : d.maxDepth ≤ limit) {error : DecodeError} (herror : (r d).answer = .error error) :
    allows error := by
  induction h generalizing place d error with
  | @deep _ _ e _ _ _ hdeep =>
    have hroom := hfresh.room
    omega
  | @fail _ _ e _ reason hallows =>
    obtain rfl : reason = error := by simpa [Reading.fail, give] using herror
    exact hallows
  | pure _ => simp [Pure.pure, give] at herror
  | whole _ ih => exact ih hfresh hlimit herror
  | @text e =>
    have hanswer : (e.takeText d).answer = .error error := herror
    simp [hfresh.stands.takeText] at hanswer
  | @fold σ e inv step step' s hs hsteps ih =>
    refine Element.foldChildren_fails hfresh.stands hlimit (fun t inner d' ht hinner hlimit' ↦ ?_)
      hs herror
    have hroom := hinner.room
    refine ⟨fun reason hreason ↦ ih t _ ht rfl rfl hinner hlimit' hreason, fun u hu ↦ ?_⟩
    obtain ⟨-, hok⟩ := (hsteps t _ ht hinner.opened rfl).run hinner.opened hlimit'
      (Nat.le_of_eq hinner.depth.symm) (by rw [hinner.depth]; omega)
    obtain ⟨hu', hread⟩ := hok u hu
    exact ⟨hu', by simpa using hread⟩
  | @after_give α β e post answer next next' hallows _ ih =>
    cases answer with
    | error reason =>
      obtain rfl : reason = error := by simpa [bind_answer, give] using herror
      exact hallows reason rfl
    | ok a => exact ih a rfl hfresh hlimit herror
  | @then_give α β e mid post r r' answer hmade hallows _ ih =>
    obtain ⟨hanswer, -⟩ := bind_answer r (fun a ↦ give (answer a)) d
    rw [herror] at hanswer
    cases hr : (r d).answer with
    | error reason =>
      rw [hr] at hanswer
      obtain rfl : error = reason := by simpa using hanswer
      exact ih hfresh hlimit hr
    | ok a =>
      rw [hr] at hanswer
      have hroom := hfresh.room
      obtain ⟨-, hok⟩ := hmade.run hfresh.opened hlimit (Nat.le_of_eq hfresh.depth.symm)
        (by rw [hfresh.depth]; omega)
      exact hallows a error (hok a hr).1 hanswer.symm

end Made

end Reading

end Wire

end WireShapes
