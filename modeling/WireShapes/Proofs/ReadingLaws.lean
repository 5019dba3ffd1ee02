import WireShapes.Proofs.Assembly

/-!
# Laws of readings

Readings may be regrouped as the computations of any monad may, and an error may be caught and
raised again.  A fold over children whose states stand for others comes to what the fold on these
does.
-/

namespace WireShapes

open Wire (Document Element Reading DecodeError)

namespace Wire.Reading

/-- A reading whose error is part of its answer. -/
def caught {α : Type} (reading : Reading α) : Reading (Except DecodeError α) := fun d ↦
  let outcome := reading d
  ⟨.ok outcome.answer, outcome.rest, outcome.size_le⟩

/-- What was found, or the error of a call of something undeclared. -/
def known {α : Type} (name : String) : Option α → Reading α
  | some a => pure a
  | none => fail (.undeclared name)

end Wire.Reading

namespace Wire

/-! ## Readings -/

namespace Reading

variable {α β γ : Type}

theorem bind_of_ok {r : Reading α} {d : Document} {a : α} (h : (r d).answer = .ok a)
    (next : α → Reading β) :
    ((r >>= next) d).answer = (next a (r d).rest).answer ∧
      ((r >>= next) d).rest = (next a (r d).rest).rest := by
  obtain ⟨hanswer, hrest⟩ := bind_answer r next d
  rw [hanswer, hrest, h]
  exact ⟨rfl, rfl⟩

theorem bind_of_error {r : Reading α} {d : Document} {error : DecodeError}
    (h : (r d).answer = .error error) (next : α → Reading β) :
    ((r >>= next) d).answer = .error error ∧ ((r >>= next) d).rest = (r d).rest := by
  obtain ⟨hanswer, hrest⟩ := bind_answer r next d
  rw [hanswer, hrest, h]
  exact ⟨rfl, rfl⟩

theorem ext {r r' : Reading α} (h : ∀ d, (r d).answer = (r' d).answer ∧ (r d).rest = (r' d).rest) :
    r = r' :=
  funext fun d ↦ outcome_ext (h d).1 (h d).2

theorem bind_assoc (r : Reading α) (f : α → Reading β) (g : β → Reading γ) :
    r >>= f >>= g = r >>= fun a ↦ f a >>= g := by
  apply ext
  intro d
  cases hr : (r d).answer with
  | error error =>
    obtain ⟨hanswer, hrest⟩ := bind_of_error hr f
    obtain ⟨hanswer', hrest'⟩ := bind_of_error hr fun a ↦ f a >>= g
    obtain ⟨hanswer'', hrest''⟩ := bind_of_error hanswer g
    exact ⟨hanswer''.trans hanswer'.symm, (hrest''.trans hrest).trans hrest'.symm⟩
  | ok a =>
    obtain ⟨hanswer, hrest⟩ := bind_of_ok hr f
    rw [(bind_of_ok hr _).1, (bind_of_ok hr _).2, (bind_answer _ g d).1, (bind_answer _ g d).2,
      (bind_answer _ g _).1, (bind_answer _ g _).2, hanswer, hrest]
    exact ⟨rfl, rfl⟩

theorem bind_pure (r : Reading α) : r >>= pure = r := by
  apply ext
  intro d
  rw [(bind_answer _ _ d).1, (bind_answer _ _ d).2]
  cases (r d).answer <;> exact ⟨rfl, rfl⟩

instance : LawfulMonad Reading :=
  LawfulMonad.mk' Reading bind_pure (fun _ _ ↦ rfl) bind_assoc

theorem map_answer (f : α → β) (r : Reading α) (d : Document) :
    ((f <$> r) d).answer = f <$> (r d).answer ∧ ((f <$> r) d).rest = (r d).rest := by
  rw [map_eq_pure_bind, (bind_answer _ _ d).1, (bind_answer _ _ d).2]
  cases (r d).answer <;> exact ⟨rfl, rfl⟩

/-- Going on with an answer that was caught is going on with the reading. -/
theorem caught_bind_give (r : Reading α) : r.caught >>= give = r :=
  ext fun _ ↦ ⟨rfl, rfl⟩

theorem caught_map (f : α → β) (r : Reading α) : (f <$> r).caught = (f <$> ·) <$> r.caught :=
  ext fun d ↦ by
    obtain ⟨hanswer, hrest⟩ := map_answer f r d
    exact ⟨congrArg Except.ok hanswer, hrest⟩

theorem caught_bind_give_answer (r : Reading α) (answer : α → Except DecodeError β) :
    (r >>= fun a ↦ give (answer a)).caught = (· >>= answer) <$> r.caught := by
  apply ext
  intro d
  have hrest : ((r >>= fun a ↦ give (answer a)) d).rest = (r d).rest := by
    rw [(bind_answer r _ d).2]
    cases (r d).answer <;> rfl
  exact ⟨congrArg Except.ok (bind_give r answer d), hrest⟩

theorem map_give (f : α → β) (answer : Except DecodeError α) :
    f <$> give answer = give (f <$> answer) := by
  cases answer <;> rfl

end Reading

/-! ## Folds over children -/

namespace Element

variable {σ τ : Type} {e : Element}

/-- A fold over children on states that stand for others comes to what the fold on these does. -/
theorem foldChildren_map {step : σ → Element → Reading σ} {step' : τ → Element → Reading τ}
    {f : σ → τ} (hstep : ∀ s child, step' (f s) child = f <$> step s child) (s : σ) :
    e.foldChildren step' (f s) = f <$> e.foldChildren step s := by
  apply Reading.ext
  intro d
  rw [(Reading.map_answer _ _ d).1, (Reading.map_answer _ _ d).2]
  induction hsize : d.size using Nat.strongRecOn generalizing e d s with
  | ind size ih =>
    rcases hcall : e.nextChild d with ⟨error | _ | child, after, d'⟩
    · obtain ⟨hanswer, hrest⟩ := foldChildren_of_fails step s hcall
      obtain ⟨hanswer', hrest'⟩ := foldChildren_of_fails step' (f s) hcall
      rw [hanswer, hanswer', hrest, hrest']
      exact ⟨rfl, rfl⟩
    · obtain ⟨hanswer, hrest⟩ := foldChildren_of_closes step s hcall
      obtain ⟨hanswer', hrest'⟩ := foldChildren_of_closes step' (f s) hcall
      rw [hanswer, hanswer', hrest, hrest']
      exact ⟨rfl, rfl⟩
    · have hlt : d'.size < size := by
        have hsmaller := e.nextChild_size_lt d child (by rw [hcall])
        rwa [hcall, hsize] at hsmaller
      obtain ⟨hmade, hleft⟩ := Reading.map_answer f (step s child) d'
      rw [← hstep] at hmade hleft
      cases hs : (step s child d').answer with
      | error error =>
        obtain ⟨hanswer, hrest⟩ := foldChildren_of_step_fails step s hcall hs
        rw [hs] at hmade
        obtain ⟨hanswer', hrest'⟩ := foldChildren_of_step_fails step' (f s) hcall hmade
        rw [hanswer, hanswer', hrest, hrest', hleft]
        exact ⟨rfl, rfl⟩
      | ok t =>
        obtain ⟨hanswer, hrest⟩ := foldChildren_of_opens step s hcall hs
        rw [hs] at hmade
        obtain ⟨hanswer', hrest'⟩ := foldChildren_of_opens step' (f s) hcall hmade
        rw [hanswer, hanswer', hrest, hrest', hleft]
        exact ih _ (Nat.lt_of_le_of_lt (step s child d').size_le hlt) t _ rfl

end Element

end Wire

end WireShapes
