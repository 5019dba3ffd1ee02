import Mathlib.Data.List.Forall2
import Mathlib.Data.List.Induction

/-!
# Computations that can fail

How a sequence of steps in `Except` succeeds or fails: a sequence succeeds when every step does, and
a failure of it is the failure of one step.
-/

namespace WireShapes.Failing

variable {α β σ ε : Type}

theorem bind_ok (a : α) (f : α → Except ε β) : (.ok a >>= f) = f a := rfl

theorem bind_eq_ok {x : Except ε α} {f : α → Except ε β} {b : β} :
    (x >>= f) = .ok b ↔ ∃ a, x = .ok a ∧ f a = .ok b := by
  cases x <;> simp [bind, Except.bind]

theorem bind_eq_error {x : Except ε α} {f : α → Except ε β} {e : ε} :
    (x >>= f) = .error e ↔ x = .error e ∨ ∃ a, x = .ok a ∧ f a = .error e := by
  cases x <;> simp [bind, Except.bind]

theorem map_eq_ok {x : Except ε α} {f : α → β} {b : β} :
    f <$> x = .ok b ↔ ∃ a, x = .ok a ∧ f a = b := by
  cases x <;> simp [Functor.map, Except.map]

theorem map_eq_error {x : Except ε α} {f : α → β} {e : ε} :
    f <$> x = .error e ↔ x = .error e := by
  cases x <;> simp [Functor.map, Except.map]

theorem toOption_eq_some {x : Except ε α} {a : α} : x.toOption = some a ↔ x = .ok a := by
  cases x <;> simp [Except.toOption]

@[simp]
theorem toOption_bind (x : Except ε α) (f : α → Except ε β) :
    (x >>= f).toOption = x.toOption.bind fun a ↦ (f a).toOption := by
  cases x <;> rfl

@[simp]
theorem toOption_map (f : α → β) (x : Except ε α) : (f <$> x).toOption = x.toOption.map f := by
  cases x <;> rfl

/-- A run, errors apart, is the run of what its steps come to. -/
theorem toOption_foldlM {step : σ → α → Except ε σ} {step' : σ → β → Option σ} {f : α → β}
    {xs : List α} (hstep : ∀ x ∈ xs, ∀ s, (step s x).toOption = step' s (f x)) {s : σ} :
    (xs.foldlM step s).toOption = (xs.map f).foldlM step' s := by
  induction xs generalizing s with
  | nil => rfl
  | cons x rest ih =>
    obtain ⟨hx, hrest⟩ := List.forall_mem_cons.mp hstep
    rw [List.foldlM_cons, List.map_cons, List.foldlM_cons, toOption_bind, hx]
    exact congrArg _ (funext fun t ↦ ih hrest)

/-- A function that succeeds on every element of a list gives the results in order. -/
theorem forall₂_of_mapM_ok {f : α → Except ε β} {as : List α} {bs : List β}
    (h : as.mapM f = .ok bs) : List.Forall₂ (fun a b ↦ f a = .ok b) as bs := by
  induction as generalizing bs with
  | nil =>
    obtain rfl : [] = bs := Except.ok.inj h
    exact .nil
  | cons a rest ih =>
    rw [List.mapM_cons] at h
    obtain ⟨b, hb, hrest⟩ := bind_eq_ok.mp h
    obtain ⟨tail, htail, hbs⟩ := bind_eq_ok.mp hrest
    obtain rfl : b :: tail = bs := Except.ok.inj hbs
    exact .cons hb (ih htail)

/-- A function that fails on a list fails on an element of it. -/
theorem exists_of_mapM_error {f : α → Except ε β} {as : List α} {e : ε}
    (h : as.mapM f = .error e) : ∃ a ∈ as, f a = .error e := by
  induction as with
  | nil => simp [pure, Except.pure] at h
  | cons a rest ih =>
    rw [List.mapM_cons] at h
    rcases bind_eq_error.mp h with hfirst | ⟨_, -, hrest⟩
    · exact ⟨a, by simp, hfirst⟩
    · rcases bind_eq_error.mp hrest with htail | ⟨_, -, hend⟩
      · obtain ⟨other, hother, herror⟩ := ih htail
        exact ⟨other, by simp [hother], herror⟩
      · simp [pure, Except.pure] at hend

/-- A function that succeeds on every element of a list succeeds on the list. -/
theorem exists_mapM_ok {f : α → Except ε β} {as : List α} (h : ∀ a ∈ as, ∃ b, f a = .ok b) :
    ∃ bs, as.mapM f = .ok bs := by
  cases hall : as.mapM f with
  | ok bs => exact ⟨bs, rfl⟩
  | error e =>
    obtain ⟨a, ha, herror⟩ := exists_of_mapM_error hall
    obtain ⟨b, hb⟩ := h a ha
    rw [hb] at herror
    cases herror

/-- A function that may have no result has the results in order that every element has. -/
theorem mapM_eq_some_iff {f : α → Option β} {r : α → β → Prop} {as : List α} {bs : List β}
    (h : ∀ a ∈ as, ∀ b, f a = some b ↔ r a b) : as.mapM f = some bs ↔ List.Forall₂ r as bs := by
  induction as generalizing bs with
  | nil => simp [eq_comm]
  | cons a rest ih =>
    have hrest := fun bs ↦ @ih bs fun a' ha' ↦ h a' (List.mem_cons_of_mem _ ha')
    simp only [List.mapM_cons, Option.bind_eq_bind, Option.bind_eq_some_iff, Option.pure_def,
      Option.some.injEq, hrest, h a List.mem_cons_self]
    constructor
    · rintro ⟨b, hb, tail, htail, rfl⟩
      exact .cons hb htail
    · rintro (_ | ⟨hb, htail⟩)
      exact ⟨_, hb, _, htail, rfl⟩

/-- A function that may have no result has results for all elements or for none. -/
theorem mapM_eq_ite {p : α → Bool} {f : α → Option β}
    (hp : ∀ x, p x = (f x).isSome) (xs : List α) :
    xs.mapM f = if xs.all p then some (xs.filterMap f) else none := by
  induction xs with
  | nil => rfl
  | cons x rest ih =>
    rw [List.mapM_cons, ih, List.all_cons, hp]
    cases hx : f x with
    | none => simp
    | some y =>
      rw [List.filterMap_cons_some hx, Option.isSome_some, Bool.true_and]
      split <;> rfl

/-- The last result is that of the last element, where all have results. -/
theorem getLast?_filterMap {f : α → Option β} {xs : List α}
    (h : ∀ x ∈ xs, (f x).isSome) : (xs.filterMap f).getLast? = xs.getLast?.bind f := by
  induction xs using List.reverseRecOn with
  | nil => rfl
  | append_singleton init x _ =>
    obtain ⟨y, hy⟩ := Option.isSome_iff_exists.mp (h x (by simp))
    simp [List.filterMap_append, hy]

/-- As `forall₂_of_mapM_ok`, where the function gives nothing for some elements. -/
theorem exists_of_filterMapM_ok {f : α → Except ε (Option β)} {as : List α} {bs : List β}
    (h : as.filterMapM f = .ok bs) :
    ∃ results, List.Forall₂ (fun a r ↦ f a = .ok r) as results ∧ bs = results.reduceOption := by
  induction as generalizing bs with
  | nil =>
    obtain rfl : [] = bs := Except.ok.inj h
    exact ⟨[], .nil, rfl⟩
  | cons a rest ih =>
    rw [List.filterMapM_cons] at h
    obtain ⟨result, hresult, hrest⟩ := bind_eq_ok.mp h
    cases result with
    | none =>
      obtain ⟨results, hresults, rfl⟩ := ih hrest
      exact ⟨none :: results, .cons hresult hresults, rfl⟩
    | some b =>
      obtain ⟨tail, htail, hbs⟩ := bind_eq_ok.mp hrest
      obtain rfl : b :: tail = bs := Except.ok.inj hbs
      obtain ⟨results, hresults, rfl⟩ := ih htail
      exact ⟨some b :: results, .cons hresult hresults, rfl⟩

theorem exists_of_mem_right {r : α → β → Prop} {as : List α} {bs : List β}
    (h : List.Forall₂ r as bs) {b : β} (hb : b ∈ bs) : ∃ a ∈ as, r a b := by
  induction h with
  | nil => cases hb
  | cons hr _ ih =>
    rcases List.mem_cons.mp hb with rfl | hb
    · exact ⟨_, List.mem_cons_self, hr⟩
    · obtain ⟨a, ha, hrel⟩ := ih hb
      exact ⟨a, List.mem_cons_of_mem _ ha, hrel⟩

theorem exists_of_mem_left {r : α → β → Prop} {as : List α} {bs : List β}
    (h : List.Forall₂ r as bs) {a : α} (ha : a ∈ as) : ∃ b ∈ bs, r a b := by
  obtain ⟨b, hb, hrel⟩ := exists_of_mem_right h.flip ha
  exact ⟨b, hb, hrel⟩

/-- Lists that go together have the same images, where the images of elements are the same. -/
theorem map_eq_map {γ : Type} {r : α → β → Prop} {as : List α} {bs : List β} {f : α → γ}
    {g : β → γ} (h : List.Forall₂ r as bs) (hsame : ∀ {a b}, r a b → f a = g b) :
    as.map f = bs.map g := by
  induction h with
  | nil => rfl
  | cons hrel _ ih => rw [List.map_cons, List.map_cons, hsame hrel, ih]

/-- Two runs over lists that go together, with steps that do the same. -/
theorem foldlM_congr {r : α → β → Prop} {as : List α} {bs : List β}
    {step : σ → α → Except ε σ} {step' : σ → β → Except ε σ} (h : List.Forall₂ r as bs)
    (hstep : ∀ a ∈ as, ∀ b ∈ bs, r a b → ∀ s, step s a = step' s b) {s : σ} :
    as.foldlM step s = bs.foldlM step' s := by
  induction h generalizing s with
  | nil => rfl
  | @cons a b as bs hrel _ ih =>
    rw [List.foldlM_cons, List.foldlM_cons, hstep a (by simp) b (by simp) hrel]
    exact congrArg _ (funext fun t ↦ ih fun a ha b hb ↦ hstep a (by simp [ha]) b (by simp [hb]))

variable {step : σ → α → Except ε σ} {xs : List α} {s t : σ}

/-- A run whose steps all keep the state. -/
theorem foldlM_same (hstep : ∀ x ∈ xs, ∀ s, step s x = .ok s) : xs.foldlM step s = .ok s := by
  induction xs with
  | nil => rfl
  | cons first rest ih =>
    obtain ⟨hfirst, hrest⟩ := List.forall_mem_cons.mp hstep
    rw [List.foldlM_cons, hfirst]
    exact ih hrest

theorem exists_step_of_foldlM_ok (h : xs.foldlM step s = .ok t) {x : α} (hx : x ∈ xs) :
    ∃ before after, step before x = .ok after := by
  induction xs generalizing s with
  | nil => simp at hx
  | cons first rest ih =>
    rw [List.foldlM_cons] at h
    obtain ⟨next, hfirst, hrest⟩ := bind_eq_ok.mp h
    rcases List.mem_cons.mp hx with rfl | hx
    · exact ⟨s, next, hfirst⟩
    · exact ih hrest hx

/-- What every step keeps is kept by a run. -/
theorem foldlM_keeps {keeps : σ → Prop}
    (hstep : ∀ {before x after}, keeps before → step before x = .ok after → keeps after)
    (hs : keeps s) (h : xs.foldlM step s = .ok t) : keeps t := by
  induction xs generalizing s with
  | nil => exact Except.ok.inj h ▸ hs
  | cons first rest ih =>
    rw [List.foldlM_cons] at h
    obtain ⟨next, hfirst, hrest⟩ := bind_eq_ok.mp h
    exact ih (hstep hs hfirst) hrest

theorem exists_step_of_foldlM_error {e : ε} (h : xs.foldlM step s = .error e) :
    ∃ x ∈ xs, ∃ before, step before x = .error e := by
  induction xs generalizing s with
  | nil => simp [pure, Except.pure] at h
  | cons first rest ih =>
    rw [List.foldlM_cons] at h
    rcases bind_eq_error.mp h with hfirst | ⟨next, -, hrest⟩
    · exact ⟨first, by simp, s, hfirst⟩
    · obtain ⟨x, hx, before, hstep⟩ := ih hrest
      exact ⟨x, by simp [hx], before, hstep⟩

/-- As `exists_of_mapM_error`, where the function gives nothing for some elements. -/
theorem exists_of_filterMapM_error {f : α → Except ε (Option β)} {as : List α} {e : ε}
    (h : as.filterMapM f = .error e) : ∃ a ∈ as, f a = .error e := by
  induction as with
  | nil => cases h
  | cons a rest ih =>
    rw [List.filterMapM_cons] at h
    rcases bind_eq_error.mp h with hfirst | ⟨result, -, hrest⟩
    · exact ⟨a, List.mem_cons_self, hfirst⟩
    · have htail : rest.filterMapM f = .error e := by
        cases result with
        | none => exact hrest
        | some b =>
          rcases bind_eq_error.mp hrest with htail | ⟨_, -, hend⟩
          · exact htail
          · cases hend
      obtain ⟨other, hother, herror⟩ := ih htail
      exact ⟨other, List.mem_cons_of_mem _ hother, herror⟩

/-! ## What a computation can fail with -/

/-- Whatever the computation fails with is allowed. -/
def FailsWith (allowed : ε → Prop) (x : Except ε α) : Prop :=
  ∀ e, x = .error e → allowed e

variable {allowed : ε → Prop}

theorem failsWith_ok (a : α) : FailsWith allowed (.ok a) := nofun

theorem failsWith_of_exists {x : Except ε α} (h : ∃ a, x = .ok a) : FailsWith allowed x := by
  obtain ⟨a, rfl⟩ := h
  exact failsWith_ok a

theorem failsWith_error {e : ε} (h : allowed e) : FailsWith allowed (.error e : Except ε α) := by
  rintro _ ⟨⟩
  exact h

theorem FailsWith.bind {x : Except ε α} {f : α → Except ε β} (hx : FailsWith allowed x)
    (hf : ∀ a, x = .ok a → FailsWith allowed (f a)) : FailsWith allowed (x >>= f) := by
  intro e h
  rcases bind_eq_error.mp h with h | ⟨a, ha, h⟩
  · exact hx e h
  · exact hf a ha e h

theorem FailsWith.map {x : Except ε α} (hx : FailsWith allowed x) (f : α → β) :
    FailsWith allowed (f <$> x) :=
  fun e h ↦ hx e (map_eq_error.mp h)

theorem failsWith_foldlM (h : ∀ x ∈ xs, ∀ s, FailsWith allowed (step s x)) :
    FailsWith allowed (xs.foldlM step s) := by
  intro e he
  obtain ⟨x, hx, before, hstep⟩ := exists_step_of_foldlM_error he
  exact h x hx before e hstep

theorem failsWith_mapM {f : α → Except ε β} (h : ∀ x ∈ xs, FailsWith allowed (f x)) :
    FailsWith allowed (xs.mapM f) := by
  intro e he
  obtain ⟨x, hx, herror⟩ := exists_of_mapM_error he
  exact h x hx e herror

theorem failsWith_filterMapM {f : α → Except ε (Option β)}
    (h : ∀ x ∈ xs, FailsWith allowed (f x)) : FailsWith allowed (xs.filterMapM f) := by
  intro e he
  obtain ⟨x, hx, herror⟩ := exists_of_filterMapM_error he
  exact h x hx e herror

end WireShapes.Failing
