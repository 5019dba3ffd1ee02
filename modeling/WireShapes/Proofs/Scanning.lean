import WireShapes.Proofs.Failing
import WireShapes.Xml.Token

/-!
# Scanning in parts

`Scanner.reads` is what the reader makes of a part of an input: the tokens it completes, and where
it is afterwards.  An input is read part by part, so what is put into it or replaced in it shows in
the tokens only where it stands.  The one exception is text: a text goes on until the next markup,
and markup that is put into it makes two texts of it.  Expanded, the two are the one text.
-/

namespace WireShapes.Xml

/-! ## Expansion in parts -/

/-- Positions have influence on faults alone. -/
inductive Expansion.Alike : Expansion → Expansion → Prop
  | plain : Alike .plain .plain
  | inside (start start' : Nat) (seen : List Char) :
    Alike (.inside start seen) (.inside start' seen)

theorem Reference.toOption_resolve (start stop start' stop' : Nat) (body : List Char) :
    (resolve start stop body).toOption = (resolve start' stop' body).toOption := by
  unfold resolve
  split
  · rename_i digits
    rw [Failing.toOption_bind, Failing.toOption_bind]
    refine congrArg _ (funext fun n ↦ ?_)
    split
    · rfl
    · rfl
  · split <;> rfl

theorem toOption_expandFrom {state state' : Expansion} (h : state.Alike state')
    (total index total' index' : Nat) (cs : List Char) :
    (expandFrom total state index cs).toOption = (expandFrom total' state' index' cs).toOption := by
  induction cs generalizing state state' index index' with
  | nil => cases h <;> rfl
  | cons c rest ih =>
    cases h with
    | plain =>
      unfold expandFrom
      by_cases hc : c = '&'
      · simp only [hc, if_true]
        exact ih (.inside index index' []) _ _
      · simp only [hc, if_false, Failing.toOption_map]
        rw [ih .plain]
    | inside start start' seen =>
      unfold expandFrom
      by_cases hc : c = ';'
      · simp only [hc, if_true, Failing.toOption_bind, Failing.toOption_map]
        rw [Reference.toOption_resolve start index start' index', ih .plain]
      · by_cases hamp : c = '&'
        · simp only [hamp, if_true]
          rfl
        · simp only [hc, hamp, if_false]
          exact ih (.inside start start' (c :: seen)) _ _

theorem toOption_expandFrom_append {total total' index : Nat} {state : Expansion}
    {cs ds expanded later : List Char}
    (h : (expandFrom total state index cs).toOption = some expanded)
    (hlater : (expandFrom total' .plain 0 ds).toOption = some later) :
    (expandFrom total state index (cs ++ ds)).toOption = some (expanded ++ later) := by
  induction cs generalizing state index expanded with
  | nil =>
    cases state with
    | inside start seen => simp [expandFrom, Except.toOption] at h
    | plain =>
      obtain rfl : [] = expanded := by simpa [expandFrom, Except.toOption] using h
      exact (toOption_expandFrom .plain _ _ _ _ ds).trans hlater
  | cons c rest ih =>
    rw [List.cons_append]
    unfold expandFrom at h ⊢
    cases state with
    | plain =>
      by_cases hc : c = '&'
      · simp only [hc, if_true] at h ⊢
        exact ih h
      · simp only [hc, if_false, Failing.toOption_map] at h ⊢
        obtain ⟨first, hfirst, rfl⟩ := Option.map_eq_some_iff.mp h
        rw [ih hfirst]
        rfl
    | inside start seen =>
      by_cases hc : c = ';'
      · simp only [hc, if_true, Failing.toOption_bind, Failing.toOption_map] at h ⊢
        obtain ⟨resolved, hresolved, hrest⟩ := Option.bind_eq_some_iff.mp h
        obtain ⟨first, hfirst, rfl⟩ := Option.map_eq_some_iff.mp hrest
        rw [hresolved, Option.bind_some, ih hfirst]
        rfl
      · by_cases hamp : c = '&'
        · simp [hamp, Except.toOption] at h
        · simp only [hc, hamp, if_false] at h ⊢
          exact ih h

/-- Two texts in a row are expanded as one. -/
theorem expand_append {cs ds : List Char} {first second : String} (h : expand cs = .ok first)
    (hsecond : expand ds = .ok second) : expand (cs ++ ds) = .ok (first ++ second) := by
  obtain ⟨expanded, hexpanded, rfl⟩ := Failing.map_eq_ok.mp h
  obtain ⟨later, hlater, rfl⟩ := Failing.map_eq_ok.mp hsecond
  have hboth : (expandFrom (utf8Length (cs ++ ds)) .plain 0 (cs ++ ds)).toOption =
      some (expanded ++ later) := by
    apply @toOption_expandFrom_append _ (utf8Length ds)
    · rw [toOption_expandFrom .plain _ 0 (utf8Length cs) 0, hexpanded]
      rfl
    · rw [hlater]
      rfl
  rw [Failing.toOption_eq_some] at hboth
  rw [expand, hboth]
  simp [Functor.map, Except.map]

namespace Scanner

/-- The tokens completed by some characters, and the reader after them, unless there is a fault. -/
def reads (s : Scanner) : List Char → Option (List Token × Scanner)
  | [] => some ([], s)
  | c :: rest =>
    match s.step c with
    | .go tokens next => (next.reads rest).map fun later ↦ (tokens ++ later.1, later.2)
    | .stop _ _ => none

variable {s next : Scanner} {before after ins cs : List Char} {tokens piece : List Token}
  {token : Token} {seen : List Char} {names : List (List Char)}

theorem reads_cons_eq_some {c : Char} (h : s.reads (c :: cs) = some (tokens, next)) :
    ∃ first between later, s.step c = .go first between ∧
      between.reads cs = some (later, next) ∧ tokens = first ++ later := by
  unfold reads at h
  cases hstep : s.step c with
  | stop first fault => simp [hstep] at h
  | go first between =>
    simp only [hstep] at h
    obtain ⟨⟨later, last⟩, hlater, heq⟩ := Option.map_eq_some_iff.mp h
    obtain ⟨rfl, rfl⟩ := Prod.mk.inj heq
    exact ⟨first, between, later, rfl, hlater, rfl⟩

theorem run_of_step {c : Char} {first : List Token} (h : s.step c = .go first next)
    (rest : List Char) : s.run (c :: rest) = (next.run rest).prepend first := by
  rw [run, h]
  cases first <;> rfl

theorem prepend_append (first later : List Token) (stream : Stream) :
    stream.prepend (first ++ later) = (stream.prepend later).prepend first := by
  simp [Stream.prepend]

/-- An input is read part by part. -/
theorem run_append (h : s.reads before = some (tokens, next)) (after : List Char) :
    s.run (before ++ after) = (next.run after).prepend tokens := by
  induction before generalizing s tokens with
  | nil =>
    obtain ⟨rfl, rfl⟩ : tokens = [] ∧ s = next := by simpa [reads, eq_comm] using h
    rfl
  | cons c before ih =>
    obtain ⟨first, between, later, hstep, hlater, rfl⟩ := reads_cons_eq_some h
    rw [List.cons_append, run_of_step hstep, ih hlater, prepend_append]

/-! ## Texts -/

/-- The rest of an input from inside a text: first the rest of the text, whatever of it was seen. -/
theorem exists_run_text (names : List (List Char)) (after : List Char) :
    ∃ (more : List Char) (stream : Stream), ∀ seen,
      run ⟨.text seen, names⟩ after = stream.prepend (textTokens (more ++ seen)) := by
  induction after with
  | nil => exact ⟨[], .done, fun seen ↦ by simp [run, finish, Stream.prepend, Stream.done]⟩
  | cons c after ih =>
    by_cases hc : c = '<'
    · refine ⟨[], run ⟨.opened, names⟩ after, fun seen ↦ ?_⟩
      have hstep : step ⟨.text seen, names⟩ c = .go (textTokens seen) ⟨.opened, names⟩ := by
        simp [step, hc]
      exact run_of_step hstep after
    · obtain ⟨more, stream, hrest⟩ := ih
      refine ⟨more ++ [c], stream, fun seen ↦ ?_⟩
      have hstep : step ⟨.text seen, names⟩ c = .go [] ⟨.text (c :: seen), names⟩ := by
        simp [step, hc]
      rw [run_of_step hstep, hrest]
      simp [Stream.prepend]

/-- Whatever is read from inside a text, the text is completed first. -/
theorem reads_text {c : Char}
    (h : reads ⟨.text (c :: seen), names⟩ cs = some (token :: tokens, next)) :
    ∃ raw, token = .text raw := by
  induction cs generalizing c seen with
  | nil => simp [reads] at h
  | cons d cs ih =>
    obtain ⟨first, between, later, hstep, hlater, htokens⟩ := reads_cons_eq_some h
    by_cases hd : d = '<'
    · obtain ⟨rfl, -⟩ : textTokens (c :: seen) = first ∧ _ := by
        simpa [step, hd] using hstep
      obtain ⟨rfl, -⟩ := List.cons.inj htokens
      exact ⟨_, rfl⟩
    · obtain ⟨rfl, rfl⟩ : [] = first ∧ ⟨.text (d :: c :: seen), names⟩ = between := by
        simpa [step, hd] using hstep
      obtain rfl : token :: tokens = later := by simpa using htokens
      exact ih hlater

/-- Markup completes the text before it. -/
theorem reads_markup (htoken : ∀ raw, token ≠ .text raw)
    (h : (resume names).reads cs = some (token :: tokens, next)) (seen : List Char) :
    reads ⟨.text seen, names⟩ cs = some (textTokens seen ++ token :: tokens, next) := by
  cases cs with
  | nil => simp [reads] at h
  | cons c cs =>
    obtain ⟨first, between, later, hstep, hlater, htokens⟩ := reads_cons_eq_some h
    by_cases hc : c = '<'
    · obtain ⟨rfl, rfl⟩ : [] = first ∧ ⟨.opened, names⟩ = between := by
        simpa [step, resume, textTokens, hc] using hstep
      obtain rfl : token :: tokens = later := by simpa using htokens
      simp [reads, step, hc, hlater]
    · obtain ⟨rfl, rfl⟩ : [] = first ∧ ⟨.text [c], names⟩ = between := by
        simpa [step, resume, hc] using hstep
      obtain rfl : token :: tokens = later := by simpa using htokens
      obtain ⟨raw, hraw⟩ := reads_text hlater
      exact absurd hraw (htoken raw)

/-! ## Insertions and replacements -/

/-- Markup that leaves the open elements as they were adds its tokens to an input, and parts the
text that it stands in. -/
theorem exists_run_insert (hbefore : s.reads before = some (tokens, ⟨.text seen, names⟩))
    (htoken : ∀ raw, token ≠ .text raw)
    (hins : (resume names).reads ins = some (token :: piece, resume names)) (after : List Char) :
    ∃ more later, (s.run (before ++ after)).tokens =
        tokens ++ (textTokens (more ++ seen) ++ later) ∧
      (s.run (before ++ (ins ++ after))).tokens =
        tokens ++ (textTokens seen ++ token :: piece ++ textTokens more ++ later) := by
  obtain ⟨more, stream, hafter⟩ := exists_run_text names after
  refine ⟨more, stream.tokens, ?_, ?_⟩
  · rw [run_append hbefore, hafter]
    rfl
  · rw [run_append hbefore, run_append (reads_markup htoken hins seen), resume, hafter]
    simp [Stream.prepend]

/-- The tokens of an input with markup in it. -/
theorem run_markup (hbefore : s.reads before = some (tokens, ⟨.text seen, names⟩))
    (htoken : ∀ raw, token ≠ .text raw)
    (hmarkup : (resume names).reads ins = some (token :: piece, next)) (after : List Char) :
    (s.run (before ++ (ins ++ after))).tokens =
      tokens ++ textTokens seen ++ token :: (piece ++ (next.run after).tokens) := by
  rw [run_append hbefore, run_append (reads_markup htoken hmarkup seen)]
  simp [Stream.prepend]

end Scanner

end WireShapes.Xml
