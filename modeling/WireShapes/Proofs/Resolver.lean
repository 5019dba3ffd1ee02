import WireShapes.Proofs.Collections

/-!
# One resolver for all shapes

A model is resolved by one resolver, which resolves every shape once and keeps a single stack of the
collections that it is inside of.  It comes to what resolving every shape anew comes to
(`SymbolMap.shape?_ofModel`): what is done holds symbols that shapes resolve to, wherever they are
come to, and after every step the stack is what it was before, whether the step fails or not.
-/

namespace WireShapes

namespace Model

variable {m : Model} {name : String} {room : Nat} {active : List String}
  {done done' later : Table String Symbol} {symbol : Symbol}

/-- What is done are symbols that shapes resolve to, one for each shape. -/
structure Done (m : Model) (done : Table String Symbol) : Prop where
  nodup : done.keys.Nodup
  resolves : ∀ name symbol, done.get? name = some symbol →
    ∃ room active, m.resolve room active name = .ok symbol

theorem done_empty (m : Model) : m.Done .empty where
  nodup := .nil
  resolves _ _ h := by cases h

theorem Done.insert (h : m.Done done) (hresolve : m.resolve room active name = .ok symbol) :
    m.Done (done.insert name symbol) where
  nodup := Table.nodup_put h.nodup
  resolves other found hother := by
    rw [Table.get?_insert] at hother
    split at hother
    case isTrue heq =>
      obtain rfl := Option.some.inj hother
      exact ⟨room, active, heq ▸ hresolve⟩
    case isFalse => exact h.resolves other found hother

theorem Done.known (h : m.Done done) (hsymbol : done.get? name = some symbol) : m.Known name := by
  obtain ⟨_, _, hresolve⟩ := h.resolves name symbol hsymbol
  exact known_of_resolve hresolve

/-- What was done is still done, with the same symbols. -/
def Keeps (done done' : Table String Symbol) : Prop :=
  ∀ name symbol, done.get? name = some symbol → done'.get? name = some symbol

theorem Keeps.refl (done : Table String Symbol) : Keeps done done := fun _ _ ↦ id

theorem Keeps.trans (h : Keeps done done') (h' : Keeps done' later) : Keeps done later :=
  fun name symbol hsymbol ↦ h' name symbol (h name symbol hsymbol)

/-- A shape that resolves to one symbol can be added: if it is done, then with that symbol. -/
theorem Done.keeps_insert (h : m.Done done) (hresolve : m.resolve room active name = .ok symbol) :
    Keeps done (done.insert name symbol) := by
  intro other found hother
  rw [Table.get?_insert]
  split
  case isTrue heq =>
    subst heq
    obtain ⟨_, _, hfound⟩ := h.resolves _ found hother
    rw [resolve_unique hfound hresolve]
  case isFalse => exact hother

end Model

/-- The resolver at the end of a step that comes to an answer. -/
def Resolver.after {α : Type} (resolver : Resolver) :
    Except GenerateError α → EStateM.Result GenerateError Resolver α
  | .ok a => .ok a resolver
  | .error error => .error error resolver

namespace Resolving

open Model (Done Keeps)

/-! ## Steps -/

section Steps

variable {α : Type} {name : String} {resolver : Resolver}

theorem get_bind_run (next : Resolver → Resolving α) (resolver : Resolver) :
    (get >>= next : Resolving α) resolver = next resolver resolver :=
  rfl

theorem finally_run (step : Resolving α) (leave : Resolver → Resolver) (resolver : Resolver) :
    (try step finally modify leave : Resolving α) resolver =
      match step resolver with
      | .ok a after => .ok a (leave after)
      | .error error after => .error error (leave after) := by
  -- Only what the step comes to here matters.
  change (try (fun _ ↦ step resolver) finally modify leave : Resolving α) resolver = _
  cases step resolver <;> rfl

theorem inside_of_active (step : Resolving α) (hactive : name ∈ resolver.active) :
    inside name step resolver = .error (.anonymousCycle name) resolver := by
  rw [inside, get_bind_run, if_pos hactive]
  rfl

theorem inside_of_not_active (step : Resolving α) (hnew : name ∉ resolver.active) :
    inside name step resolver =
      match step { resolver with active := name :: resolver.active } with
      | .ok a after => .ok a { after with active := after.active.tail }
      | .error error after => .error error { after with active := after.active.tail } := by
  rw [inside, get_bind_run, if_neg hnew]
  exact finally_run step (fun resolver ↦ { resolver with active := resolver.active.tail })
    { resolver with active := name :: resolver.active }

variable {step : Resolving Symbol} {symbol : Symbol}

theorem once_of_done (hdone : resolver.done.get? name = some symbol) :
    once name step resolver = .ok symbol resolver := by
  rw [once, get_bind_run, hdone]
  rfl

theorem once_of_not_done (hnew : resolver.done.get? name = none) :
    once name step resolver =
      match step resolver with
      | .ok symbol after => .ok symbol { after with done := after.done.insert name symbol }
      | .error error after => .error error after := by
  rw [once, get_bind_run, hnew]
  change (do
    let symbol ← (fun _ ↦ step resolver : Resolving Symbol)
    modify fun resolver ↦ { resolver with done := resolver.done.insert name symbol }
    return symbol : Resolving Symbol) resolver = _
  cases step resolver <;> rfl

/-- A shape that was resolved is done. -/
theorem get?_of_once {after : Resolver} (h : once name step resolver = .ok symbol after) :
    after.done.get? name = some symbol := by
  cases hdone : resolver.done.get? name with
  | some found =>
    rw [once_of_done hdone] at h
    cases h
    exact hdone
  | none =>
    rw [once_of_not_done hdone] at h
    split at h
    · cases h
      rw [Table.get?_insert, if_pos rfl]
    · cases h

end Steps

/-! ## What steps come to -/

/-- Whatever is done already, a step inside some collections comes to an answer.  It keeps what is
done, and leaves the collections as they were, also where it fails. -/
def Gives {α : Type} (m : Model) (active : List String) (step : Resolving α)
    (answer : Except GenerateError α) : Prop :=
  ∀ done, m.Done done → ∃ done', m.Done done' ∧ Keeps done done' ∧
    step ⟨done, active⟩ = Resolver.after ⟨done', active⟩ answer

section Gives

variable {α β : Type} {m : Model} {active : List String} {name : String} {room : Nat}
  {step : Resolving α} {answer : Except GenerateError α}

theorem gives_pure (m : Model) (active : List String) (a : α) : Gives m active (pure a) (.ok a) :=
  fun done hdone ↦ ⟨done, hdone, .refl done, rfl⟩

theorem Gives.bind {next : α → Resolving β} {following : α → Except GenerateError β}
    (h : Gives m active step answer) (hnext : ∀ a, Gives m active (next a) (following a)) :
    Gives m active (step >>= next) (answer >>= following) := by
  intro done hdone
  obtain ⟨done', hdone', hkeeps, hstep⟩ := h done hdone
  cases answer with
  | error error =>
    refine ⟨done', hdone', hkeeps, ?_⟩
    simp only [Bind.bind, EStateM.bind, hstep]
    rfl
  | ok a =>
    obtain ⟨later, hlater, hkeeps', hafter⟩ := hnext a done' hdone'
    refine ⟨later, hlater, hkeeps.trans hkeeps', ?_⟩
    simp only [Bind.bind, EStateM.bind, hstep]
    exact hafter

theorem Gives.inside (h : Gives m (name :: active) step answer) (hnew : name ∉ active) :
    Gives m active (inside name step) answer := by
  intro done hdone
  obtain ⟨done', hdone', hkeeps, hstep⟩ := h done hdone
  refine ⟨done', hdone', hkeeps, ?_⟩
  rw [inside_of_not_active step hnew, hstep]
  cases answer <;> rfl

theorem gives_inside_of_active (step : Resolving α) (hactive : name ∈ active) :
    Gives m active (inside name step) (.error (.anonymousCycle name)) :=
  fun done hdone ↦ ⟨done, hdone, .refl done, inside_of_active step hactive⟩

theorem Gives.reference {shape : String → Resolving Symbol} {ref : Reference}
    {answer : Except GenerateError Symbol} (h : Gives m active (shape ref.target) answer) :
    Gives m active (reference shape ref)
      (do return ((← answer).forReference ref.indirect).type) :=
  h.bind fun symbol ↦ gives_pure m active (symbol.forReference ref.indirect).type

/-- Resolving a shape once is resolving it: what is done resolves to the same symbol here. -/
theorem Gives.once {step : Resolving Symbol} (hreferences : m.firstUnknown? = none)
    (hinside : m.Inside room active name) (h : Gives m active step (m.resolve room active name)) :
    Gives m active (once name step) (m.resolve room active name) := by
  intro done hdone
  cases hfound : done.get? name with
  | some symbol =>
    obtain ⟨_, _, hresolve⟩ := hdone.resolves name symbol hfound
    rw [Model.resolve_of_inside hreferences hinside hresolve]
    exact ⟨done, hdone, .refl done, once_of_done hfound⟩
  | none =>
    obtain ⟨done', hdone', hkeeps, hstep⟩ := h done hdone
    rw [once_of_not_done hfound, hstep]
    cases hresolve : m.resolve room active name with
    | error error => exact ⟨done', hdone', hkeeps, rfl⟩
    | ok symbol =>
      exact ⟨done'.insert name symbol, hdone'.insert hresolve,
        hkeeps.trans (hdone'.keeps_insert hresolve), rfl⟩

end Gives

end Resolving

/-! ## Shapes -/

namespace Model

open Resolving

variable {m : Model} {name : String} {room : Nat} {active : List String}

/-- With whatever is done, a shape comes to what resolving it anew comes to. -/
theorem gives_resolveShape (hreferences : m.firstUnknown? = none)
    (hinside : m.Inside room active name) :
    Gives m active (m.resolveShape room name) (m.resolve room active name) := by
  induction room generalizing name active with
  | zero => exact absurd rfl hinside.room_ne_zero
  | succ room ih =>
    obtain ⟨shape, hshape⟩ := Option.isSome_iff_exists.mp hinside.known
    rw [resolveShape]
    refine Gives.once hreferences hinside ?_
    rw [resolve, hshape]
    have hreference (hform : shape.form.isCollection) (hnew : name ∉ active) {slot : Slot}
        {ref : Reference} (href : (slot, ref) ∈ shape.refs) :=
      (ih (hinside.reference hreferences hshape hform hnew href)).reference
    cases hform : shape.form with
    | scalar kind | struct members | union members | enum values =>
      simp only [hform]
      exact gives_pure m active _
    | list item =>
      simp only [hform]
      by_cases hactive : name ∈ active
      · rw [if_pos hactive]
        exact (gives_inside_of_active _ hactive).bind fun _ ↦ gives_pure m active _
      · rw [if_neg hactive]
        have hitem := hreference (by rw [hform]; rfl) hactive (Shape.item_mem_refs hform)
        exact (hitem.inside hactive).bind fun _ ↦ gives_pure m active _
    | map key value =>
      simp only [hform]
      by_cases hactive : name ∈ active
      · rw [if_pos hactive]
        exact (gives_inside_of_active _ hactive).bind fun _ ↦ gives_pure m active _
      · rw [if_neg hactive]
        have hkey := hreference (by rw [hform]; rfl) hactive (Shape.key_mem_refs hform)
        have hvalue := hreference (by rw [hform]; rfl) hactive (Shape.value_mem_refs hform)
        have hboth := hkey.bind fun key ↦ hvalue.bind fun value ↦
          gives_pure m (name :: active) (key, value)
        have hmap := (hboth.inside hactive).bind fun (types : TypeExpr × TypeExpr) ↦
          gives_pure m active (⟨.hashMap types.1 types.2, .collection, false⟩ : Symbol)
        generalize m.resolve room (name :: active) key.target.target = keySymbol at hmap ⊢
        generalize m.resolve room (name :: active) value.target.target = valueSymbol at hmap ⊢
        cases keySymbol <;> cases valueSymbol <;> exact hmap

/-- What shapes resolve to anew, in order. -/
def resolveAnew (m : Model) (names : List String) : Except GenerateError (List Symbol) :=
  names.mapM (m.resolve (m.shapes.size + 1) [])

/-- With whatever is done, shapes in order come to what they resolve to anew, and then are done. -/
theorem exists_resolveShapes (hreferences : m.firstUnknown? = none) {names : List String}
    (hnames : ∀ name ∈ names, m.Known name) {done : Table String Symbol} (hdone : m.Done done) :
    ∃ done', m.Done done' ∧ Keeps done done' ∧
      m.resolveShapes names ⟨done, []⟩ =
        Resolver.after ⟨done', []⟩ ((fun _ ↦ ()) <$> m.resolveAnew names) ∧
      ∀ symbols, m.resolveAnew names = .ok symbols →
        ∀ name ∈ names, (done'.get? name).isSome := by
  unfold resolveAnew
  induction names generalizing done with
  | nil => exact ⟨done, hdone, .refl done, rfl, by simp⟩
  | cons name rest ih =>
    obtain ⟨hname, hrest⟩ := List.forall_mem_cons.mp hnames
    obtain ⟨done', hdone', hkeeps, hshape⟩ :=
      gives_resolveShape hreferences (.start hname) done hdone
    rw [List.mapM_cons, resolveShapes]
    simp only [Bind.bind, EStateM.bind, hshape]
    cases hresolve : m.resolve (m.shapes.size + 1) [] name with
    | error error => exact ⟨done', hdone', hkeeps, rfl, fun _ h ↦ by cases h⟩
    | ok symbol =>
      obtain ⟨later, hlater, hkeeps', hafter, hall⟩ := ih hrest hdone'
      refine ⟨later, hlater, hkeeps.trans hkeeps', hafter.trans ?_, fun symbols hsymbols ↦ ?_⟩
      · cases rest.mapM (m.resolve (m.shapes.size + 1) []) <;> rfl
      · obtain ⟨_, -, hsymbols⟩ := Failing.bind_eq_ok.mp hsymbols
        obtain ⟨others, hothers, -⟩ := Failing.bind_eq_ok.mp hsymbols
        have hsymbol := hshape.trans (congrArg (Resolver.after ⟨done', []⟩) hresolve)
        refine List.forall_mem_cons.mpr ⟨?_, hall others hothers⟩
        rw [hkeeps' name symbol (get?_of_once hsymbol)]
        rfl

end Model

namespace SymbolMap

open Model (Done)

variable {m : Model} {t : SymbolMap} {name : String}

theorem ofModel_of_unknown {shape target : String} (h : m.firstUnknown? = some (shape, target)) :
    ofModel m = .error (.unknownShape shape target) := by
  rw [ofModel, Model.checkReferences_values, h]
  rfl

theorem firstUnknown?_of_ofModel (h : ofModel m = .ok t) : m.firstUnknown? = none := by
  cases hreferences : m.firstUnknown? with
  | none => rfl
  | some unknown =>
    rw [ofModel_of_unknown hreferences] at h
    cases h

/-- Once references are known, a model comes to what its shapes come to anew, in order; and then
those that are done are all its shapes, each with the symbol that it resolves to anew. -/
theorem exists_done (hreferences : m.firstUnknown? = none) : ∃ done, m.Done done ∧
    ofModel m = (fun _ ↦ ⟨done⟩) <$> m.resolveAnew m.shapes.keys ∧
    ∀ symbols, m.resolveAnew m.shapes.keys = .ok symbols →
      ∀ name, done.get? name = (m.resolve (m.shapes.size + 1) [] name).toOption := by
  obtain ⟨done, hdone, -, hrun, hall⟩ :=
    Model.exists_resolveShapes hreferences (fun _ ↦ Model.known_iff.mpr) m.done_empty
  refine ⟨done, hdone, ?_, fun symbols hsymbols name ↦ ?_⟩
  · rw [ofModel, Model.checkReferences_values, hreferences, Failing.bind_ok, Resolver.fresh, hrun]
    cases m.resolveAnew m.shapes.keys <;> rfl
  · by_cases hname : m.Known name
    · obtain ⟨symbol, hsymbol⟩ :=
        Option.isSome_iff_exists.mp (hall symbols hsymbols name (Model.known_iff.mp hname))
      obtain ⟨_, _, hresolve⟩ := hdone.resolves name symbol hsymbol
      rw [hsymbol, Model.resolve_of_inside hreferences (.start hname) hresolve]
      rfl
    · have hnew : done.get? name = none :=
        Option.eq_none_iff_forall_ne_some.mpr fun symbol hsymbol ↦ hname (hdone.known hsymbol)
      rw [hnew, eq_comm, Option.eq_none_iff_forall_ne_some]
      intro symbol hsymbol
      exact hname (Model.known_of_resolve (Failing.toOption_eq_some.mp hsymbol))

/-- Resolving a model fails as the first of its shapes does that does not resolve anew, and gives
all of them the symbols that they resolve to anew. -/
theorem shape?_ofModel (hreferences : m.firstUnknown? = none) :
    shape? <$> ofModel m =
      (fun _ name ↦ (m.resolve (m.shapes.size + 1) [] name).toOption) <$>
        m.resolveAnew m.shapes.keys := by
  obtain ⟨done, -, hmodel, hall⟩ := exists_done hreferences
  rw [hmodel]
  cases hsymbols : m.resolveAnew m.shapes.keys with
  | error error => rfl
  | ok symbols => exact congrArg Except.ok (funext (hall symbols hsymbols))

/-- The symbol of a shape is what the shape resolves to anew. -/
theorem shape?_eq (h : ofModel m = .ok t) (name : String) :
    t.shape? name = (m.resolve (m.shapes.size + 1) [] name).toOption := by
  have hmodel := shape?_ofModel (firstUnknown?_of_ofModel h)
  rw [h] at hmodel
  obtain ⟨_, -, hshape⟩ := Failing.map_eq_ok.mp hmodel.symm
  exact congrFun hshape.symm name

/-- A shape of the model has the symbol that it resolves to. -/
theorem exists_resolve (h : ofModel m = .ok t) (hname : m.Known name) :
    ∃ symbol, t.shape? name = some symbol ∧
      m.resolve (m.shapes.size + 1) [] name = .ok symbol := by
  obtain ⟨_, -, hmodel, -⟩ := exists_done (firstUnknown?_of_ofModel h)
  rw [h] at hmodel
  obtain ⟨symbols, hsymbols, -⟩ := Failing.map_eq_ok.mp hmodel.symm
  obtain ⟨symbol, -, hresolve⟩ := Failing.exists_of_mem_left (Failing.forall₂_of_mapM_ok hsymbols)
    (Model.known_iff.mp hname)
  exact ⟨symbol, by rw [shape?_eq h, hresolve]; rfl, hresolve⟩

/-- The table has the shapes of the model. -/
theorem isSome_shape?_ofModel (h : ofModel m = .ok t) (name : String) :
    (t.shape? name).isSome = (m.shape? name).isSome := by
  rw [Bool.eq_iff_iff]
  constructor
  · intro hsome
    obtain ⟨symbol, hsymbol⟩ := Option.isSome_iff_exists.mp hsome
    rw [shape?_eq h] at hsymbol
    exact Model.known_of_resolve (Failing.toOption_eq_some.mp hsymbol)
  · intro hname
    obtain ⟨symbol, hsymbol, -⟩ := exists_resolve h hname
    exact Option.isSome_of_eq_some hsymbol

theorem mem_keys_iff (h : ofModel m = .ok t) : name ∈ t.symbols.keys ↔ name ∈ m.shapes.keys := by
  have hsome := Bool.eq_iff_iff.mp (isSome_shape?_ofModel h name)
  exact Table.get?_isSome_iff.symm.trans (hsome.trans Model.known_iff)

theorem keys_nodup (h : ofModel m = .ok t) : t.symbols.keys.Nodup := by
  obtain ⟨done, hdone, hmodel, -⟩ := exists_done (firstUnknown?_of_ofModel h)
  rw [hmodel] at h
  obtain ⟨_, -, rfl⟩ := Failing.map_eq_ok.mp h
  exact hdone.nodup

end SymbolMap

end WireShapes
