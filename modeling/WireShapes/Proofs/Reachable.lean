import Mathlib.Logic.Relation
import WireShapes.Bindings.OfModel
import WireShapes.Proofs.Failing

/-!
# Reachable shapes

`Bindings.reachable` lists the shapes that references lead to from the roots of the operations, and
no others.  The search keeps that every reference of a shape it has seen leads to a shape that it
has seen or still looks at.  Declarations depend on the list only by what is in it.
-/

namespace WireShapes.Bindings

/-- The shapes that a shape refers to. -/
def targets (m : Model) (name : String) : List String :=
  match m.shape? name with
  | some shape => shape.refs.map fun ref ↦ ref.2.target
  | none => []

/-- References lead from one shape to another. -/
def Leads (m : Model) : String → String → Prop :=
  Relation.ReflTransGen fun a b ↦ b ∈ targets m a

variable {m : Model} {seen pending : List String} {name other : String}

theorem reachFrom_old (h : name ∈ seen) :
    reachFrom m seen (name :: pending) = reachFrom m seen pending := by
  rw [reachFrom, dif_pos h]

theorem reachFrom_new (h : name ∉ seen) :
    reachFrom m seen (name :: pending) =
      reachFrom m (name :: seen) (targets m name ++ pending) := by
  rw [reachFrom, dif_neg h, targets]
  split <;> simp_all

/-- The references of what was seen lead to what was seen or is looked at next. -/
def Closed (m : Model) (seen pending : List String) : Prop :=
  ∀ a ∈ seen, ∀ b ∈ targets m a, b ∈ seen ∨ b ∈ pending

theorem Closed.old (h : Closed m seen (name :: pending)) (hname : name ∈ seen) :
    Closed m seen pending := by
  intro a ha b hb
  rcases h a ha b hb with hseen | hpending
  · exact .inl hseen
  · rcases List.mem_cons.mp hpending with rfl | hpending
    · exact .inl hname
    · exact .inr hpending

theorem Closed.new (h : Closed m seen (name :: pending)) :
    Closed m (name :: seen) (targets m name ++ pending) := by
  intro a ha b hb
  rcases List.mem_cons.mp ha with rfl | ha
  · exact .inr (List.mem_append_left _ hb)
  · rcases h a ha b hb with hseen | hpending
    · exact .inl (List.mem_cons_of_mem _ hseen)
    · rcases List.mem_cons.mp hpending with rfl | hpending
      · exact .inl List.mem_cons_self
      · exact .inr (List.mem_append_right _ hpending)

/-- What a seen shape leads to was seen, or is led to by what is looked at next. -/
theorem Closed.leads (h : Closed m seen pending) (hname : name ∈ seen)
    (hleads : Leads m name other) : other ∈ seen ∨ ∃ start ∈ pending, Leads m start other := by
  induction hleads with
  | refl => exact .inl hname
  | tail _ hstep ih =>
    rcases ih with hseen | ⟨start, hstart, hleads⟩
    · rcases h _ hseen _ hstep with hseen | hpending
      · exact .inl hseen
      · exact .inr ⟨_, hpending, .refl⟩
    · exact .inr ⟨start, hstart, hleads.tail hstep⟩

/-- Looking at a shape: it is seen now, and what it refers to is looked at next. -/
theorem leads_new_iff :
    (other ∈ name :: seen ∨ ∃ start ∈ targets m name ++ pending, Leads m start other) ↔
      other ∈ seen ∨ ∃ start ∈ name :: pending, Leads m start other := by
  constructor
  · rintro (hmem | ⟨start, hstart, hleads⟩)
    · rcases List.mem_cons.mp hmem with rfl | hmem
      · exact .inr ⟨other, List.mem_cons_self, .refl⟩
      · exact .inl hmem
    · rcases List.mem_append.mp hstart with hstart | hstart
      · exact .inr ⟨name, List.mem_cons_self, .head hstart hleads⟩
      · exact .inr ⟨start, List.mem_cons_of_mem _ hstart, hleads⟩
  · rintro (hmem | ⟨start, hstart, hleads⟩)
    · exact .inl (List.mem_cons_of_mem _ hmem)
    · rcases List.mem_cons.mp hstart with rfl | hstart
      · rcases Relation.ReflTransGen.cases_head hleads with rfl | ⟨next, hnext, hleads⟩
        · exact .inl List.mem_cons_self
        · exact .inr ⟨next, List.mem_append_left _ hnext, hleads⟩
      · exact .inr ⟨start, List.mem_append_right _ hstart, hleads⟩

/-- The search finds what was seen and what is led to from what is looked at. -/
theorem mem_reachFrom_iff (h : Closed m seen pending) :
    other ∈ reachFrom m seen pending ↔
      other ∈ seen ∨ ∃ start ∈ pending, Leads m start other := by
  induction seen, pending using reachFrom.induct m with
  | case1 seen => simp [reachFrom]
  | case2 seen name pending hold ih =>
    rw [reachFrom_old hold, ih (h.old hold)]
    constructor
    · rintro (hmem | ⟨start, hstart, hleads⟩)
      · exact .inl hmem
      · exact .inr ⟨start, List.mem_cons_of_mem _ hstart, hleads⟩
    · rintro (hmem | ⟨start, hstart, hleads⟩)
      · exact .inl hmem
      · rcases List.mem_cons.mp hstart with rfl | hstart
        · exact (h.old hold).leads hold hleads
        · exact .inr ⟨start, hstart, hleads⟩
  | case3 seen name pending hnew hnone ih =>
    have htargets : targets m name ++ pending = pending := by simp [targets, hnone]
    have hclosed := h.new
    rw [htargets] at hclosed
    rw [reachFrom_new hnew, ← leads_new_iff, htargets]
    exact ih hclosed
  | case4 seen name pending hnew shape hshape ih =>
    have htargets : targets m name = shape.refs.map fun ref ↦ ref.2.target := by
      simp [targets, hshape]
    have hclosed := h.new
    rw [htargets] at hclosed
    rw [reachFrom_new hnew, ← leads_new_iff, htargets]
    exact ih hclosed

/-- With operations, reachable is what their roots lead to. -/
theorem mem_reachable_iff (h : m.operations.isEmpty = false) :
    name ∈ reachable m ↔ ∃ root ∈ m.operations.flatMap Operation.roots, Leads m root name := by
  unfold reachable
  rw [h, if_neg (by simp), mem_reachFrom_iff (by simp [Closed])]
  simp

/-! ## Lists of all reachable shapes -/

/-- Every shape of a list is a root or is referred to by one after it. -/
def Derived (m : Model) (roots : List String) : List String → Prop
  | [] => True
  | name :: rest => (name ∈ roots ∨ ∃ a ∈ rest, name ∈ targets m a) ∧ Derived m roots rest

instance decidableDerived (m : Model) (roots : List String) :
    (names : List String) → Decidable (Derived m roots names)
  | [] => inferInstanceAs (Decidable True)
  | name :: rest =>
    have := decidableDerived m roots rest
    inferInstanceAs (Decidable ((name ∈ roots ∨ ∃ a ∈ rest, name ∈ targets m a) ∧
      Derived m roots rest))

/-- The list holds the roots of the operations and what it refers to, and nothing that is not led
to from the roots. -/
structure Exhausts (m : Model) (names : List String) : Prop where
  operations : m.operations.isEmpty = false
  roots : ∀ root ∈ m.operations.flatMap Operation.roots, root ∈ names
  closed : ∀ a ∈ names, ∀ b ∈ targets m a, b ∈ names
  derived : Derived m (m.operations.flatMap Operation.roots) names

theorem Derived.leads {roots names : List String} (h : Derived m roots names)
    (hname : name ∈ names) : ∃ root ∈ roots, Leads m root name := by
  induction names generalizing name with
  | nil => simp at hname
  | cons first rest ih =>
    obtain ⟨hfirst, hrest⟩ := h
    rcases List.mem_cons.mp hname with rfl | hname
    · rcases hfirst with hroot | ⟨a, ha, htarget⟩
      · exact ⟨name, hroot, .refl⟩
      · obtain ⟨root, hroot, hleads⟩ := ih hrest ha
        exact ⟨root, hroot, hleads.tail htarget⟩
    · exact ih hrest hname

theorem Exhausts.mem_reachable_iff {names : List String} (h : Exhausts m names) :
    name ∈ reachable m ↔ name ∈ names := by
  rw [Bindings.mem_reachable_iff h.operations]
  constructor
  · rintro ⟨root, hroot, hleads⟩
    induction hleads with
    | refl => exact h.roots root hroot
    | tail _ hstep ih => exact h.closed _ ih _ hstep
  · exact h.derived.leads

namespace Context

variable {ctx : Context} {reached reached' : List String}

theorem decodersFor_congr (h : ∀ name, name ∈ reached ↔ name ∈ reached') (functions : Claims)
    (shapes : List Shape) :
    ctx.decodersFor reached functions shapes = ctx.decodersFor reached' functions shapes := by
  have hcontains (name : String) : reached.contains name = reached'.contains name := by
    rw [Bool.eq_iff_iff, List.contains_iff_mem, List.contains_iff_mem, h]
  induction shapes generalizing functions with
  | nil => rfl
  | cons shape rest ih =>
    unfold decodersFor
    simp only [hcontains, ih]

/-- Declarations depend on the reachable shapes by membership alone. -/
theorem declarationsFor_congr (h : ∀ name, name ∈ reached ↔ name ∈ reached') :
    ctx.declarationsFor reached = ctx.declarationsFor reached' := by
  unfold declarationsFor
  simp only [decodersFor_congr h]

end Context

theorem model_of_resolved {defaults : Defaults} {ctx : Context}
    (h : m.resolved defaults = .ok ctx) : ctx.model = m := by
  unfold Model.resolved at h
  obtain ⟨symbols, -, hrest⟩ := Failing.bind_eq_ok.mp h
  obtain ⟨bindings, -, hctx⟩ := Failing.bind_eq_ok.mp hrest
  cases hctx
  rfl

/-- The bindings of a model, with its reachable shapes listed. -/
theorem bindings_eq_of_exhausts {names : List String} (h : Exhausts m.breakCycles names)
    (defaults : Defaults) :
    m.bindings defaults =
      m.breakCycles.resolved defaults >>= fun ctx ↦ ctx.declarationsFor names := by
  unfold Model.bindings
  cases hresolved : m.breakCycles.resolved defaults with
  | error error => rfl
  | ok ctx =>
    apply Context.declarationsFor_congr
    intro name
    rw [model_of_resolved hresolved]
    exact h.mem_reachable_iff

/-- What holds of the bindings of the listed shapes holds of those of the model. -/
theorem Exhausts.exists_bindings {names : List String} (h : Exhausts m.breakCycles names)
    (defaults : Defaults) (accept : Bindings → Bool)
    (haccept : ((m.breakCycles.resolved defaults >>= fun ctx ↦
      ctx.declarationsFor names).toOption.any accept) = true) :
    ∃ b, m.bindings defaults = .ok b ∧ accept b = true := by
  rw [← bindings_eq_of_exhausts h] at haccept
  obtain ⟨b, hb, hholds⟩ := (Option.any_eq_true _ _).mp haccept
  exact ⟨b, Failing.toOption_eq_some.mp hb, hholds⟩

end WireShapes.Bindings
