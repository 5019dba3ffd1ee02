import WireShapes.Model.Symbol
import WireShapes.Proofs.Failing
import WireShapes.Proofs.Keyed

/-!
# Ways through collections

The type of a list or map is made of the types of its references, so the symbol of a shape is found
by following references through collections and stopping at everything else (`Model.resolve`).  That
fails on a collection that it comes back to, and on nothing else once all references are known: a
path through collections that are all different is no longer than the model, so there is room for
every one.  Where it succeeds there is no way back to any collection, and however a shape was come
to, its symbol is the same.
-/

namespace WireShapes

/-- The form is one whose type is made of the types of its references. -/
def Form.isCollection : Form → Bool
  | .list _ | .map _ _ => true
  | .scalar _ | .struct _ | .union _ | .enum _ => false

/-- The symbol of a shape by its form, given the symbols of its references. -/
def Form.symbol? (name : String) (reference? : Reference → Option Symbol) : Form → Option Symbol
  | .scalar kind => some ⟨.scalar kind, .scalar kind, false⟩
  | .struct _ => some ⟨.named (Code.camelName name), .struct, false⟩
  | .union _ => some ⟨.named (Code.camelName name), .union, false⟩
  | .enum _ => some ⟨.named (Code.camelName name), .enum, false⟩
  | .list item => do
    let item ← reference? item.target
    return ⟨.vec item.type, .collection, false⟩
  | .map key value => do
    let key ← reference? key.target
    let value ← reference? value.target
    return ⟨.hashMap key.type value.type, .collection, false⟩

namespace Form

variable {name : String} {shape : Shape}

/-- A symbol of a collection is made of symbols of its references. -/
theorem symbol?_isSome {reference? : Reference → Option Symbol}
    (h : (shape.form.symbol? name reference?).isSome) (hform : shape.form.isCollection)
    {slot : Slot} {ref : Reference} (href : (slot, ref) ∈ shape.refs) :
    (reference? ref).isSome := by
  cases hshape : shape.form with
  | scalar kind | struct members | union members | enum values =>
    simp [hshape, isCollection] at hform
  | list item =>
    obtain ⟨rfl, rfl⟩ : slot = .item ∧ ref = item.target := by
      simpa [Shape.refs, hshape] using href
    cases hitem : reference? item.target <;> simp_all [symbol?]
  | map key value =>
    have hslot : ref = key.target ∨ ref = value.target := by
      have hslots : slot = .key ∧ ref = key.target ∨ slot = .value ∧ ref = value.target := by
        simpa [Shape.refs, hshape] using href
      exact hslots.imp And.right And.right
    rcases hslot with rfl | rfl <;> cases hkey : reference? key.target <;>
      cases hvalue : reference? value.target <;> simp_all [symbol?]

/-- Equal symbols of the references make equal symbols. -/
theorem symbol?_congr {find find' : Reference → Option Symbol}
    (h : shape.form.isCollection → ∀ slot ref, (slot, ref) ∈ shape.refs → find ref = find' ref) :
    shape.form.symbol? name find = shape.form.symbol? name find' := by
  cases hshape : shape.form with
  | scalar kind | struct members | union members | enum values => rfl
  | list item =>
    have hitem := h (by rw [hshape]; rfl) .item item.target (Shape.item_mem_refs hshape)
    simp only [symbol?, hitem]
  | map key value =>
    have hkey := h (by rw [hshape]; rfl) .key key.target (Shape.key_mem_refs hshape)
    have hvalue := h (by rw [hshape]; rfl) .value value.target (Shape.value_mem_refs hshape)
    simp only [symbol?, hkey, hvalue]

theorem isBoxed_of_symbol? {form : Form} {reference? : Reference → Option Symbol} {symbol : Symbol}
    (h : form.symbol? name reference? = some symbol) : symbol.isBoxed = false := by
  cases form with
  | scalar kind | struct members | union members | enum values =>
    obtain rfl := Option.some.inj h
    rfl
  | list item =>
    obtain ⟨item, -, hsymbol⟩ := Option.bind_eq_some_iff.mp h
    obtain rfl := Option.some.inj hsymbol
    rfl
  | map key value =>
    obtain ⟨key, -, hvalue⟩ := Option.bind_eq_some_iff.mp h
    obtain ⟨value, -, hsymbol⟩ := Option.bind_eq_some_iff.mp hvalue
    obtain rfl := Option.some.inj hsymbol
    rfl

end Form

namespace Model

/-! ## References of collections -/

/-- A list or map refers to a shape. -/
def Collects (m : Model) (a b : String) : Prop :=
  ∃ shape slot ref, m.shape? a = some shape ∧ shape.form.isCollection ∧ (slot, ref) ∈ shape.refs ∧
    ref.target = b

/-- References lead through lists and maps only from a shape back to it. -/
def CollectionCycle (m : Model) (name : String) : Prop :=
  Relation.TransGen m.Collects name name

/-- All references in model order, with the names of their shapes. -/
def references (m : Model) : List (String × String) :=
  m.shapes.values.flatMap fun shape ↦ shape.refs.map fun ref ↦ (shape.name, ref.2.target)

/-- The first reference in model order whose target is not in the model. -/
def firstUnknown? (m : Model) : Option (String × String) :=
  m.references.find? fun ref ↦ (m.shape? ref.2).isNone

variable {m : Model} {name target : String} {shape : Shape} {room : Nat} {active : List String}
  {symbol : Symbol}

theorem checkReferences_eq (m : Model) (shapes : List Shape) :
    m.checkReferences shapes =
      match (shapes.flatMap fun shape ↦ shape.refs.map fun ref ↦ (shape.name, ref.2.target)).find?
        fun ref ↦ (m.shape? ref.2).isNone with
      | some (shape, target) => .error (.unknownShape shape target)
      | none => .ok () := by
  induction shapes with
  | nil => rfl
  | cons shape rest ih =>
    have hown : (shape.refs.map fun ref ↦ (shape.name, ref.2.target)).find?
          (fun ref ↦ (m.shape? ref.2).isNone) =
        (m.unknownTarget? shape).map fun target ↦ (shape.name, target) := by
      simp [unknownTarget?, List.find?_map, Function.comp_def]
    rw [checkReferences, List.flatMap_cons, List.find?_append, hown, ih]
    cases m.unknownTarget? shape <;> rfl

theorem checkReferences_values (m : Model) :
    m.checkReferences m.shapes.values =
      match m.firstUnknown? with
      | some (shape, target) => .error (.unknownShape shape target)
      | none => .ok () :=
  m.checkReferences_eq m.shapes.values

/-- Where no reference is unknown, every reference of a shape that is found is known. -/
theorem known_of_firstUnknown? (h : m.firstUnknown? = none) (hshape : m.shape? name = some shape)
    {slot : Slot} {ref : Reference} (href : (slot, ref) ∈ shape.refs) : m.Known ref.target := by
  have hmem : (shape.name, ref.target) ∈ m.references :=
    List.mem_flatMap.mpr ⟨shape, mem_values_of_shape? hshape, List.mem_map.mpr ⟨_, href, rfl⟩⟩
  have hfound := List.find?_eq_none.mp h _ hmem
  simpa [Known, Option.isSome_iff_ne_none] using hfound

/-! ## One step of resolution -/

/-- The symbol of a shape, with every shape that it is made of resolved anew.  `active` are the
collections whose items are being resolved; `room` bounds how many more can become active. -/
def resolve (m : Model) : (room : Nat) → (active : List String) → String →
    Except GenerateError Symbol
  | 0, _, name => .error (.anonymousCycle name)
  | room + 1, active, name =>
    match m.shape? name with
    | none => .error (.unknownShape name name)
    | some shape =>
      let reference (item : Item) : Except GenerateError TypeExpr := do
        let symbol ← m.resolve room (name :: active) item.target.target
        return (symbol.forReference item.target.indirect).type
      match shape.form with
      | .scalar kind => .ok ⟨.scalar kind, .scalar kind, false⟩
      | .struct _ => .ok ⟨.named (Code.camelName name), .struct, false⟩
      | .union _ => .ok ⟨.named (Code.camelName name), .union, false⟩
      | .enum _ => .ok ⟨.named (Code.camelName name), .enum, false⟩
      | .list item =>
        if name ∈ active then .error (.anonymousCycle name)
        else do return ⟨.vec (← reference item), .collection, false⟩
      | .map key value =>
        if name ∈ active then .error (.anonymousCycle name)
        else do
          let key ← reference key
          let value ← reference value
          return ⟨.hashMap key value, .collection, false⟩

/-- The symbol that a reference resolves to, inside some collections. -/
def resolved? (m : Model) (room : Nat) (active : List String) (ref : Reference) : Option Symbol :=
  (m.resolve room active ref.target).toOption.map fun symbol ↦ symbol.forReference ref.indirect

/-- What a shape resolves to, errors apart: a collection must not be one of those that it is in. -/
theorem toOption_resolve_succ (m : Model) (room : Nat) (active : List String) (name : String) :
    (m.resolve (room + 1) active name).toOption = (m.shape? name).bind fun shape ↦
      if shape.form.isCollection ∧ name ∈ active then none
      else shape.form.symbol? name (m.resolved? room (name :: active)) := by
  rw [resolve]
  cases m.shape? name with
  | none => rfl
  | some shape =>
    cases hform : shape.form with
    | scalar kind | struct members | union members | enum values =>
      simp [Form.isCollection, Form.symbol?, hform, Except.toOption]
    | list item =>
      by_cases hactive : name ∈ active
      · simp [Form.isCollection, hform, hactive, Except.toOption]
      · simp only [hform, hactive, if_false, Option.bind_some, and_false, Form.symbol?, resolved?,
          Failing.toOption_bind]
        cases m.resolve room (name :: active) item.target.target <;> rfl
    | map key value =>
      by_cases hactive : name ∈ active
      · simp [Form.isCollection, hform, hactive, Except.toOption]
      · simp only [hform, hactive, if_false, Option.bind_some, and_false, Form.symbol?, resolved?,
          Failing.toOption_bind]
        cases m.resolve room (name :: active) key.target.target <;>
          cases m.resolve room (name :: active) value.target.target <;> rfl

theorem known_of_resolve (h : m.resolve room active name = .ok symbol) : m.Known name := by
  cases room with
  | zero => cases h
  | succ room =>
    have hsome := Failing.toOption_eq_some.mpr h
    rw [toOption_resolve_succ] at hsome
    obtain ⟨shape, hshape, -⟩ := Option.bind_eq_some_iff.mp hsome
    exact Option.isSome_of_eq_some hshape

/-! ## Failure and success -/

/-- Resolution has come to a known shape by way of some collections.  They are all different, and
with those that there is room for they are more than the model has. -/
structure Inside (m : Model) (room : Nat) (active : List String) (name : String) : Prop where
  known : m.Known name
  leads : ∀ a ∈ active, m.Known a ∧ Relation.TransGen m.Collects a name
  nodup : active.Nodup
  spacious : m.shapes.size < room + active.length

/-- A shape that nothing has led to. -/
theorem Inside.start (h : m.Known name) : m.Inside (m.shapes.size + 1) [] name where
  known := h
  leads := by simp
  nodup := .nil
  spacious := by simp

theorem Inside.room_ne_zero (h : m.Inside room active name) : room ≠ 0 := by
  rintro rfl
  have hsubset : active ⊆ m.shapes.keys := fun a ha ↦ known_iff.mp (h.leads a ha).1
  have hlength := h.nodup.length_le_of_subset hsubset
  have hspacious := h.spacious
  rw [Table.length_keys] at hlength
  omega

/-- Inside one more collection. -/
theorem Inside.reference (h : m.Inside (room + 1) active name) (hreferences : m.firstUnknown? = none)
    (hshape : m.shape? name = some shape) (hform : shape.form.isCollection) (hnew : name ∉ active)
    {slot : Slot} {ref : Reference} (href : (slot, ref) ∈ shape.refs) :
    m.Inside room (name :: active) ref.target := by
  have hstep : m.Collects name ref.target := ⟨shape, slot, ref, hshape, hform, href, rfl⟩
  have hspacious := h.spacious
  constructor
  case known => exact known_of_firstUnknown? hreferences hshape href
  case leads =>
    intro a ha
    rcases List.mem_cons.mp ha with rfl | ha
    · exact ⟨h.known, .single hstep⟩
    · exact ⟨(h.leads a ha).1, (h.leads a ha).2.tail hstep⟩
  case nodup => exact h.nodup.cons hnew
  case spacious =>
    rw [List.length_cons]
    omega

/-- Where references are known, resolution fails only on a collection that it came from, and that
the shape leads to. -/
theorem collectionCycle_of_resolve_error {error : GenerateError}
    (hreferences : m.firstUnknown? = none) (hinside : m.Inside room active name)
    (h : m.resolve room active name = .error error) :
    ∃ other, error = .anonymousCycle other ∧ m.CollectionCycle other ∧
      Relation.ReflTransGen m.Collects name other := by
  induction room generalizing name active with
  | zero => exact absurd rfl hinside.room_ne_zero
  | succ room ih =>
    obtain ⟨shape, hshape⟩ := Option.isSome_iff_exists.mp hinside.known
    have hback (hmem : name ∈ active) (herror : error = .anonymousCycle name) :
        ∃ other, error = .anonymousCycle other ∧ m.CollectionCycle other ∧
          Relation.ReflTransGen m.Collects name other :=
      ⟨name, herror, (hinside.leads name hmem).2, .refl⟩
    have hbelow (hform : shape.form.isCollection) (hmem : name ∉ active) (slot : Slot)
        (ref : Reference) (href : (slot, ref) ∈ shape.refs)
        (herror : m.resolve room (name :: active) ref.target = .error error) :
        ∃ other, error = .anonymousCycle other ∧ m.CollectionCycle other ∧
          Relation.ReflTransGen m.Collects name other := by
      obtain ⟨other, hother, hcycle, hleads⟩ :=
        ih (hinside.reference hreferences hshape hform hmem href) herror
      exact ⟨other, hother, hcycle, .head ⟨shape, slot, ref, hshape, hform, href, rfl⟩ hleads⟩
    rw [resolve, hshape] at h
    cases hform : shape.form with
    | scalar kind | struct members | union members | enum values => simp [hform] at h
    | list item =>
      by_cases hmem : name ∈ active
      · exact hback hmem (by simpa [hform, hmem, eq_comm] using h)
      · simp only [hform, hmem, if_false, Failing.bind_eq_error] at h
        refine hbelow (by rw [hform]; rfl) hmem .item item.target ?_ ?_
        · exact Shape.item_mem_refs hform
        · simpa [pure, Except.pure] using h
    | map key value =>
      by_cases hmem : name ∈ active
      · exact hback hmem (by simpa [hform, hmem, eq_comm] using h)
      · simp only [hform, hmem, if_false, Failing.bind_eq_error] at h
        simp only [pure, Except.pure, reduceCtorEq, and_false, exists_false, or_false] at h
        rcases h with hkey | ⟨-, -, hvalue⟩
        · exact hbelow (by rw [hform]; rfl) hmem .key _ (Shape.key_mem_refs hform) hkey
        · exact hbelow (by rw [hform]; rfl) hmem .value _ (Shape.value_mem_refs hform) hvalue

/-- From a shape that resolves, there is no endless way through collections. -/
theorem acc_of_resolve (h : m.resolve room active name = .ok symbol) :
    Acc (fun b a ↦ m.Collects a b) name := by
  induction room generalizing active name symbol with
  | zero => cases h
  | succ room ih =>
    refine ⟨_, ?_⟩
    rintro _ ⟨shape, slot, ref, hshape, hform, href, rfl⟩
    have hsome := congrArg Option.isSome (Failing.toOption_eq_some.mpr h)
    rw [toOption_resolve_succ, hshape, Option.bind_some] at hsome
    split at hsome
    · cases hsome
    · have hinner := Form.symbol?_isSome hsome hform href
      rw [resolved?, Option.isSome_map, Option.isSome_iff_exists] at hinner
      obtain ⟨inner, hinner⟩ := hinner
      exact ih (Failing.toOption_eq_some.mp hinner)

theorem not_collectionCycle_of_acc (h : Acc (fun b a ↦ m.Collects a b) name) :
    ¬ m.CollectionCycle name := by
  have hacc := h.transGen
  induction hacc with
  | intro name _ ih =>
    intro hcycle
    exact ih name (Relation.transGen_swap.mpr hcycle) h hcycle

theorem acc_of_reflTransGen {other : String} (h : Acc (fun b a ↦ m.Collects a b) name)
    (hleads : Relation.ReflTransGen m.Collects name other) :
    Acc (fun b a ↦ m.Collects a b) other := by
  induction hleads with
  | refl => exact h
  | tail _ hlast ih => exact ih.inv hlast

/-- However a shape is come to, it resolves to the same symbol. -/
theorem resolve_unique {room' : Nat} {active' : List String} {symbol' : Symbol}
    (h : m.resolve room active name = .ok symbol)
    (h' : m.resolve room' active' name = .ok symbol') : symbol = symbol' := by
  induction room generalizing active name symbol room' active' symbol' with
  | zero => cases h
  | succ room ih =>
    cases room' with
    | zero => cases h'
    | succ room' =>
      have hsome := Failing.toOption_eq_some.mpr h
      have hsome' := Failing.toOption_eq_some.mpr h'
      rw [toOption_resolve_succ] at hsome hsome'
      obtain ⟨shape, hshape, hsymbol⟩ := Option.bind_eq_some_iff.mp hsome
      rw [hshape, Option.bind_some] at hsome'
      split at hsymbol
      · cases hsymbol
      split at hsome'
      · cases hsome'
      have hfinds (hform : shape.form.isCollection) (slot : Slot) (ref : Reference)
          (href : (slot, ref) ∈ shape.refs) :
          m.resolved? room (name :: active) ref = m.resolved? room' (name :: active') ref := by
        have hinner := Form.symbol?_isSome (by rw [hsymbol]; rfl) hform href
        have hinner' := Form.symbol?_isSome (by rw [hsome']; rfl) hform href
        rw [resolved?, Option.isSome_map, Option.isSome_iff_exists] at hinner hinner'
        obtain ⟨inner, hinner⟩ := hinner
        obtain ⟨inner', hinner'⟩ := hinner'
        have heq := ih (Failing.toOption_eq_some.mp hinner) (Failing.toOption_eq_some.mp hinner')
        rw [resolved?, resolved?, hinner, hinner', heq]
      rw [Form.symbol?_congr hfinds, hsome'] at hsymbol
      exact (Option.some.inj hsymbol).symm

/-- A shape that resolves somewhere resolves to the same symbol wherever resolution comes to it. -/
theorem resolve_of_inside {room' : Nat} {active' : List String}
    (hreferences : m.firstUnknown? = none) (hinside : m.Inside room active name)
    (h : m.resolve room' active' name = .ok symbol) : m.resolve room active name = .ok symbol := by
  cases hresolve : m.resolve room active name with
  | ok symbol' => rw [resolve_unique h hresolve]
  | error error =>
    -- The failure would be on a cycle that the shape leads to, where nothing resolves.
    obtain ⟨other, -, hcycle, hleads⟩ :=
      collectionCycle_of_resolve_error hreferences hinside hresolve
    exact absurd hcycle (not_collectionCycle_of_acc (acc_of_reflTransGen (acc_of_resolve h) hleads))

end Model

end WireShapes
