import Mathlib.Logic.Relation
import WireShapes.Proofs.Resolver

/-!
# What types are made of

A resolved type names generated types.  These are types of shapes that references lead to, from the
shape that was resolved through lists and maps only; and to those that the type does not put behind
a box lead references that are not marked.  Where every cycle has a marked reference, references
that are not marked lead from no shape back to it.
-/

namespace WireShapes

/-- The generated types that a value of a type holds, other than behind a box or also there. -/
def TypeExpr.held (inBoxes : Bool) : TypeExpr → List String
  | .scalar _ => []
  | .vec item => item.held inBoxes
  | .hashMap key value => key.held inBoxes ++ value.held inBoxes
  | .named name => [name]
  | .boxed inner => if inBoxes then inner.held inBoxes else []

/-- A type of its own is generated for the form. -/
def Form.hasType : Form → Bool
  | .struct _ | .union _ | .enum _ => true
  | .scalar _ | .list _ | .map _ _ => false

namespace Model

/-- A shape refers to another, by a reference that is not marked or by any. -/
def Holds (m : Model) (inBoxes : Bool) (a b : String) : Prop :=
  ∃ shape slot ref, m.shape? a = some shape ∧ (slot, ref) ∈ shape.refs ∧ ref.target = b ∧
    (ref.indirect = true → inBoxes = true)

variable {m : Model} {inBoxes : Bool} {name : String} {symbol : Symbol}

theorem held_forReference {indirect : Bool} {held : String}
    (h : held ∈ (symbol.forReference indirect).type.held inBoxes) :
    (indirect = true → inBoxes = true) ∧ held ∈ symbol.type.held inBoxes := by
  cases indirect with
  | false => exact ⟨nofun, h⟩
  | true =>
    cases inBoxes with
    | false => cases h
    | true => exact ⟨fun _ ↦ rfl, h⟩

/-- References lead from a shape to one with a type of that name. -/
def LeadsToType (m : Model) (inBoxes : Bool) (name held : String) : Prop :=
  ∃ target shape, Relation.ReflTransGen (m.Holds inBoxes) name target ∧
    m.shape? target = some shape ∧ shape.form.hasType ∧ held = Code.camelName target

/-- A collection passes on what the reference of one of its items holds. -/
theorem leadsToType_of_item {shape : Shape} {slot : Slot} {ref : Reference} {held : String}
    {type : TypeExpr} {resolved : Except GenerateError Symbol} (hshape : m.shape? name = some shape)
    (hslot : (slot, ref) ∈ shape.refs)
    (htype : (do return ((← resolved).forReference ref.indirect).type) = .ok type)
    (hbelow : ∀ symbol, resolved = .ok symbol → held ∈ symbol.type.held inBoxes →
      m.LeadsToType inBoxes ref.target held)
    (hheld : held ∈ type.held inBoxes) : m.LeadsToType inBoxes name held := by
  obtain ⟨inner, hinner, heq⟩ := Failing.bind_eq_ok.mp htype
  obtain rfl := Except.ok.inj heq
  obtain ⟨hdirect, hmem⟩ := held_forReference hheld
  obtain ⟨target, found, hleads, hfound⟩ := hbelow inner hinner hmem
  exact ⟨target, found, .head ⟨shape, slot, ref, hshape, hslot, rfl, hdirect⟩ hleads, hfound⟩

/-- The types that a resolved type holds are those of shapes it leads to. -/
theorem leadsToType_of_mem_held {room : Nat} {active : List String}
    (h : m.resolve room active name = .ok symbol) {held : String}
    (hheld : held ∈ symbol.type.held inBoxes) : m.LeadsToType inBoxes name held := by
  induction room generalizing active name symbol held with
  | zero => cases h
  | succ room ih =>
    unfold resolve at h
    cases hshape : m.shape? name with
    | none =>
      rw [hshape] at h
      cases h
    | some shape =>
      rw [hshape] at h
      dsimp only at h
      cases hform : shape.form with
      | scalar kind =>
        rw [hform] at h
        obtain rfl := Except.ok.inj h
        cases hheld
      | struct members | union members | enum values =>
        rw [hform] at h
        obtain rfl := Except.ok.inj h
        exact ⟨name, shape, .refl, hshape, by rw [hform]; rfl, List.mem_singleton.mp hheld⟩
      | list item =>
        have hslot := Shape.item_mem_refs hform
        rw [hform] at h
        dsimp only at h
        split at h
        · cases h
        · obtain ⟨type, htype, heq⟩ := Failing.bind_eq_ok.mp h
          obtain rfl := Except.ok.inj heq
          exact leadsToType_of_item hshape hslot htype (fun _ hinner ↦ ih hinner) hheld
      | map key value =>
        have hkeySlot := Shape.key_mem_refs hform
        have hvalueSlot := Shape.value_mem_refs hform
        rw [hform] at h
        dsimp only at h
        split at h
        · cases h
        · obtain ⟨keyType, hkey, hrest⟩ := Failing.bind_eq_ok.mp h
          obtain ⟨valueType, hvalue, heq⟩ := Failing.bind_eq_ok.mp hrest
          obtain rfl := Except.ok.inj heq
          rcases List.mem_append.mp hheld with hmem | hmem
          · exact leadsToType_of_item hshape hkeySlot hkey (fun _ hinner ↦ ih hinner) hmem
          · exact leadsToType_of_item hshape hvalueSlot hvalue (fun _ hinner ↦ ih hinner) hmem

/-- The types that the symbol of a shape holds are those of shapes it leads to. -/
theorem leadsToType_of_shape? {t : SymbolMap} (ht : SymbolMap.ofModel m = .ok t)
    (h : t.shape? name = some symbol) {held : String} (hheld : held ∈ symbol.type.held inBoxes) :
    m.LeadsToType inBoxes name held := by
  rw [SymbolMap.shape?_eq ht] at h
  exact leadsToType_of_mem_held (Failing.toOption_eq_some.mp h) hheld

/-! ## No shape holds itself -/

/-- An unmarked reference is an edge that is not marked. -/
theorem exists_edge_of_holds {a b : String} (h : m.Holds false a b) :
    ∃ edge : Edge, edge.shape = a ∧ m.target? edge = some b ∧ ¬ m.Indirect edge := by
  obtain ⟨shape, slot, ref, hshape, hmem, rfl, hdirect⟩ := h
  have href : m.refAt? ⟨a, slot⟩ = some ref := by
    simp [refAt?, hshape, Shape.mem_refs_iff.mp hmem]
  refine ⟨⟨a, slot⟩, rfl, by simp [target?, href], ?_⟩
  rintro ⟨other, hother, hindirect⟩
  obtain rfl : other = ref := Option.some.inj (hother.symm.trans href)
  exact absurd (hdirect hindirect) Bool.false_ne_true

theorem exists_path_of_holds {a b : String} (h : Relation.TransGen (m.Holds false) a b) :
    ∃ edges, edges ≠ [] ∧ m.Path edges a b ∧ ∀ edge ∈ edges, ¬ m.Indirect edge := by
  induction h using Relation.TransGen.head_induction_on with
  | single hlast =>
    obtain ⟨edge, rfl, htarget, hdirect⟩ := exists_edge_of_holds hlast
    exact ⟨[edge], List.cons_ne_nil _ _, .cons htarget (.nil _), by simpa using hdirect⟩
  | head hfirst _ ih =>
    obtain ⟨edge, rfl, htarget, hdirect⟩ := exists_edge_of_holds hfirst
    obtain ⟨edges, -, hpath, hrest⟩ := ih
    exact ⟨edge :: edges, List.cons_ne_nil _ _, .cons htarget hpath,
      List.forall_mem_cons.mpr ⟨hdirect, hrest⟩⟩

/-- With cycles broken, no shape leads back to itself by unmarked references. -/
theorem not_transGen_holds (m : Model) (name : String) :
    ¬ Relation.TransGen (m.breakCycles.Holds false) name name := by
  intro h
  obtain ⟨edges, hne, hpath, hdirect⟩ := exists_path_of_holds h
  have hcycle : m.Cycle edges := ⟨hne, name, hpath.congr m.target?_breakCycles⟩
  obtain ⟨edge, hmem, hedge⟩ := hcycle.exists_backEdge
  exact hdirect edge hmem (indirect_breakCycles_iff.mpr hedge)

end Model

end WireShapes
