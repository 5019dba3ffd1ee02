import WireShapes.Proofs.Slots
import WireShapes.Proofs.Table

/-!
# References and where they are found

Which references a shape of each form lists, and the one that a slot finds.  For a model,
`Model.refAt?` finds the reference at an edge; what changing and clearing do to a model is said by
what they do to it.
-/

namespace WireShapes

/-! ## References of a shape -/

namespace Shape

/-- A member's reference is one of its shape. -/
theorem exists_slot_of_mem_members {shape : Shape} {member : Member}
    (h : member ∈ shape.members) : ∃ slot, (slot, member.target) ∈ shape.refs := by
  obtain ⟨index, hindex⟩ := List.mem_iff_getElem?.mp h
  refine ⟨.member index, mem_refs_iff_holds.mpr ?_⟩
  unfold members at hindex
  split at hindex
  next hform =>
    rw [hform]
    exact .structMember hindex
  next hform =>
    rw [hform]
    exact .unionMember hindex
  next => cases hindex

theorem item_mem_refs {shape : Shape} {item : Item} (h : shape.form = .list item) :
    (.item, item.target) ∈ shape.refs := by
  simp [refs, h]

theorem key_mem_refs {shape : Shape} {key value : Item} (h : shape.form = .map key value) :
    (.key, key.target) ∈ shape.refs := by
  simp [refs, h]

theorem value_mem_refs {shape : Shape} {key value : Item} (h : shape.form = .map key value) :
    (.value, value.target) ∈ shape.refs := by
  simp [refs, h]

theorem members_of_struct {shape : Shape} {members : List Member}
    (h : shape.form = .struct members) : shape.members = members := by
  simp [Shape.members, h]

theorem members_of_union {shape : Shape} {members : List Member}
    (h : shape.form = .union members) : shape.members = members := by
  simp [Shape.members, h]

/-- A reference is listed exactly when its slot finds it. -/
theorem mem_refs_iff {shape : Shape} {slot : Slot} {ref : Reference} :
    (slot, ref) ∈ shape.refs ↔ shape.ref? slot = some ref := by
  exact (Table.lookup_eq_some_iff_mem shape.refs_nodup).symm

theorem ref?_mapRefs (f : Slot → Reference → Reference) (shape : Shape) (slot : Slot) :
    (shape.mapRefs f).ref? slot = (shape.ref? slot).map (f slot) := by
  rw [ref?, refs_mapRefs, Table.lookup_map_entries, ref?]

end Shape

/-! ## References of a model -/

namespace Model

/-- The reference at an edge. -/
def refAt? (m : Model) (edge : Edge) : Option Reference :=
  (m.shape? edge.shape).bind fun shape ↦ shape.ref? edge.slot

theorem refAt?_mapRefs (f : Edge → Reference → Reference) (m : Model) (edge : Edge) :
    (m.mapRefs f).refAt? edge = (m.refAt? edge).map (f edge) := by
  have hshape : (m.mapRefs f).shape? edge.shape =
      (m.shape? edge.shape).map (Shape.mapRefs fun slot ↦ f ⟨edge.shape, slot⟩) :=
    Table.lookup_map_entries (fun name ↦ Shape.mapRefs fun slot ↦ f ⟨name, slot⟩) _ _
  rw [refAt?, refAt?, hshape]
  cases m.shape? edge.shape with
  | none => rfl
  | some shape => exact Shape.ref?_mapRefs _ shape edge.slot

/-- Changing the reference at an edge leaves every other reference as it is. -/
theorem refAt?_modifyRef (m : Model) (edge other : Edge) (f : Reference → Reference) :
    (m.modifyRef edge f).refAt? other =
      if other = edge then (m.refAt? other).map f else m.refAt? other := by
  rw [modifyRef_eq_mapRefs, refAt?_mapRefs]
  by_cases h : other = edge
  · simp [h]
  · simp [h]

/-- Clearing a shape clears the mark of each of its references. -/
theorem refs_clearShape (shape : Shape) :
    (clearShape shape).refs = shape.refs.map fun ref ↦ (ref.1, setIndirect false ref.2) := by
  rw [clearShape_eq_modifyEach, Shape.modifyEach_refs, Shape.refs_mapRefs]

end Model

end WireShapes
