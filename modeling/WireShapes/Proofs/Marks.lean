import WireShapes.Bindings.OfModel
import WireShapes.Proofs.Keyed

/-!
# Marks from before

Breaking cycles starts by clearing every mark, and a mark that is cleared leaves no trace: what is
left of a model is the model with all references unmarked, whichever they were.  So models that
differ in marks alone come out the same, breaking cycles a second time changes nothing, and neither
does any mark change what is generated.
-/

namespace WireShapes

namespace Model

variable {m other : Model}

/-- A model with all its references unmarked. -/
def unmarked (m : Model) : Model :=
  { m with shapes := m.shapes.mapValues Shape.unmarked }

/-- Clearing the references of every shape slot by slot reaches them all. -/
theorem clearIndirect_eq_unmarked (m : Model) : m.clearIndirect = m.unmarked := by
  have hclear : clearShape = Shape.unmarked := by
    funext shape
    rw [clearShape_eq_modifyEach, Shape.modifyEach_refs, Shape.unmarked_eq_mapRefs]
  rw [clearIndirect, unmarked, hclear]

theorem unmarked_breakCycles (m : Model) : m.breakCycles.unmarked = m.unmarked := by
  have hshapes : m.breakCycles.shapes.mapValues Shape.unmarked =
      m.shapes.mapValues Shape.unmarked := congrArg Table.mk (outline_breakCycles m)
  rw [unmarked, unmarked, hshapes, operations_breakCycles]

/-- Models that differ in marks alone are the same with their cycles broken. -/
theorem breakCycles_congr (h : other.unmarked = m.unmarked) :
    other.breakCycles = m.breakCycles := by
  unfold breakCycles
  rw [clearIndirect_eq_unmarked, clearIndirect_eq_unmarked, h]

/-- Whatever marks a model has, breaking its cycles and generating its bindings do not see them;
breaking cycles changes marks alone, and doing it again changes nothing. -/
theorem breakCycles_forgets_marks (m : Model) :
    (∀ other : Model, other.unmarked = m.unmarked →
      other.breakCycles = m.breakCycles ∧
      ∀ defaults, other.bindings defaults = m.bindings defaults) ∧
    m.breakCycles.unmarked = m.unmarked ∧
    m.breakCycles.breakCycles = m.breakCycles := by
  refine ⟨fun other h ↦ ?_, unmarked_breakCycles m, breakCycles_congr (unmarked_breakCycles m)⟩
  have hsame := breakCycles_congr h
  refine ⟨hsame, fun defaults ↦ ?_⟩
  rw [bindings, bindings, hsame]

/-! ### A ring of nodes -/

/-- Nodes that refer to themselves, directly and by a map, marked one way or the other. -/
def ringModel (direct through : Bool) : Model := .ofShapes [
  { name := "Node", form := .struct [
    { name := "next", target := ⟨"Node", direct⟩ }, { name := "named", target := .to "Nodes" }] },
  { name := "Nodes", form := .map { target := .to "String" } { target := ⟨"Node", through⟩ } }] []

/-- However the ring was marked, it is marked in the same way then. -/
theorem ring_marks_forgotten :
    (ringModel true false).unmarked = (ringModel false true).unmarked ∧
    ringModel true false ≠ ringModel false true ∧
    (ringModel true false).breakCycles = (ringModel false true).breakCycles ∧
    (ringModel false true).breakCycles = ringModel true true := by
  have hsame : (ringModel true false).unmarked = (ringModel false true).unmarked := by
    decide +kernel
  exact ⟨hsame, by decide +kernel,
    ((breakCycles_forgets_marks (ringModel false true)).1 _ hsame).1, by decide +kernel⟩

end Model

end WireShapes
