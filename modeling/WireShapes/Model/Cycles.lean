import WireShapes.Model.Basic

/-!
# Cycles of references

`backEdges` walks the model depth first, shapes and their references in declaration order, and lists
the references to a shape on the path to them.  Without those references the model has no cycle.
`breakCycles` marks exactly them as indirect, whatever was marked before.
-/

namespace WireShapes

/-- A reference, by the shape it is in and its slot. -/
structure Edge where
  shape : String
  slot : Slot
deriving DecidableEq

/-- The walk between two references: the shapes left behind, and the back edges met so far. -/
structure Traversal where
  finished : List String
  edges : List Edge
deriving DecidableEq

/-- Follows a reference of a shape whose ancestors are on the path: a target on the path makes it a
back edge, and any other that is not left behind is visited. -/
def Traversal.follow (visit : String → Traversal → Traversal) (path : List String) (name : String)
    (walk : Traversal) (slot : Slot) (target : String) : Traversal :=
  if target ∈ name :: path then { walk with edges := walk.edges ++ [⟨name, slot⟩] }
  else if target ∈ walk.finished then walk
  else visit target walk

/-- Leaves a shape behind. -/
def Traversal.finish (walk : Traversal) (name : String) : Traversal :=
  { walk with finished := name :: walk.finished }

namespace Model

/-- Visits a shape with its ancestors on the path.  `room` bounds the shapes that can still be put
on the path, which holds no shape twice. -/
def explore (m : Model) : (room : Nat) → (path : List String) → String → Traversal → Traversal
  | 0, _, _, walk => walk
  | room + 1, path, name, walk =>
    match m.shape? name with
    | none => walk
    | some shape =>
      let walk := shape.refs.foldl
        (fun walk ref =>
          walk.follow (m.explore room (name :: path)) path name ref.1 ref.2.target) walk
      walk.finish name

/-- The back edges of the model, in the order of the walk. -/
def backEdges (m : Model) : List Edge :=
  let start (walk : Traversal) (name : String) : Traversal :=
    if name ∈ walk.finished then walk else m.explore m.shapes.size [] name walk
  (m.shapes.keys.foldl start ⟨[], []⟩).edges

/-- Changes the reference at an edge; an edge that is not there changes nothing. -/
def modifyRef (m : Model) (edge : Edge) (f : Reference → Reference) : Model :=
  { m with shapes := m.shapes.update edge.shape fun shape =>
      (shape.modifyRef? edge.slot f).getD shape }

/-- Sets the mark of a reference. -/
def setIndirect (indirect : Bool) (ref : Reference) : Reference :=
  { ref with indirect }

/-- Every reference of a shape unmarked. -/
def clearShape (shape : Shape) : Shape :=
  shape.refs.foldl
    (fun shape ref => (shape.modifyRef? ref.1 (setIndirect false)).getD shape) shape

/-- Every reference of the model unmarked. -/
def clearIndirect (m : Model) : Model :=
  { m with shapes := m.shapes.mapValues clearShape }

/-- The model with its back edges, and no other reference, marked as indirect. -/
def breakCycles (m : Model) : Model :=
  m.clearIndirect.backEdges.foldl (fun m edge => m.modifyRef edge (setIndirect true))
    m.clearIndirect

end Model

end WireShapes
