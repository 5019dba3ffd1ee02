import WireShapes.Model.Shape
import WireShapes.Model.Table

/-!
# Models

A model is a table of shapes by name and a list of operations.  The ten scalar shapes, the prelude,
stand first in every model; a declaration under a prelude name replaces the scalar in its place.
`merge` moves one model into another: prelude shapes that both hold are shared, any other common
name is a conflict, and what came before the conflict has been moved.
-/

namespace WireShapes

open Scalar (Kind)

/-- The shape graph and the operations that decoding starts from. -/
structure Model where
  shapes : Table String Shape
  operations : List Operation
deriving DecidableEq

namespace Model

/-- The shape that stands for a scalar kind. -/
def preludeShape (kind : Kind) : Shape :=
  { name := kind.name, form := .scalar kind }

/-- The prelude and nothing else. -/
def fresh : Model :=
  { shapes := ⟨Kind.all.map fun kind => (kind.name, preludeShape kind)⟩, operations := [] }

def shape? (m : Model) (name : String) : Option Shape :=
  m.shapes.get? name

/-- Adds a shape, in the place of one with its name if there is one. -/
def insert (m : Model) (shape : Shape) : Model :=
  { m with shapes := m.shapes.insert shape.name shape }

def addOperation (m : Model) (op : Operation) : Model :=
  { m with operations := m.operations ++ [op] }

/-- The model of shapes and operations given in order. -/
def ofShapes (shapes : List Shape) (operations : List Operation) : Model :=
  { shapes.foldl insert fresh with operations }

/-- Whether a name is one of the prelude's. -/
def inPrelude (name : String) : Bool :=
  (Kind.ofName? name).isSome

/-- Moves shapes into a model up to the first conflict, whose name is given. -/
def absorb (m : Model) : List (String × Shape) → Model × Option String
  | [] => (m, none)
  | (name, shape) :: rest =>
    if inPrelude name ∧ m.shapes.get? name = some shape then absorb m rest
    else if (m.shapes.get? name).isSome then (m, some name)
    else absorb { m with shapes := m.shapes.insert name shape } rest

/-- Moves another model into this one.  After a conflict the operations stay as they were. -/
def merge (m other : Model) : Model × Option String :=
  match m.absorb other.shapes.entries with
  | (moved, none) => ({ moved with operations := moved.operations ++ other.operations }, none)
  | (moved, some name) => (moved, some name)

end Model

end WireShapes
