import WireShapes.Code.Ident
import WireShapes.Model.Basic
import WireShapes.Model.GenerateError

/-!
# Symbols

The type of every shape in generated code.  Scalars have fixed types, structures, unions and
enumerations are named types, lists and maps are generic types over the types of their references.
A reference adds a box when it is indirect.  Every shape is resolved once: a `Resolver` keeps the
symbols that it has made, and the collections that it is inside of.  Resolution fails on a reference
to a shape that is not there, and on a cycle that runs through lists and maps alone, since its type
would be infinite.
-/

namespace WireShapes

open Scalar (Kind)

/-- A type in generated code. -/
inductive TypeExpr
  | scalar (kind : Kind)
  | vec (item : TypeExpr)
  | hashMap (key value : TypeExpr)
  /-- A generated structure, union or enumeration. -/
  | named (name : String)
  | boxed (inner : TypeExpr)
deriving DecidableEq

/-- What kind of shape a type stands for. -/
inductive ShapeClass
  | scalar (kind : Kind)
  | collection
  | struct
  | union
  | enum
deriving DecidableEq

structure Symbol where
  type : TypeExpr
  shapeClass : ShapeClass
  isBoxed : Bool := false
deriving DecidableEq

/-- The symbol of a reference, given that of its target. -/
def Symbol.forReference (symbol : Symbol) (indirect : Bool) : Symbol :=
  if indirect then { symbol with type := .boxed symbol.type, isBoxed := true } else symbol

/-- Where resolution stands: the symbols of the shapes that are done, and the collections whose items
are being resolved, innermost first. -/
structure Resolver where
  done : Table String Symbol
  active : List String
deriving DecidableEq

/-- Nothing is resolved yet. -/
def Resolver.fresh : Resolver := ⟨.empty, []⟩

/-- A step of resolution, which keeps the resolver when it fails. -/
abbrev Resolving := EStateM GenerateError Resolver

namespace Resolving

/-- Takes the symbol of a shape that is done, or resolves the shape and adds it to those. -/
def once (name : String) (resolve : Resolving Symbol) : Resolving Symbol := do
  match (← get).done.get? name with
  | some symbol => return symbol
  | none => do
    let symbol ← resolve
    modify fun resolver => { resolver with done := resolver.done.insert name symbol }
    return symbol

/-- Resolves something inside a collection, which must not be active already. -/
def inside {α : Type} (name : String) (resolve : Resolving α) : Resolving α := do
  if name ∈ (← get).active then throw (.anonymousCycle name)
  else do
    modify fun resolver => { resolver with active := name :: resolver.active }
    try resolve
    finally modify fun resolver => { resolver with active := resolver.active.tail }

/-- The type of a reference, by the symbol of its target. -/
def reference (shape : String → Resolving Symbol) (ref : Reference) : Resolving TypeExpr := do
  return ((← shape ref.target).forReference ref.indirect).type

/-- Resolves a shape of some form. -/
def ofForm (shape : String → Resolving Symbol) (name : String) : Form → Resolving Symbol
  | .scalar kind => return ⟨.scalar kind, .scalar kind, false⟩
  | .struct _ => return ⟨.named (Code.camelName name), .struct, false⟩
  | .union _ => return ⟨.named (Code.camelName name), .union, false⟩
  | .enum _ => return ⟨.named (Code.camelName name), .enum, false⟩
  | .list item => do
    let type ← inside name (reference shape item.target)
    return ⟨.vec type, .collection, false⟩
  | .map key value => do
    let (key, value) ← inside name do
      let key ← reference shape key.target
      let value ← reference shape value.target
      return (key, value)
    return ⟨.hashMap key value, .collection, false⟩

end Resolving

namespace Model

open Resolving

/-- Resolves a shape.  `room` bounds how many more collections can become active, as none does
twice. -/
def resolveShape (m : Model) : (room : Nat) → String → Resolving Symbol
  | 0, name => throw (.anonymousCycle name)
  | room + 1, name => once name <|
    match m.shape? name with
    | none => throw (.unknownShape name name)
    | some shape => ofForm (m.resolveShape room) name shape.form

/-- Resolves shapes in order, with one resolver. -/
def resolveShapes (m : Model) : List String → Resolving Unit
  | [] => return ()
  | name :: rest => do
    let _ ← m.resolveShape (m.shapes.size + 1) name
    resolveShapes m rest

/-- The first reference of a shape, in declaration order, to a shape that is not in the model. -/
def unknownTarget? (m : Model) (shape : Shape) : Option String :=
  (shape.refs.map fun ref => ref.2.target).find? fun target => (m.shape? target).isNone

/-- Refuses a model with a reference to a shape that is not in it. -/
def checkReferences (m : Model) : List Shape → Except GenerateError Unit
  | [] => .ok ()
  | shape :: rest =>
    match m.unknownTarget? shape with
    | some target => .error (.unknownShape shape.name target)
    | none => checkReferences m rest

end Model

/-- The symbols of a model's shapes. -/
structure SymbolMap where
  symbols : Table String Symbol

namespace SymbolMap

/-- Resolves every shape of a model. -/
def ofModel (m : Model) : Except GenerateError SymbolMap := do
  m.checkReferences m.shapes.values
  match m.resolveShapes m.shapes.keys .fresh with
  | .ok _ resolver => return ⟨resolver.done⟩
  | .error error _ => throw error

def shape? (t : SymbolMap) (name : String) : Option Symbol :=
  t.symbols.get? name

/-- The symbol of a reference: its target's, boxed when the reference is indirect. -/
def reference? (t : SymbolMap) (ref : Reference) : Option Symbol :=
  (t.shape? ref.target).map fun symbol => symbol.forReference ref.indirect

end SymbolMap

end WireShapes
