import WireShapes.Bindings.Decoders
import WireShapes.Bindings.Types
import WireShapes.Model.Cycles

/-!
# Generating bindings

Generation first marks the references that close cycles, then resolves every symbol and every
binding, and only then makes declarations; nothing is declared unless all of it succeeds.
-/

namespace WireShapes

namespace Bindings.Context

/-- The declarations for a resolved model, with decoders for some of its shapes. -/
def declarationsFor (ctx : Context) (reached : List String) : Except GenerateError Bindings := do
  ctx.claimTypes
  let types ← ctx.model.shapes.values.filterMapM ctx.typeDecl?
  let errors ← ctx.model.operations.mapM ctx.operationErrorDecl
  let (decoders, functions) ←
    ctx.decodersFor reached (.none "decoders") ctx.model.shapes.values
  let operations ← ctx.operationsFor functions ctx.model.operations
  return { types, errors, decoders, operations }

/-- All declarations for a resolved model. -/
def declarations (ctx : Context) : Except GenerateError Bindings :=
  ctx.declarationsFor (reachable ctx.model)

end Bindings.Context

/-- Resolves the symbols and bindings of a model whose cycles are boxed. -/
def Model.resolved (m : Model) (defaults : Defaults) : Except GenerateError Bindings.Context := do
  let symbols ← SymbolMap.ofModel m
  let bindings ← BindingMap.ofModel m defaults
  return ⟨m, symbols, bindings, defaults⟩

/-- The bindings of a model under protocol settings. -/
def Model.bindings (m : Model) (defaults : Defaults) : Except GenerateError Bindings := do
  let ctx ← m.breakCycles.resolved defaults
  ctx.declarations

end WireShapes
