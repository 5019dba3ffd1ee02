import WireShapes.Bindings.Context

/-!
# Decoders for shapes

Every structure, union, list and map that an operation can reach gets a decoder, and every operation
its entry points.  Without operations the whole model is reached.
-/

namespace WireShapes.Bindings

open Code (Ident)

/-- The shapes of a model that have not been reached yet. -/
def unreached (m : Model) (seen : List String) : List String :=
  m.shapes.keys.filter fun name => !seen.contains name

theorem unreached_length_lt {m : Model} {seen : List String} {name : String}
    (known : name ∈ m.shapes.keys) (new : name ∉ seen) :
    (unreached m (name :: seen)).length < (unreached m seen).length := by
  have sub : unreached m (name :: seen) = (unreached m seen).filter fun n => n != name := by
    simp only [unreached, List.filter_filter]
    congr 1
    funext other
    by_cases same : other = name <;> simp [same]
  rw [sub]
  have member : name ∈ unreached m seen := by simp [unreached, known, new]
  refine Nat.lt_of_le_of_ne (List.length_filter_le _ _) fun equal => ?_
  have := List.length_filter_eq_length_iff.mp equal name member
  simp at this

theorem shape_mem_keys {m : Model} {name : String} {shape : Shape}
    (found : m.shape? name = some shape) : name ∈ m.shapes.keys := by
  unfold Model.shape? Table.get? at found
  have := List.lookup_eq_some_iff.mp found
  obtain ⟨before, after, equal, _⟩ := this
  simp [Table.keys, equal]

/-- Follows references from the shapes still to be looked at. -/
def reachFrom (m : Model) (seen : List String) : List String → List String
  | [] => seen
  | name :: pending =>
    if _new : name ∈ seen then reachFrom m seen pending
    else match _found : m.shape? name with
      | none => reachFrom m (name :: seen) pending
      | some shape =>
        reachFrom m (name :: seen) ((shape.refs.map fun ref => ref.2.target) ++ pending)
termination_by pending => ((unreached m seen).length, pending.length)
decreasing_by
  · exact Prod.Lex.right _ (Nat.lt_succ_self _)
  · by_cases known : name ∈ m.shapes.keys
    · exact Prod.Lex.left _ _ (unreached_length_lt known _new)
    · have same : unreached m (name :: seen) = unreached m seen := by
        refine List.filter_congr fun other member => ?_
        have : other ≠ name := fun equal => known (equal ▸ member)
        simp [this]
      rw [same]
      exact Prod.Lex.right _ (Nat.lt_succ_self _)
  · exact Prod.Lex.left _ _ (unreached_length_lt (shape_mem_keys _found) _new)

/-- The shapes that decoders are needed for. -/
def reachable (m : Model) : List String :=
  if m.operations.isEmpty then m.shapes.keys
  else reachFrom m [] (m.operations.flatMap Operation.roots)

namespace Context

/-- How an element is read as a value of a reference of `owner`. -/
def elementSource (ctx : Context) (owner : Shape) (ref : Reference) :
    Except GenerateError (Boxing Source) := do
  let shape ← ctx.targetOf owner ref
  let source : Source := match shape.form with
    | .scalar .string => .text .string
    | .scalar kind => .text (.scalar kind)
    | .enum _ => .text (.enum (Code.camelIdent shape.name))
    | .struct _ => .struct (decoderIdent shape.name) (Code.camelIdent shape.name)
    | .union _ | .list _ | .map _ _ => .shape (decoderIdent shape.name)
  return ⟨source, ref.indirect⟩

/-- How the text of an attribute is read as a value of a reference of `owner`. -/
def attributeSource (ctx : Context) (owner : Shape) (ref : Reference) :
    Except GenerateError (Boxing TextSource) := do
  match ← ctx.elementSource owner ref with
  | ⟨.text source, boxed⟩ => return ⟨source, boxed⟩
  | _ => throw (.invalidAttribute owner.name ref.target attributeTargetReason)

/-- How the text of a map key is read as a value of a reference of `owner`. -/
def keySource (ctx : Context) (owner : Shape) (ref : Reference) :
    Except GenerateError (Boxing TextSource) := do
  match ← ctx.elementSource owner ref with
  | ⟨.text source, boxed⟩ => return ⟨source, boxed⟩
  | _ => throw (.invalidMapKey owner.name ref.target)

/-- The arms for the members of a structure: those for attributes, and those for children. -/
def structArms (ctx : Context) (owner : Shape) :
    List Member → Except GenerateError (List AttributeArm × List StructArm)
  | [] => .ok ([], [])
  | member :: rest => do
    let binding ← ctx.binding owner member
    let pattern := binding.name.toText
    let setter := Code.functionIdent "set_" member.name ""
    match binding.placement with
    | .attribute => do
      let value ← ctx.attributeSource owner member.target
      let (attributes, arms) ← structArms ctx owner rest
      return ({ pattern, member := member.name, setter, value } :: attributes, arms)
    | .element => do
      let value ← ctx.elementSource owner member.target
      let (attributes, arms) ← structArms ctx owner rest
      return (attributes, { pattern, member := member.name, action := .set setter value } :: arms)
    | .flattened => do
      let target ← ctx.targetOf owner member.target
      let action : StructAction ← match target.form with
        | .list item => do
          let value ← ctx.elementSource target item.target
          pure (.push (Code.functionIdent "push_" member.name "") value)
        | .map _ _ =>
          .ok (.insert (Code.functionIdent "insert_" member.name "") (entryIdent target.name))
        | _ => .error (.invalidFlattening owner.name member.name target.name)
      let (attributes, arms) ← structArms ctx owner rest
      return (attributes, { pattern, member := member.name, action } :: arms)

def structDecoder (ctx : Context) (shape : Shape) (members : List Member) :
    Except GenerateError StructDecoder := do
  let (attributes, arms) ← ctx.structArms shape members
  return {
    shape := shape.name, ident := decoderIdent shape.name
    builder := Code.builderTypeIdent shape.name, attributes, arms }

/-- The arm for a member of a union. -/
def unionArm (ctx : Context) (owner : Shape) (member : Member) :
    Except GenerateError UnionArm := do
  let binding ← ctx.binding owner member
  let action : UnionAction ← match binding.placement with
    | .attribute => .error (.invalidAttribute owner.name member.name unionAttributeReason)
    | .element => do pure (.set (← ctx.elementSource owner member.target))
    | .flattened => do
      let target ← ctx.targetOf owner member.target
      match target.form with
      | .list item => do pure (.push (← ctx.elementSource target item.target))
      | .map _ _ => .ok (.insert (entryIdent target.name))
      | _ => .error (.invalidFlattening owner.name member.name target.name)
  return {
    pattern := binding.name.toText, member := member.name
    variant := Code.camelIdent member.name, action }

def unionDecoder (ctx : Context) (shape : Shape) (members : List Member) :
    Except GenerateError UnionDecoder := do
  let arms ← members.mapM (ctx.unionArm shape)
  return {
    shape := shape.name, ident := decoderIdent shape.name
    type := Code.camelIdent shape.name, arms }

/-- The decoder of a list whose names are resolved. -/
def listDecoder? (ctx : Context) (shape : Shape) (item : Item) :
    Except GenerateError (Option ListDecoder) :=
  match ctx.bindings.collection? shape.name with
  | some (.list name) => do
    let type ← ctx.typeOf shape
    let value ← ctx.elementSource shape item.target
    return some {
      shape := shape.name, ident := decoderIdent shape.name
      type, pattern := name.toText, item := value }
  | _ => .ok none

/-- The decoders of a map whose names are resolved. -/
def mapDecoder? (ctx : Context) (shape : Shape) (key value : Item) :
    Except GenerateError (Option MapDecoder) :=
  match ctx.bindings.collection? shape.name with
  | some (.map entryName keyName valueName) => do
    let type ← ctx.typeOf shape
    let keyType ← ctx.typeAt shape key.target
    let valueType ← ctx.typeAt shape value.target
    let keySource ← ctx.keySource shape key.target
    let valueValue ← ctx.elementSource shape value.target
    return some {
      shape := shape.name, ident := decoderIdent shape.name, entryIdent := entryIdent shape.name
      type, keyType, valueType
      entryPattern := entryName.toText, keyPattern := keyName.toText
      valuePattern := valueName.toText
      key := keySource, value := valueValue }
  | _ => .ok none

/-- The decoder of a shape, with its functions claimed; scalars and enumerations have none. -/
def decoder? (ctx : Context) (functions : Claims) (shape : Shape) :
    Except GenerateError (Option DecoderDecl × Claims) :=
  let claimed := functions.claim (decoderIdent shape.name) shape.name
  match shape.form with
  | .struct members => do
    let functions ← claimed
    return (some (.struct (← ctx.structDecoder shape members)), functions)
  | .union members => do
    let functions ← claimed
    return (some (.union (← ctx.unionDecoder shape members)), functions)
  | .list item => do
    let functions ← claimed
    return ((← ctx.listDecoder? shape item).map .list, functions)
  | .map key value => do
    let functions ← claimed
    let functions ← functions.claim (entryIdent shape.name) shape.name
    return ((← ctx.mapDecoder? shape key value).map .map, functions)
  | .scalar _ | .enum _ => .ok (none, functions)

/-- The decoders of shapes in order. -/
def decodersFor (ctx : Context) (reached : List String) (functions : Claims) :
    List Shape → Except GenerateError (List DecoderDecl × Claims)
  | [] => .ok ([], functions)
  | shape :: rest =>
    if reached.contains shape.name then do
      let (decoder, functions) ← ctx.decoder? functions shape
      let (decoders, functions) ← decodersFor ctx reached functions rest
      return (decoder.toList ++ decoders, functions)
    else decodersFor ctx reached functions rest

/-- The entry point for an operation's input. -/
def inputDecl (ctx : Context) (op : Operation) (input : String) (functions : Claims) :
    Except GenerateError (InputDecl × Claims) := do
  let shape ← ctx.structNamed op input
  let ident := Code.functionIdent "parse_" op.name "_input"
  let functions ← functions.claim ident op.name
  let decl := {
    ident, type := Code.camelIdent shape.name, decoder := decoderIdent shape.name
    root := (shape.documentName ctx.defaults).toText }
  return (decl, functions)

/-- Where the output of an operation is. -/
def outputPlace (ctx : Context) (op : Operation) (shape : Shape) : OutputPlace :=
  match ctx.defaults.envelope with
  | .bare => .root (shape.documentName ctx.defaults).toText
  | .wrapped => .result (op.name ++ "Response") (op.name ++ "Result")

/-- The entry point for an operation's output. -/
def outputDecl (ctx : Context) (op : Operation) (output : String) (functions : Claims) :
    Except GenerateError (OutputDecl × Claims) := do
  let shape ← ctx.structNamed op output
  let ident := Code.functionIdent "parse_" op.name "_output"
  let functions ← functions.claim ident op.name
  let decl := {
    ident, type := Code.camelIdent shape.name, decoder := decoderIdent shape.name
    place := ctx.outputPlace op shape }
  return (decl, functions)

/-- The case for an error structure. -/
def codeCase (shape : Shape) : CodeCase :=
  { code := shape.outerName, shape := shape.name
    variant := Code.camelIdent shape.name, type := Code.camelIdent shape.name
    decoder := decoderIdent shape.name }

/-- The entry point for an operation's errors. -/
def failureDecl (ctx : Context) (op : Operation) (functions : Claims) :
    Except GenerateError (FailureDecl × Claims) := do
  let ident := Code.functionIdent "parse_" op.name "_error"
  let functions ← functions.claim ident op.name
  let shapes ← ctx.errorShapes op
  let decl := {
    ident, type := Code.errorTypeIdent op.name
    wrapped := ctx.defaults.errorWrapping, cases := shapes.map codeCase }
  return (decl, functions)

/-- An entry point for an optional part of an operation. -/
def optional {α : Type} (part : Option String)
    (declare : String → Claims → Except GenerateError (α × Claims)) (functions : Claims) :
    Except GenerateError (Option α × Claims) :=
  match part with
  | none => .ok (none, functions)
  | some name => (fun (decl, functions) => (some decl, functions)) <$> declare name functions

/-- The entry points of an operation. -/
def operationDecl (ctx : Context) (op : Operation) (functions : Claims) :
    Except GenerateError (OperationDecl × Claims) := do
  let (input, functions) ← optional op.input (ctx.inputDecl op) functions
  let (output, functions) ← optional op.output (ctx.outputDecl op) functions
  let (failure, functions) ← ctx.failureDecl op functions
  return ({ operation := op.name, input, output, failure }, functions)

/-- The entry points of operations in order. -/
def operationsFor (ctx : Context) (functions : Claims) :
    List Operation → Except GenerateError (List OperationDecl)
  | [] => .ok []
  | op :: rest => do
    let (decl, functions) ← ctx.operationDecl op functions
    return decl :: (← operationsFor ctx functions rest)

end Context

end WireShapes.Bindings
