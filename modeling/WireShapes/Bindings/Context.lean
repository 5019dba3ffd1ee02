import WireShapes.Bindings.Declaration
import WireShapes.Model.Binding
import WireShapes.Model.Symbol

/-!
# What declarations are made from

Declarations are made from a model whose symbols and bindings have been resolved.  Identifiers are
claimed one by one within their scope, so that no two things in it get the same one.
-/

namespace WireShapes.Bindings

open Code (Ident)

/-- A model with everything that was resolved about it. -/
structure Context where
  model : Model
  symbols : SymbolMap
  bindings : BindingMap
  defaults : Defaults

namespace Context

/-- The error of a reference that leads nowhere. -/
def unknownTarget (owner : Shape) (ref : Reference) : GenerateError :=
  .unknownShape owner.name ref.target

/-- The shape that a reference of `owner` leads to. -/
def targetOf (ctx : Context) (owner : Shape) (ref : Reference) : Except GenerateError Shape :=
  match ctx.model.shape? ref.target with
  | some shape => .ok shape
  | none => .error (unknownTarget owner ref)

/-- The type of a reference of `owner`. -/
def typeAt (ctx : Context) (owner : Shape) (ref : Reference) :
    Except GenerateError TypeExpr :=
  match ctx.symbols.reference? ref with
  | some symbol => .ok symbol.type
  | none => .error (unknownTarget owner ref)

/-- The type of a shape. -/
def typeOf (ctx : Context) (shape : Shape) : Except GenerateError TypeExpr :=
  match ctx.symbols.shape? shape.name with
  | some symbol => .ok symbol.type
  | none => .error (.unknownShape shape.name shape.name)

/-- The binding of a member of `owner`. -/
def binding (ctx : Context) (owner : Shape) (member : Member) : Except GenerateError Binding :=
  match ctx.bindings.member? owner.name member.name with
  | some binding => .ok binding
  | none => .error (unknownTarget owner member.target)

/-- The structure that an operation names. -/
def structNamed (ctx : Context) (op : Operation) (name : String) : Except GenerateError Shape :=
  match ctx.model.shape? name with
  | some shape =>
    match shape.form with
    | .struct _ => .ok shape
    | _ => .error (.invalidOperationShape op.name name)
  | none => .error (.invalidOperationShape op.name name)

/-- Adds the error structures that names stand for, each where it is first named. -/
def addErrors (ctx : Context) (op : Operation) (found : List Shape) :
    List String → Except GenerateError (List Shape)
  | [] => .ok found
  | name :: rest => do
    let shape ← ctx.structNamed op name
    if found.any fun other => other.name == shape.name then addErrors ctx op found rest
    else addErrors ctx op (found ++ [shape]) rest

/-- The error structures of an operation. -/
def errorShapes (ctx : Context) (op : Operation) : Except GenerateError (List Shape) :=
  ctx.addErrors op [] op.errors

/-- Flagged as an error, or named as one by an operation. -/
def describesFailure (ctx : Context) (shape : Shape) : Bool :=
  shape.isError || ctx.model.operations.any fun op => op.errors.contains shape.name

end Context

/-- The identifiers of a scope, each with what it belongs to. -/
structure Claims where
  scope : String
  taken : List (String × String)

namespace Claims

def none (scope : String) : Claims := ⟨scope, []⟩

/-- Takes an identifier for an owner, unless it is taken already. -/
def claim (claims : Claims) (ident : Ident) (owner : String) : Except GenerateError Claims :=
  match claims.taken.lookup ident.toText with
  | some other => .error (.duplicateIdent claims.scope owner other ident.toText)
  | .none => .ok { claims with taken := (ident.toText, owner) :: claims.taken }

/-- Takes several identifiers for one owner, in order. -/
def claimAll (claims : Claims) (idents : List Ident) (owner : String) :
    Except GenerateError Claims :=
  idents.foldlM (fun claims ident => claims.claim ident owner) claims

end Claims

/-- The identifier of a variant, which must not be that of the variant for what is unknown. -/
def variantIdent (shape : Shape) (name : String) : Except GenerateError Ident :=
  if Code.camelName name = "Unknown" then .error (.reservedVariant shape.name name)
  else .ok (Code.camelIdent name)

/-- The decoder of a shape. -/
def decoderIdent (shape : String) : Ident := Code.functionIdent "de_" shape ""

/-- The decoder of a map's entries. -/
def entryIdent (shape : String) : Ident := Code.functionIdent "de_" shape "_entry"

end WireShapes.Bindings
