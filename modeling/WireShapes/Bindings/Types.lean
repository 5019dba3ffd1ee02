import WireShapes.Bindings.Context

/-!
# Types for shapes

Every structure gets a type and a builder, every union and enumeration a type with a variant for
what the model does not know, and every operation an enumeration of its errors.  Identifiers that
would clash are refused.
-/

namespace WireShapes.Bindings

open Code (Ident)

namespace Context

/-- Claims the identifiers of all types of a model. -/
def claimTypes (ctx : Context) : Except GenerateError Unit := do
  let claimShape (claims : Claims) (shape : Shape) : Except GenerateError Claims :=
    match shape.form with
    | .struct _ =>
      claims.claimAll [Code.camelIdent shape.name, Code.builderTypeIdent shape.name] shape.name
    | .union _ | .enum _ => claims.claim (Code.camelIdent shape.name) shape.name
    | _ => .ok claims
  let claims ← ctx.model.shapes.values.foldlM claimShape (.none "model")
  let _ ← ctx.model.operations.foldlM
    (fun claims op => claims.claim (Code.errorTypeIdent op.name) op.name) claims

/-- The method that adds to a member which targets a collection, if it does. -/
def adder? (ctx : Context) (owner : Shape) (member : Member) (methods : Claims) :
    Except GenerateError (Option Adder × Claims) := do
  let target ← ctx.targetOf owner member.target
  match target.form with
  | .list item => do
    let method := Code.functionIdent "push_" member.name ""
    let methods ← methods.claim method member.name
    return (some (.push method (← ctx.typeAt target item.target)), methods)
  | .map key value => do
    let method := Code.functionIdent "insert_" member.name ""
    let methods ← methods.claim method member.name
    let key ← ctx.typeAt target key.target
    let value ← ctx.typeAt target value.target
    return (some (.insert method key value), methods)
  | _ => return (none, methods)

/-- The fields for members; `methods` are those of the builder so far. -/
def fields (ctx : Context) (owner : Shape) (methods : Claims) :
    List Member → Except GenerateError (List Field)
  | [] => .ok []
  | member :: rest => do
    let ident := Code.snakeIdent member.name
    let setter := Code.functionIdent "set_" member.name ""
    let getter := Code.functionIdent "get_" member.name ""
    let methods ← methods.claimAll [ident, setter, getter] member.name
    let type ← ctx.typeAt owner member.target
    let (adder, methods) ← ctx.adder? owner member methods
    let field := {
      member := member.name, doc := member.doc, required := member.required
      ident, setter, getter, type, adder }
    return field :: (← fields ctx owner methods rest)

/-- Whether a member holds the message of a failure: a string under that name, held directly. -/
def holdsMessage (ctx : Context) (owner : Shape) (member : Member) : Except GenerateError Bool := do
  let target ← ctx.targetOf owner member.target
  return member.name.map Char.toLower == "message" && target.form == .scalar .string &&
    !member.target.indirect

/-- The field of the first member that holds a message. -/
def messageField? (ctx : Context) (owner : Shape) :
    List (Member × Field) → Except GenerateError (Option Field)
  | [] => .ok none
  | (member, field) :: rest => do
    if ← ctx.holdsMessage owner member then return some field
    else messageField? ctx owner rest

/-- The declaration of a structure. -/
def structDecl (ctx : Context) (shape : Shape) (members : List Member) :
    Except GenerateError StructDecl := do
  let methods ← (Claims.none shape.name).claim (Ident.ofText "build") "build"
  let fields ← ctx.fields shape methods members
  let display ← if ctx.describesFailure shape then
      (fun message => some ⟨message⟩) <$> ctx.messageField? shape (members.zip fields)
    else pure none
  return {
    shape := shape.name, doc := shape.doc
    ident := Code.camelIdent shape.name, builder := Code.builderTypeIdent shape.name
    fields, display }

/-- The variants for members; `variants` and `methods` are those so far. -/
def unionCases (ctx : Context) (shape : Shape) (variants methods : Claims) :
    List Member → Except GenerateError (List UnionCase)
  | [] => .ok []
  | member :: rest => do
    let variant ← variantIdent shape member.name
    let variants ← variants.claim variant member.name
    let asMethod := Code.functionIdent "as_" member.name ""
    let isMethod := Code.functionIdent "is_" member.name ""
    let methods ← methods.claimAll [asMethod, isMethod] member.name
    let type ← ctx.typeAt shape member.target
    let case := { member := member.name, doc := member.doc, variant, asMethod, isMethod, type }
    return case :: (← unionCases ctx shape variants methods rest)

/-- The declaration of a union. -/
def unionDecl (ctx : Context) (shape : Shape) (members : List Member) :
    Except GenerateError UnionDecl := do
  let methods ← (Claims.none shape.name).claim (Ident.ofText "is_unknown") "Unknown"
  let cases ← ctx.unionCases shape (.none shape.name) methods members
  return { shape := shape.name, doc := shape.doc, ident := Code.camelIdent shape.name, cases }

end Context

/-- The variants for values; `variants` are those so far. -/
def enumCases (shape : Shape) (variants : Claims) :
    List EnumValue → Except GenerateError (List EnumCase)
  | [] => .ok []
  | value :: rest => do
    let variant ← variantIdent shape value.name
    let variants ← variants.claim variant value.name
    let case := { name := value.name, doc := value.doc, variant, literal := value.wireText }
    return case :: (← enumCases shape variants rest)

/-- The declaration of an enumeration. -/
def enumDecl (shape : Shape) (values : List EnumValue) : Except GenerateError EnumDecl := do
  let cases ← enumCases shape (.none shape.name) values
  return { shape := shape.name, doc := shape.doc, ident := Code.camelIdent shape.name, cases }

namespace Context

/-- The declaration of a shape's type; scalars and collections have none. -/
def typeDecl? (ctx : Context) (shape : Shape) : Except GenerateError (Option TypeDecl) :=
  match shape.form with
  | .struct members => (fun decl => some (.struct decl)) <$> ctx.structDecl shape members
  | .union members => (fun decl => some (.union decl)) <$> ctx.unionDecl shape members
  | .enum values => (fun decl => some (.enum decl)) <$> enumDecl shape values
  | .scalar _ | .list _ | .map _ _ => .ok none

/-- The variants for error structures; `variants` are those so far. -/
def errorCases (variants : Claims) : List Shape → Except GenerateError (List ErrorCase)
  | [] => .ok []
  | shape :: rest => do
    let variant := Code.camelIdent shape.name
    let variants ← variants.claim variant shape.name
    let case := { shape := shape.name, variant, type := .named (Code.camelName shape.name) }
    return case :: (← errorCases variants rest)

/-- The declaration of an operation's errors. -/
def operationErrorDecl (ctx : Context) (op : Operation) :
    Except GenerateError OperationErrorDecl := do
  let variants ← (Claims.none op.name).claim (Ident.ofText "Unhandled") "Unhandled"
  let cases ← errorCases variants (← ctx.errorShapes op)
  return { operation := op.name, ident := Code.errorTypeIdent op.name, cases }

end Context

end WireShapes.Bindings
