import WireShapes.Proofs.CollectionTypes
import WireShapes.Proofs.Resolution

/-!
# Values and the places they go to

Decoders put values into boxes, and types have boxes for them.  The one is decided where the
expression for a value is made, by the reference that it is made for; the other by the types of
symbols, which nest in those of collections.  The main statement (`Bindings.decoders_fill`) goes
through the decoders of generated bindings and compares every value expression with the type of the
place that the value goes to: a field, a variant, the items of a list, the keys and values of a map.
Both have a box or neither has, and under the box the expression is of the type that the code
declares for what is called.
-/

namespace WireShapes

open Code (Ident Ty Expr Decl Part Parameter)

namespace Bindings

/-! ## Types of expressions -/

/-- A value in a box. -/
def boxNew (value : Expr) : Expr := .applyPath (std ["boxed", "Box", "new"]) [value]

/-- The type of a box. -/
def boxOf (type : Ty) : Ty := .path (std ["boxed", "Box"]) [type]

/-- Code declares a function. -/
def HasFn (code : List Decl) (name : Ident) (parameters : List Parameter) (result : Ty) : Prop :=
  ∃ fn, .fn fn ∈ code ∧ fn.name = name.toText ∧ fn.parameters = parameters ∧ fn.result = result

/-- Code implements a function for a type, on its own or as one of a trait. -/
def Implements (code : List Decl) (trait : Option Ty) (type : Ident) (name : String)
    (parameters : List Parameter) (result : Ty) : Prop :=
  ∃ parts fn, .implementation trait (.named type.toText) parts ∈ code ∧ .fn fn ∈ parts ∧
    fn.name = name ∧ fn.parameters = parameters ∧ fn.result = result

/-- The trait of what a text is converted to. -/
def fromText : Ty := .path (std ["convert", "From"]) [EnumDecl.textType]

/-- The type of an expression for a value: that of the library's reader, or the one that the code
declares for what is called. -/
inductive HasType (code : List Decl) : Expr → Ty → Prop
  | elementText : HasType code tagText stringType
  | attributeText : HasType code (.method (.name "value") "to_owned" []) stringType
  | scalar (kind : Scalar.Kind) (text : Expr) : HasType code (readScalar kind text) (kindType kind)
  | converted {type : Ident} (text : Expr)
      (hfrom : Implements code (some fromText) type "from"
        [.typed false "s" EnumDecl.textType] selfType) :
      HasType code (.applyPath (.member type.toText "from") [text]) (.named type.toText)
  | built {decoder builder type : Ident}
      (hfill : HasFn code decoder
        [decoderParameter, .typed true "builder" (.named builder.toText)]
        (decoded (.named builder.toText)))
      (hstart : Implements code none type "builder" [] (.named builder.toText))
      (hfinish : Implements code none builder "build" [.receiver .owned]
        (resultOf (.named type.toText) (.plain (wire ["BuildError"])))) :
      HasType code (Source.struct decoder type).ofElement (.named type.toText)
  | decoded {decoder : Ident} {type : Ty} (h : HasFn code decoder [decoderParameter] (decoded type)) :
      HasType code (Source.shape decoder).ofElement type

/-- A value goes to a place of a type: both have a box, or neither has, just as the reference says,
and what is in the box is of the type that the box is for. -/
structure Fits (code : List Decl) (indirect : Bool) (value : Expr) (type : Ty) : Prop where
  value_boxed : (∃ inner, value = boxNew inner) ↔ indirect = true
  type_boxed : (∃ inner, type = boxOf inner) ↔ indirect = true
  inside : ∃ inner plain, HasType code inner plain ∧
    value = (if indirect then boxNew inner else inner) ∧
    type = if indirect then boxOf plain else plain

end Bindings

/-- A type in a box, if it is referred to indirectly. -/
def TypeExpr.behind (indirect : Bool) (type : TypeExpr) : TypeExpr :=
  if indirect then .boxed type else type

namespace Bindings

/-! ## Places -/

/-- Items go to a list in the place of a member, which is filled where it is: in its box, if the
member's own reference has one. -/
def GathersItems (m : Model) (b : Bindings) (member : Member) (item : Boxing Source)
    (itemType type : TypeExpr) : Prop :=
  ∃ target listItem, m.shape? member.target.target = some target ∧ target.form = .list listItem ∧
    type = (TypeExpr.vec itemType).behind member.target.indirect ∧
    Fits b.code listItem.target.indirect (inBox item Source.ofElement) itemType.tree

/-- Entries go to a map in the place of a member, as the map's own decoder makes them. -/
def GathersEntries (b : Bindings) (member : Member) (entry : Ident) (d : MapDecoder)
    (type : TypeExpr) : Prop :=
  .map d ∈ b.decoders ∧ d.entryIdent = entry ∧
    type = (TypeExpr.hashMap d.keyType d.valueType).behind member.target.indirect

/-- What a child of a structure gives goes to the field of a member. -/
def StructAction.Fills (m : Model) (b : Bindings) (member : Member) (field : Field) :
    StructAction → Prop
  | .set setter value => setter = field.setter ∧
      Fits b.code member.target.indirect (inBox value Source.ofElement) field.type.tree
  | .push method item => ∃ itemType, field.adder = some (.push method itemType) ∧
      GathersItems m b member item itemType field.type
  | .insert method entry => ∃ d, field.adder = some (.insert method d.keyType d.valueType) ∧
      GathersEntries b member entry d field.type

/-- What a child of a union gives goes to the variant of a member. -/
def UnionAction.Fills (m : Model) (b : Bindings) (member : Member) (type : TypeExpr) :
    UnionAction → Prop
  | .set value => Fits b.code member.target.indirect (inBox value Source.ofElement) type.tree
  | .push item => ∃ itemType, GathersItems m b member item itemType type
  | .insert entry => ∃ d, GathersEntries b member entry d type

/-- Whatever the decoder of a shape reads goes to the places of the declared types. -/
def DecoderDecl.Fills (m : Model) (b : Bindings) (shape : Shape) : DecoderDecl → Prop
  | .struct d => ∃ decl, .struct decl ∈ b.types ∧ decl.builder = d.builder ∧
      (∀ arm ∈ d.attributes, ∃ member ∈ shape.members, ∃ field ∈ decl.fields,
        arm.member = member.name ∧ field.member = member.name ∧ arm.setter = field.setter ∧
        Fits b.code member.target.indirect (inBox arm.value TextSource.ofAttribute)
          field.type.tree) ∧
      ∀ arm ∈ d.arms, ∃ member ∈ shape.members, ∃ field ∈ decl.fields,
        arm.member = member.name ∧ field.member = member.name ∧ arm.action.Fills m b member field
  | .union d => ∃ decl, .union decl ∈ b.types ∧ decl.ident = d.type ∧
      ∀ arm ∈ d.arms, ∃ member ∈ shape.members, ∃ case ∈ decl.cases,
        arm.member = member.name ∧ case.member = member.name ∧ arm.variant = case.variant ∧
        arm.action.Fills m b member case.type
  | .list d => ∃ item itemType, shape.form = .list item ∧ d.type = .vec itemType ∧
      Fits b.code item.target.indirect (inBox d.item Source.ofElement) itemType.tree
  | .map d => ∃ key value, shape.form = .map key value ∧
      d.type = .hashMap d.keyType d.valueType ∧
      Fits b.code key.target.indirect (inBox d.key TextSource.ofElement) d.keyType.tree ∧
      Fits b.code value.target.indirect (inBox d.value Source.ofElement) d.valueType.tree

/-! ## Boxes -/

theorem TextSource.ofElement_ne_boxNew (source : TextSource) (inner : Expr) :
    source.ofElement ≠ boxNew inner := by
  cases source <;> simp [TextSource.ofElement, tagText, readScalar, boxNew, Expr.applyPath,
    Expr.apply, Code.Path.member, std, Code.Path.global]

theorem TextSource.ofAttribute_ne_boxNew (source : TextSource) (inner : Expr) :
    source.ofAttribute ≠ boxNew inner := by
  cases source <;> simp [TextSource.ofAttribute, readScalar, boxNew, Expr.applyPath,
    Expr.apply, Code.Path.member, std, Code.Path.global]

theorem Source.ofElement_ne_boxNew (source : Source) (inner : Expr) :
    source.ofElement ≠ boxNew inner := by
  cases source with
  | text source => exact source.ofElement_ne_boxNew inner
  | struct decoder type | shape decoder =>
    simp [Source.ofElement, boxNew, Expr.applyPath, Expr.apply]

/-- A type that is not a box is not written as one. -/
theorem tree_ne_boxOf {type : TypeExpr} (h : ∀ inner, type ≠ .boxed inner) (inner : Ty) :
    type.tree ≠ boxOf inner := by
  cases type with
  | scalar kind => cases kind <;> simp [TypeExpr.tree, kindType, boxOf, Ty.named, Ty.plain, std, wire]
  | vec item => simp [TypeExpr.tree, boxOf, std, Code.Path.global]
  | hashMap key value => simp [TypeExpr.tree, boxOf]
  | named name => simp [TypeExpr.tree, boxOf, Ty.named, Ty.plain]
  | boxed held => exact absurd rfl (h held)

/-- A value and a type without boxes fit, and so they do when both are put into one. -/
theorem fits_inBox {σ : Type} {code : List Decl} {value : Boxing σ} {expr : σ → Expr}
    {type : TypeExpr} (htyped : HasType code (expr value.source) type.tree)
    (hexpr : ∀ inner, expr value.source ≠ boxNew inner) (htype : ∀ inner, type ≠ .boxed inner) :
    Fits code value.boxed (inBox value expr) (type.behind value.boxed).tree := by
  have hvalue : inBox value expr =
      if value.boxed then boxNew (expr value.source) else expr value.source := rfl
  have htree : (type.behind value.boxed).tree =
      if value.boxed then boxOf type.tree else type.tree := by
    cases value.boxed <;> rfl
  refine ⟨?_, ?_, expr value.source, type.tree, htyped, hvalue, htree⟩
  · rw [hvalue]
    cases value.boxed <;> simp [hexpr]
  · rw [htree]
    cases value.boxed <;> simp [tree_ne_boxOf htype]

/-! ## Types of shapes and references -/

/-- The type of a shape, by the types of the references in it. -/
def TypeFor (ctx : Context) (shape : Shape) (type : TypeExpr) : Prop :=
  match shape.form with
  | .scalar kind => type = .scalar kind
  | .list item => ∃ itemType, ctx.typeAt shape item.target = .ok itemType ∧ type = .vec itemType
  | .map key value => ∃ keyType valueType, ctx.typeAt shape key.target = .ok keyType ∧
      ctx.typeAt shape value.target = .ok valueType ∧ type = .hashMap keyType valueType
  | .struct _ | .union _ | .enum _ => type = .named (Code.camelName shape.name)

variable {ctx : Context} {reached : List String} {b : Bindings} {shape owner target : Shape}
  {ref : Reference} {type : TypeExpr}

/-- Only references make boxes. -/
theorem TypeFor.ne_boxed (h : TypeFor ctx shape type) (inner : TypeExpr) :
    type ≠ .boxed inner := by
  unfold TypeFor at h
  split at h
  · simp [h]
  · obtain ⟨itemType, -, rfl⟩ := h
    simp
  · obtain ⟨keyType, valueType, -, -, rfl⟩ := h
    simp
  all_goals simp [h]

namespace Context

theorem typeAt_of_reference? {symbol : Symbol} (h : ctx.symbols.reference? ref = some symbol) :
    ctx.typeAt owner ref = .ok symbol.type := by
  rw [typeAt, h]

section

variable (hkeyed : ctx.model.Keyed) (hsymbols : SymbolMap.ofModel ctx.model = .ok ctx.symbols)

include hkeyed hsymbols

theorem typeFor_of_typeOf (hshape : shape ∈ ctx.model.shapes.values)
    (h : ctx.typeOf shape = .ok type) : TypeFor ctx shape type := by
  obtain ⟨symbol, hsymbol, rfl⟩ := typeOf_ok h
  have hequation := (SymbolMap.solves_ofModel hsymbols).2 shape.name
  rw [hsymbol, hkeyed.shape?_eq_some hshape, Option.bind_some] at hequation
  unfold TypeFor
  cases hform : shape.form with
  | scalar kind | struct members | union members | enum values =>
    rw [hform] at hequation
    obtain rfl := Option.some.inj hequation
    rfl
  | list item =>
    rw [hform] at hequation
    obtain ⟨inner, hinner, heq⟩ := Option.bind_eq_some_iff.mp hequation.symm
    obtain rfl := Option.some.inj heq
    exact ⟨inner.type, typeAt_of_reference? hinner, rfl⟩
  | map key value =>
    rw [hform] at hequation
    obtain ⟨keySymbol, hkey, hrest⟩ := Option.bind_eq_some_iff.mp hequation.symm
    obtain ⟨valueSymbol, hvalue, heq⟩ := Option.bind_eq_some_iff.mp hrest
    obtain rfl := Option.some.inj heq
    exact ⟨keySymbol.type, valueSymbol.type, typeAt_of_reference? hkey,
      typeAt_of_reference? hvalue, rfl⟩

/-- The type of a reference is that of its target, in a box if the reference is indirect. -/
theorem exists_typeOf_of_typeAt (htarget : ctx.model.shape? ref.target = some target)
    (h : ctx.typeAt owner ref = .ok type) :
    ∃ plain, ctx.typeOf target = .ok plain ∧ TypeFor ctx target plain ∧
      type = plain.behind ref.indirect := by
  obtain ⟨symbol, hsymbol, rfl⟩ := typeAt_ok h
  have hname : target.name = ref.target := hkeyed.name_of_shape? htarget
  have hplain : ctx.typeOf target = .ok symbol.type := by rw [typeOf, hname, hsymbol]
  refine ⟨symbol.type, hplain, typeFor_of_typeOf hkeyed hsymbols
    (Model.mem_values_of_shape? htarget) hplain, ?_⟩
  cases ref.indirect <;> rfl

end

end Context

/-! ## What is called is declared -/

/-- The code of a decoder declares the function, and what the function takes and gives. -/
theorem hasFn_of_decoderFn {made : DecoderDecl} (hmade : made ∈ b.decoders)
    {heading : Code.Heading} {name : Ident} {parameters : List Parameter} {result : Ty}
    {body : List Code.Stmt}
    (hdecl : decoderFn heading name parameters result body ∈ made.code) :
    HasFn b.code name (decoderParameter :: parameters) (decoded result) :=
  ⟨_, mem_code_of_mem_decoders hmade hdecl, rfl, rfl, rfl⟩

section Sources

variable (hkeyed : ctx.model.Keyed) (hsymbols : SymbolMap.ofModel ctx.model = .ok ctx.symbols)
  (hbindings : BindingMap.ofModel ctx.model ctx.defaults = .ok ctx.bindings)
  (h : ctx.declarationsFor reached = .ok b) (hshape : shape ∈ ctx.model.shapes.values)

include hkeyed hsymbols h hshape

/-- A text is read as a value of the shape's type, from an element and from an attribute. -/
theorem hasType_text {source : TextSource} (hsource : SourceOf shape (.text source))
    (htype : ctx.typeOf shape = .ok type) :
    HasType b.code source.ofElement type.tree ∧ HasType b.code source.ofAttribute type.tree := by
  have htypeFor := Context.typeFor_of_typeOf hkeyed hsymbols hshape htype
  unfold TypeFor at htypeFor
  cases source with
  | string =>
    rw [show shape.form = .scalar .string from hsource] at htypeFor
    obtain rfl := htypeFor
    exact ⟨.elementText, .attributeText⟩
  | scalar kind =>
    rw [show shape.form = .scalar kind from hsource.2] at htypeFor
    obtain rfl := htypeFor
    exact ⟨.scalar kind _, .scalar kind _⟩
  | enum ident =>
    obtain ⟨⟨values, hform⟩, rfl⟩ := hsource
    rw [hform] at htypeFor
    obtain rfl := htypeFor
    obtain ⟨decl, hdecl, hof⟩ := exists_enum h hshape hform
    have hfrom : Implements b.code (some fromText) (Code.camelIdent shape.name) "from"
        [.typed false "s" EnumDecl.textType] selfType := by
      refine ⟨[decl.fromText], _, mem_code_of_mem_types hdecl ?_, List.mem_singleton_self _,
        rfl, rfl, rfl⟩
      rw [← hof.ident_eq]
      exact List.mem_cons_of_mem _ (List.mem_cons_of_mem _ List.mem_cons_self)
    exact ⟨.converted _ hfrom, .converted _ hfrom⟩

include hbindings

/-- An element is read as a value of the shape's type. -/
theorem hasType_source (hreached : shape.name ∈ reached) {source : Source}
    (hsource : SourceOf shape source) (htype : ctx.typeOf shape = .ok type) :
    HasType b.code source.ofElement type.tree := by
  have htypeFor := Context.typeFor_of_typeOf hkeyed hsymbols hshape htype
  unfold TypeFor at htypeFor
  cases source with
  | text source => exact (hasType_text hkeyed hsymbols h hshape hsource htype).1
  | struct decoder ident =>
    obtain ⟨⟨members, hform⟩, rfl, rfl⟩ := hsource
    rw [hform] at htypeFor
    obtain rfl := htypeFor
    obtain ⟨decl, hdecl, hof⟩ := exists_struct h hshape hform
    have hident : decoderIdent shape.name ∈ decoderFunctions shape := by
      simp [decoderFunctions, hform]
    obtain ⟨made, hmade, hmadeOf⟩ := exists_decoder hkeyed hbindings h hshape hreached hident
    cases made with
    | struct d =>
      obtain ⟨_, -, hd⟩ := hmadeOf
      have hbuilder : d.builder = decl.builder := by rw [hd.builder_eq, hof.builder_eq]
      have hfill : HasFn b.code (decoderIdent shape.name)
          [decoderParameter, .typed true "builder" (.named decl.builder.toText)]
          (decoded (.named decl.builder.toText)) := by
        rw [← hd.ident_eq, ← hbuilder]
        exact hasFn_of_decoderFn hmade List.mem_cons_self
      have hstart : Implements b.code none (Code.camelIdent shape.name) "builder" []
          (.named decl.builder.toText) := by
        rw [← hof.ident_eq]
        exact ⟨[decl.start], _, mem_code_of_mem_types hdecl
          (List.mem_append_left _ (List.mem_cons_of_mem _ List.mem_cons_self)),
          List.mem_singleton_self _, rfl, rfl, rfl⟩
      have hfinish : Implements b.code none decl.builder "build" [.receiver .owned]
          (resultOf (.named (Code.camelIdent shape.name).toText)
            (.plain (wire ["BuildError"]))) := by
        rw [← hof.ident_eq]
        exact ⟨decl.fields.flatMap Field.methods ++ [decl.finish], _,
          mem_code_of_mem_types hdecl (List.mem_append_left _ (by simp [StructDecl.builderType])),
          List.mem_append_right _ (List.mem_singleton_self _), rfl, rfl, rfl⟩
      exact .built hfill hstart hfinish
    | _ => simp [DecoderOf, hform] at hmadeOf
  | shape decoder =>
    obtain ⟨rfl, hform⟩ := hsource
    have hident : decoderIdent shape.name ∈ decoderFunctions shape := by
      rcases hform with ⟨members, hform⟩ | ⟨item, hform⟩ | ⟨key, value, hform⟩ <;>
        simp [decoderFunctions, hform]
    obtain ⟨made, hmade, hof⟩ := exists_decoder hkeyed hbindings h hshape hreached hident
    refine .decoded ?_
    cases made with
    | struct d =>
      obtain ⟨members, hstruct, -⟩ := hof
      rcases hform with ⟨_, hform⟩ | ⟨_, hform⟩ | ⟨_, _, hform⟩ <;> simp [hstruct] at hform
    | union d =>
      obtain ⟨members, hunion, hof⟩ := hof
      rw [hunion] at htypeFor
      obtain rfl := htypeFor
      have htypeIdent : d.type = Ident.ofText (Code.camelName shape.name) := hof.type_eq
      rw [← hof.ident_eq, TypeExpr.tree, ← htypeIdent]
      exact hasFn_of_decoderFn hmade List.mem_cons_self
    | list d =>
      obtain ⟨item, -, hof⟩ := hof
      obtain rfl := Except.ok.inj (htype.symm.trans hof.type_eq)
      rw [← hof.ident_eq]
      exact hasFn_of_decoderFn hmade List.mem_cons_self
    | map d =>
      obtain ⟨key, value, -, hof⟩ := hof
      obtain rfl := Except.ok.inj (htype.symm.trans hof.type_eq)
      rw [← hof.ident_eq]
      exact hasFn_of_decoderFn hmade List.mem_cons_self

end Sources

/-! ## Values fit their places -/

section Places

variable (hkeyed : ctx.model.Keyed) (hsymbols : SymbolMap.ofModel ctx.model = .ok ctx.symbols)
  (hbindings : BindingMap.ofModel ctx.model ctx.defaults = .ok ctx.bindings)
  (h : ctx.declarationsFor reached = .ok b)

include hkeyed hsymbols h

/-- A text that is read for a reference fits the reference's type. -/
theorem fits_text {value : Boxing TextSource} (hreads : Reads ctx ref value.ofText)
    (htype : ctx.typeAt owner ref = .ok type) :
    Fits b.code ref.indirect (inBox value TextSource.ofElement) type.tree ∧
      Fits b.code ref.indirect (inBox value TextSource.ofAttribute) type.tree := by
  obtain ⟨hboxed, target, htarget, hsource⟩ := hreads
  obtain ⟨plain, hplain, htypeFor, rfl⟩ :=
    Context.exists_typeOf_of_typeAt hkeyed hsymbols htarget htype
  obtain ⟨helement, hattribute⟩ := hasType_text hkeyed hsymbols h
    (Model.mem_values_of_shape? htarget) hsource hplain
  rw [← hboxed]
  exact ⟨fits_inBox helement value.source.ofElement_ne_boxNew htypeFor.ne_boxed,
    fits_inBox hattribute value.source.ofAttribute_ne_boxNew htypeFor.ne_boxed⟩

include hbindings

/-- An element that is read for a reference fits the reference's type. -/
theorem fits_element (hreached : ref.target ∈ reached) {value : Boxing Source}
    (hreads : Reads ctx ref value) (htype : ctx.typeAt owner ref = .ok type) :
    Fits b.code ref.indirect (inBox value Source.ofElement) type.tree := by
  obtain ⟨hboxed, target, htarget, hsource⟩ := hreads
  obtain ⟨plain, hplain, htypeFor, rfl⟩ :=
    Context.exists_typeOf_of_typeAt hkeyed hsymbols htarget htype
  have hname : target.name ∈ reached := hkeyed.name_of_shape? htarget ▸ hreached
  have htyped := hasType_source hkeyed hsymbols hbindings h (Model.mem_values_of_shape? htarget)
    hname hsource hplain
  rw [← hboxed]
  exact fits_inBox htyped value.source.ofElement_ne_boxNew htypeFor.ne_boxed

variable {member : Member} (hreached : member.target.target ∈ reached)

include hreached

/-- The items of a flattened list fit, and go to the list that is the member's own type. -/
theorem gathersItems (hreaches : Reaches ctx.model reached)
    (htarget : ctx.model.shape? member.target.target = some target) {item : Item}
    (hform : target.form = .list item) {value : Boxing Source}
    (hreads : Reads ctx item.target value) (htype : ctx.typeAt owner member.target = .ok type)
    {itemType : TypeExpr} (hitem : ctx.typeAt target item.target = .ok itemType) :
    GathersItems ctx.model b member value itemType type := by
  have hname : target.name ∈ reached := hkeyed.name_of_shape? htarget ▸ hreached
  obtain ⟨plain, -, htypeFor, rfl⟩ :=
    Context.exists_typeOf_of_typeAt hkeyed hsymbols htarget htype
  rw [TypeFor, hform] at htypeFor
  obtain ⟨found, hfound, rfl⟩ := htypeFor
  obtain rfl := Except.ok.inj (hfound.symm.trans hitem)
  have hitemReached := hreaches target (Model.mem_values_of_shape? htarget) hname .item item.target
    (Shape.item_mem_refs hform)
  exact ⟨target, item, htarget, hform, rfl,
    fits_element hkeyed hsymbols hbindings h hitemReached hreads hitem⟩

/-- The entries of a flattened map are those that its own decoder makes, and go to the map that is
the member's own type. -/
theorem exists_gathersEntries (htarget : ctx.model.shape? member.target.target = some target)
    {key value : Item} (hform : target.form = .map key value)
    (htype : ctx.typeAt owner member.target = .ok type) :
    ∃ d, GathersEntries b member (entryIdent target.name) d type ∧
      ctx.typeAt target key.target = .ok d.keyType ∧
      ctx.typeAt target value.target = .ok d.valueType := by
  have hvalues := Model.mem_values_of_shape? htarget
  have hname : target.name ∈ reached := hkeyed.name_of_shape? htarget ▸ hreached
  obtain ⟨plain, -, htypeFor, rfl⟩ :=
    Context.exists_typeOf_of_typeAt hkeyed hsymbols htarget htype
  rw [TypeFor, hform] at htypeFor
  obtain ⟨keyType, valueType, hkey, hvalue, rfl⟩ := htypeFor
  have hident : decoderIdent target.name ∈ decoderFunctions target := by
    simp [decoderFunctions, hform]
  obtain ⟨made, hmade, hof⟩ := exists_decoder hkeyed hbindings h hvalues hname hident
  cases made with
  | map d =>
    obtain ⟨key', value', hform', hof⟩ := hof
    obtain ⟨rfl, rfl⟩ : key = key' ∧ value = value' := by simpa [hform] using hform'
    obtain rfl := Except.ok.inj (hkey.symm.trans hof.keyType_eq)
    obtain rfl := Except.ok.inj (hvalue.symm.trans hof.valueType_eq)
    exact ⟨d, ⟨hmade, hof.entry_eq, rfl⟩, hkey, hvalue⟩
  | _ => simp [DecoderOf, hform] at hof

/-- What is done to a builder goes to the field of the member. -/
theorem structAction_fills (hreaches : Reaches ctx.model reached) {field : Field}
    (hfield : FieldOf ctx owner member field) {action : StructAction}
    (haction : ActionOf ctx member action) : action.Fills ctx.model b member field := by
  obtain ⟨target, htarget, hadder⟩ := hfield.adder
  cases action with
  | set setter value =>
    obtain ⟨rfl, hreads⟩ := haction
    exact ⟨hfield.setter_eq.symm,
      fits_element hkeyed hsymbols hbindings h hreached hreads hfield.type_eq⟩
  | push method value =>
    obtain ⟨rfl, found, item, hfound, hform, hreads⟩ := haction
    obtain rfl : target = found := Option.some.inj (htarget.symm.trans hfound)
    rw [hform] at hadder
    obtain ⟨itemType, hitem, hpush⟩ := hadder
    exact ⟨itemType, hpush, gathersItems hkeyed hsymbols hbindings h hreached hreaches hfound hform
      hreads hfield.type_eq hitem⟩
  | insert method entry =>
    obtain ⟨rfl, found, key, value, hfound, hform, rfl⟩ := haction
    obtain rfl : target = found := Option.some.inj (htarget.symm.trans hfound)
    rw [hform] at hadder
    obtain ⟨keyType, valueType, hkey, hvalue, hinsert⟩ := hadder
    obtain ⟨d, hgathers, hkey', hvalue'⟩ := exists_gathersEntries hkeyed hsymbols hbindings h
      hreached hfound hform hfield.type_eq
    obtain rfl := Except.ok.inj (hkey.symm.trans hkey')
    obtain rfl := Except.ok.inj (hvalue.symm.trans hvalue')
    exact ⟨d, hinsert, hgathers⟩

/-- What is done to the value of a union goes to the variant of the member. -/
theorem unionAction_fills (hreaches : Reaches ctx.model reached)
    (htype : ctx.typeAt owner member.target = .ok type) {action : UnionAction}
    (haction : UnionActionOf ctx member action) : action.Fills ctx.model b member type := by
  cases action with
  | set value => exact fits_element hkeyed hsymbols hbindings h hreached haction htype
  | push value =>
    obtain ⟨target, item, htarget, hform, hreads⟩ := haction
    obtain ⟨plain, -, htypeFor, rfl⟩ :=
      Context.exists_typeOf_of_typeAt hkeyed hsymbols htarget htype
    rw [TypeFor, hform] at htypeFor
    obtain ⟨itemType, hitem, rfl⟩ := htypeFor
    exact ⟨itemType, gathersItems hkeyed hsymbols hbindings h hreached hreaches htarget hform
      hreads htype hitem⟩
  | insert entry =>
    obtain ⟨target, key, value, htarget, hform, rfl⟩ := haction
    obtain ⟨d, hgathers, -⟩ := exists_gathersEntries hkeyed hsymbols hbindings h hreached htarget
      hform htype
    exact ⟨d, hgathers⟩

end Places

/-! ## Decoders fill the declared types -/

section Decoders

variable (hkeyed : ctx.model.Keyed) (hsymbols : SymbolMap.ofModel ctx.model = .ok ctx.symbols)
  (hbindings : BindingMap.ofModel ctx.model ctx.defaults = .ok ctx.bindings)
  (h : ctx.declarationsFor reached = .ok b) (hreaches : Reaches ctx.model reached)
  (hshape : shape ∈ ctx.model.shapes.values) (hreached : shape.name ∈ reached)

include hkeyed hsymbols hbindings h hreaches hshape hreached

theorem structDecoder_fills {members : List Member} (hform : shape.form = .struct members)
    {d : StructDecoder} (hof : StructDecoderOf ctx shape members d) :
    (DecoderDecl.struct d).Fills ctx.model b shape := by
  have hmembers := Shape.members_of_struct hform
  obtain ⟨decl, hdecl, hdeclOf⟩ := exists_struct h hshape hform
  refine ⟨decl, hdecl, by rw [hdeclOf.builder_eq, hof.builder_eq], fun arm harm ↦ ?_,
    fun arm harm ↦ ?_⟩
  · obtain ⟨member, hmember, hname, hsetter, hreads⟩ := hof.attributes arm harm
    obtain ⟨field, hfield, hfieldOf⟩ := Failing.exists_of_mem_left hdeclOf.fields hmember
    exact ⟨member, hmembers ▸ hmember, field, hfield, hname, hfieldOf.member_eq,
      hsetter.trans hfieldOf.setter_eq.symm,
      (fits_text hkeyed hsymbols h hreads hfieldOf.type_eq).2⟩
  · obtain ⟨member, hmember, hname, haction⟩ := hof.arms arm harm
    obtain ⟨field, hfield, hfieldOf⟩ := Failing.exists_of_mem_left hdeclOf.fields hmember
    have htarget := hreaches.member hshape hreached (hmembers ▸ hmember)
    exact ⟨member, hmembers ▸ hmember, field, hfield, hname, hfieldOf.member_eq,
      structAction_fills hkeyed hsymbols hbindings h htarget hreaches hfieldOf haction⟩

theorem unionDecoder_fills {members : List Member} (hform : shape.form = .union members)
    {d : UnionDecoder} (hof : UnionDecoderOf ctx shape members d) :
    (DecoderDecl.union d).Fills ctx.model b shape := by
  have hmembers := Shape.members_of_union hform
  obtain ⟨decl, hdecl, hdeclOf⟩ := exists_union h hshape hform
  refine ⟨decl, hdecl, by rw [hdeclOf.ident_eq, hof.type_eq], fun arm harm ↦ ?_⟩
  obtain ⟨member, hmember, hname, hvariant, haction⟩ := hof.arms arm harm
  obtain ⟨case, hcase, hcaseOf⟩ := Failing.exists_of_mem_left hdeclOf.cases hmember
  have htarget := hreaches.member hshape hreached (hmembers ▸ hmember)
  exact ⟨member, hmembers ▸ hmember, case, hcase, hname, hcaseOf.member_eq,
    hvariant.trans hcaseOf.variant_eq.symm,
    unionAction_fills hkeyed hsymbols hbindings h htarget hreaches hcaseOf.type_eq haction⟩

theorem listDecoder_fills {item : Item} (hform : shape.form = .list item) {d : ListDecoder}
    (hof : ListDecoderOf ctx shape item d) : (DecoderDecl.list d).Fills ctx.model b shape := by
  have htypeFor := Context.typeFor_of_typeOf hkeyed hsymbols hshape hof.type_eq
  rw [TypeFor, hform] at htypeFor
  obtain ⟨itemType, hitem, htype⟩ := htypeFor
  have htarget := hreaches shape hshape hreached .item item.target (Shape.item_mem_refs hform)
  exact ⟨item, itemType, hform, htype,
    fits_element hkeyed hsymbols hbindings h htarget hof.item hitem⟩

theorem mapDecoder_fills {key value : Item} (hform : shape.form = .map key value)
    {d : MapDecoder} (hof : MapDecoderOf ctx shape key value d) :
    (DecoderDecl.map d).Fills ctx.model b shape := by
  have htypeFor := Context.typeFor_of_typeOf hkeyed hsymbols hshape hof.type_eq
  rw [TypeFor, hform] at htypeFor
  obtain ⟨keyType, valueType, hkey, hvalue, htype⟩ := htypeFor
  obtain rfl := Except.ok.inj (hkey.symm.trans hof.keyType_eq)
  obtain rfl := Except.ok.inj (hvalue.symm.trans hof.valueType_eq)
  have htarget := hreaches shape hshape hreached .value value.target (Shape.value_mem_refs hform)
  exact ⟨key, value, hform, htype, (fits_text hkeyed hsymbols h hof.key hkey).1,
    fits_element hkeyed hsymbols hbindings h htarget hof.value hvalue⟩

end Decoders

/-- Every decoder is that of a shape and fills the types that are declared for it. -/
theorem decoders_fill {m : Model} {defaults : Defaults} (hkeyed : m.Keyed)
    (h : m.bindings defaults = .ok b) {decl : DecoderDecl} (hdecl : decl ∈ b.decoders) :
    ∃ shape ∈ m.breakCycles.shapes.values, decl.ident = decoderIdent shape.name ∧
      decl.Fills m.breakCycles b shape := by
  obtain ⟨ctx, hmodel, hdefaults, hsymbols, hbindings, hmade⟩ := exists_of_bindings h
  have hbroken : ctx.model.Keyed := hmodel ▸ hkeyed.breakCycles
  rw [← hdefaults] at hbindings
  have hreaches := reaches_reachable hbroken hsymbols
  obtain ⟨shape, hshape, hreached, hof⟩ :=
    exists_shape_of_mem_decoders hbroken hbindings hmade hdecl
  rw [← hmodel]
  refine ⟨shape, hshape, hof.ident_eq, ?_⟩
  cases decl with
  | struct d =>
    obtain ⟨members, hform, hof⟩ := hof
    exact structDecoder_fills hbroken hsymbols hbindings hmade hreaches hshape hreached hform hof
  | union d =>
    obtain ⟨members, hform, hof⟩ := hof
    exact unionDecoder_fills hbroken hsymbols hbindings hmade hreaches hshape hreached hform hof
  | list d =>
    obtain ⟨item, hform, hof⟩ := hof
    exact listDecoder_fills hbroken hsymbols hbindings hmade hreaches hshape hreached hform hof
  | map d =>
    obtain ⟨key, value, hform, hof⟩ := hof
    exact mapDecoder_fills hbroken hsymbols hbindings hmade hreaches hshape hreached hform hof

end Bindings

end WireShapes
