import WireShapes.Bindings.OperationCode
import WireShapes.Proofs.Keyed
import WireShapes.Proofs.Mentions
import WireShapes.Proofs.TypeDecls

/-!
# Generated types are finite

A generated type contains what its fields and the payloads of its variants are made of, other than
behind a box or a reference.  Following that from type to type one never comes back, as long as one
does not go on from the name of a primitive type.  A generated type can have such a name: `éi8`
loses its first letter after it was put in upper case, and a field for a byte is then a field of the
structure itself.
-/

namespace WireShapes

open Code (Ident Ty Decl)

/-! ## What generated types contain -/

namespace Code

/-- The type whose values are held elsewhere. -/
def boxPath : Path := .global ["std", "boxed", "Box"]

mutual

/-- The names of the types that a value of a type holds other than behind a box or a reference. -/
def Ty.inlined : Ty → List String
  | .path names arguments =>
    if names = boxPath then []
    else match names, arguments with
      | ⟨false, [name]⟩, [] => [name]
      | _, arguments => Ty.inlinedIn arguments
  | .lifetime _ => []
  | .reference _ _ _ => []
  | .slice item => item.inlined
  | .tuple items => Ty.inlinedIn items

def Ty.inlinedIn : List Ty → List String
  | [] => []
  | type :: rest => type.inlined ++ Ty.inlinedIn rest

end

/-- The types of the fields or payloads of the type that a declaration defines. -/
def Decl.contents : Decl → List Ty
  | .record _ _ fields => fields.map RecordField.type
  | .choice _ _ variants => variants.filterMap Variant.payload
  | .implementation _ _ _ | .fn _ => []

/-- What the type of a name contains in generated code. -/
def contained (code : List Decl) (type : String) : List String :=
  (code.filter fun decl ↦ decl.typeName? = some type).flatMap fun decl ↦
    decl.contents.flatMap Ty.inlined

/-- A type has another one in its fields or payloads, and not behind a box. -/
def Contains (code : List Decl) (a b : String) : Prop :=
  b ∈ contained code a

end Code

open Code (Contains)

/-- The primitive types that fields can have. -/
def primitives : List String := ["bool", "i8", "i16", "i32", "i64", "f32", "f64"]

theorem inlined_kindType (kind : Scalar.Kind) {name : String}
    (h : name ∈ (Bindings.kindType kind).inlined) : name ∈ primitives := by
  revert name
  cases kind <;> decide

/-- A type in code holds primitive types and what the type it is written for holds. -/
theorem exists_held_of_mem_inlined {type : TypeExpr} {name : String} (h : name ∈ type.tree.inlined)
    (hname : name ∉ primitives) : ∃ held ∈ type.held false, name = (Ident.ofText held).toText := by
  induction type with
  | scalar kind => exact absurd (inlined_kindType kind h) hname
  | vec item ih =>
    have hmem : name ∈ item.tree.inlined := by
      simpa [TypeExpr.tree, Ty.inlined, Ty.inlinedIn, Bindings.std, Code.boxPath, Code.Path.global]
        using h
    exact ih hmem
  | hashMap key value ihKey ihValue =>
    have hmem : name ∈ key.tree.inlined ∨ name ∈ value.tree.inlined := by
      simpa [TypeExpr.tree, Ty.inlined, Ty.inlinedIn, Bindings.std, Code.boxPath, Code.Path.global]
        using h
    rcases hmem with hmem | hmem
    · obtain ⟨held, hheld, heq⟩ := ihKey hmem
      exact ⟨held, List.mem_append_left _ hheld, heq⟩
    · obtain ⟨held, hheld, heq⟩ := ihValue hmem
      exact ⟨held, List.mem_append_right _ hheld, heq⟩
  | named held =>
    refine ⟨held, List.mem_singleton_self _, ?_⟩
    simpa [TypeExpr.tree, Ty.named, Ty.plain, Code.Path.single, Ty.inlined, Code.boxPath,
      Code.Path.global] using h
  | boxed inner _ =>
    simp [TypeExpr.tree, Ty.inlined, Bindings.std, Code.boxPath, Code.Path.global] at h

namespace Bindings

theorem inlined_optionOf (type : Ty) : (optionOf type).inlined = type.inlined := by
  simp [optionOf, std, Ty.inlined, Ty.inlinedIn, Code.boxPath, Code.Path.global]

theorem inlined_fieldType (field : Field) : field.fieldType.inlined = field.type.tree.inlined := by
  unfold Field.fieldType
  split
  · rfl
  · exact inlined_optionOf _

/-! ## From types back to shapes -/

/-- A type named in code is one that was generated for a shape, and references lead there. -/
structure LeadsTo (ctx : Context) (shape : Shape) (name : String) (target : Shape) : Prop where
  known : target ∈ ctx.model.shapes.values
  hasType : target.form.hasType
  name_eq : name = (Code.camelIdent target.name).toText
  leads : Relation.TransGen (ctx.model.Holds false) shape.name target.name

variable {ctx : Context} {shape : Shape} {name : String}

/-- What the type of a reference holds is led to by the reference. -/
theorem exists_leadsTo (hkeyed : ctx.model.Keyed)
    (hsymbols : SymbolMap.ofModel ctx.model = .ok ctx.symbols)
    (hshape : shape ∈ ctx.model.shapes.values) {slot : Slot} {ref : Reference}
    (href : (slot, ref) ∈ shape.refs) {type : TypeExpr} (htype : ctx.typeAt shape ref = .ok type)
    (hname : name ∈ type.tree.inlined) (hprimitive : name ∉ primitives) :
    ∃ target, LeadsTo ctx shape name target := by
  obtain ⟨held, hheld, rfl⟩ := exists_held_of_mem_inlined hname hprimitive
  obtain ⟨symbol, hsymbol, rfl⟩ := Context.typeAt_ok htype
  obtain ⟨hdirect, hheld⟩ := Model.held_forReference hheld
  obtain ⟨last, target, hleads, htarget, hform, rfl⟩ :=
    Model.leadsToType_of_shape? hsymbols hsymbol hheld
  have hlast : target.name = last := hkeyed.name_of_shape? htarget
  subst hlast
  have hfirst : ctx.model.Holds false shape.name ref.target :=
    ⟨shape, slot, ref, hkeyed.shape?_eq_some hshape, href, rfl, hdirect⟩
  exact ⟨target, Model.mem_values_of_shape? htarget, hform, rfl, .head' hfirst hleads⟩

/-! ## From code back to declarations -/

/-- The types in generated code are those of its type and error declarations. -/
theorem exists_decl_of_typeName {b : Bindings} {decl : Decl} {type : String} (h : decl ∈ b.code)
    (htype : decl.typeName? = some type) :
    (∃ made ∈ b.types, decl ∈ made.code) ∨ ∃ made ∈ b.errors, decl ∈ made.code := by
  have hdecoders : ∀ made ∈ b.decoders, decl ∉ made.code := by
    intro made _ hmem
    cases made with
    | struct made | union made | list made =>
      obtain rfl := List.mem_singleton.mp hmem
      cases htype
    | map made =>
      rcases List.mem_cons.mp hmem with rfl | hmem
      · cases htype
      · obtain rfl := List.mem_singleton.mp hmem
        cases htype
  have hoperations : ∀ made ∈ b.operations, decl ∉ made.code := by
    intro made _ hmem
    simp only [OperationDecl.code, List.mem_append, List.mem_map, List.mem_singleton] at hmem
    rcases hmem with (⟨input, -, rfl⟩ | ⟨output, -, rfl⟩) | rfl <;> cases htype
  simp only [Bindings.code, List.mem_append, List.mem_flatMap] at h
  rcases h with ((h | h) | ⟨made, hmade, hmem⟩) | ⟨made, hmade, hmem⟩
  · exact .inl h
  · exact .inr h
  · exact absurd hmem (hdecoders made hmade)
  · exact absurd hmem (hoperations made hmade)

/-- The types that a structure's declaration defines hold the types of its fields. -/
theorem exists_field_of_inlined {made : StructDecl} {decl : Decl} {type : String}
    (hdecl : decl ∈ made.code) (htype : decl.typeName? = some type)
    (hname : name ∈ decl.contents.flatMap Ty.inlined) :
    (type = made.ident.toText ∨ type = made.builder.toText) ∧
      ∃ field ∈ made.fields, name ∈ field.type.tree.inlined := by
  simp only [StructDecl.code, List.mem_append, List.mem_cons, List.not_mem_nil, or_false,
    List.mem_flatMap] at hdecl
  rcases hdecl with (rfl | rfl | rfl | rfl) | ⟨display, -, rfl | rfl⟩
  · refine ⟨.inl (Option.some.inj htype).symm, ?_⟩
    simpa [Decl.contents, inlined_fieldType] using hname
  · cases htype
  · refine ⟨.inr (Option.some.inj htype).symm, ?_⟩
    simpa [Decl.contents, inlined_optionOf] using hname
  · cases htype
  · cases htype
  · cases htype

theorem exists_case_of_inlined {made : UnionDecl} {decl : Decl} {type : String}
    (hdecl : decl ∈ made.code) (htype : decl.typeName? = some type)
    (hname : name ∈ decl.contents.flatMap Ty.inlined) :
    type = made.ident.toText ∧ ∃ case ∈ made.cases, name ∈ case.type.tree.inlined := by
  simp only [UnionDecl.code, List.mem_cons, List.not_mem_nil, or_false] at hdecl
  rcases hdecl with rfl | rfl
  · refine ⟨(Option.some.inj htype).symm, ?_⟩
    simpa [Decl.contents] using hname
  · cases htype

/-- An enumeration holds at most a text. -/
theorem not_inlined_enum {made : EnumDecl} {decl : Decl} {type : String} (hdecl : decl ∈ made.code)
    (htype : decl.typeName? = some type) : name ∉ decl.contents.flatMap Ty.inlined := by
  simp only [EnumDecl.code, List.mem_cons, List.not_mem_nil, or_false] at hdecl
  rcases hdecl with rfl | rfl | rfl | rfl | rfl | rfl
  · simp [Decl.contents, stringType, kindType, std, Ty.plain, Ty.inlined, Ty.inlinedIn,
      Code.Path.global]
  all_goals cases htype

theorem exists_error_of_inlined {made : OperationErrorDecl} {decl : Decl} {type : String}
    (hdecl : decl ∈ made.code) (htype : decl.typeName? = some type)
    (hname : name ∈ decl.contents.flatMap Ty.inlined) :
    type = made.ident.toText ∧ ∃ case ∈ made.cases, name ∈ case.type.tree.inlined := by
  simp only [OperationErrorDecl.code, List.mem_cons, List.not_mem_nil, or_false] at hdecl
  rcases hdecl with rfl | rfl | rfl
  · refine ⟨(Option.some.inj htype).symm, ?_⟩
    simpa [Decl.contents, wire, Ty.plain, Ty.inlined, Ty.inlinedIn, Code.Path.global] using hname
  all_goals cases htype

/-! ## No type comes back -/

variable {b : Bindings} {reached : List String}

/-- A type of the model, and the type of a shape.  If the former is a shape's own, references lead
from that shape to the other. -/
def HoldsType (ctx : Context) (type name : String) : Prop :=
  ∃ ident role, (ident, role) ∈ modelTypes ctx.model ∧ ident.toText = type ∧
    ∃ target ∈ ctx.model.shapes.values, target.form.hasType ∧
      name = (Code.camelIdent target.name).toText ∧
      ∀ shape, role = .type shape → Relation.TransGen (ctx.model.Holds false) shape target.name

theorem LeadsTo.holdsType {target : Shape} (h : LeadsTo ctx shape name target)
    (hshape : shape ∈ ctx.model.shapes.values) {ident : Ident} {role : TypeRole}
    (hentry : (ident, role) ∈ shapeTypes shape)
    (hown : ∀ other, role = .type other → other = shape.name) :
    HoldsType ctx ident.toText name := by
  have hmodel : (ident, role) ∈ modelTypes ctx.model :=
    List.mem_append_left _ (List.mem_flatMap.mpr ⟨shape, hshape, hentry⟩)
  refine ⟨ident, role, hmodel, rfl, target, h.known, h.hasType, h.name_eq, ?_⟩
  intro other hother
  exact hown other hother ▸ h.leads

/-- What is declared for a shape holds types that the shape's members lead to. -/
theorem holdsType_of_type (hkeyed : ctx.model.Keyed)
    (hsymbols : SymbolMap.ofModel ctx.model = .ok ctx.symbols)
    (hshape : shape ∈ ctx.model.shapes.values) {made : TypeDecl}
    (hof : TypeOf ctx shape (some made)) {decl : Decl} {type : String} (hdecl : decl ∈ made.code)
    (htype : decl.typeName? = some type) (hname : name ∈ decl.contents.flatMap Ty.inlined)
    (hprimitive : name ∉ primitives) : HoldsType ctx type name := by
  cases made with
  | struct made =>
    obtain ⟨members, hform, hof⟩ := hof
    obtain ⟨hnamed, field, hfield, hinlined⟩ := exists_field_of_inlined hdecl htype hname
    obtain ⟨member, hmember, hfieldOf⟩ := Failing.exists_of_mem_right hof.fields hfield
    have hmembers : member ∈ shape.members := by simpa [Shape.members, hform] using hmember
    obtain ⟨slot, hslot⟩ := Shape.exists_slot_of_mem_members hmembers
    obtain ⟨target, htarget⟩ :=
      exists_leadsTo hkeyed hsymbols hshape hslot hfieldOf.type_eq hinlined hprimitive
    rcases hnamed with rfl | rfl
    · have hentry : (made.ident, .type shape.name) ∈ shapeTypes shape := by
        simp [shapeTypes, hform, hof.ident_eq]
      exact htarget.holdsType hshape hentry fun _ hother ↦ (TypeRole.type.inj hother).symm
    · have hentry : (made.builder, .builder shape.name) ∈ shapeTypes shape := by
        simp [shapeTypes, hform, hof.builder_eq]
      exact htarget.holdsType hshape hentry fun _ hother ↦ by cases hother
  | union made =>
    obtain ⟨members, hform, hof⟩ := hof
    obtain ⟨rfl, case, hcase, hinlined⟩ := exists_case_of_inlined hdecl htype hname
    obtain ⟨member, hmember, hcaseOf⟩ := Failing.exists_of_mem_right hof.cases hcase
    have hmembers : member ∈ shape.members := by simpa [Shape.members, hform] using hmember
    obtain ⟨slot, hslot⟩ := Shape.exists_slot_of_mem_members hmembers
    obtain ⟨target, htarget⟩ :=
      exists_leadsTo hkeyed hsymbols hshape hslot hcaseOf.type_eq hinlined hprimitive
    have hentry : (made.ident, .type shape.name) ∈ shapeTypes shape := by
      simp [shapeTypes, hform, hof.ident_eq]
    exact htarget.holdsType hshape hentry fun _ hother ↦ (TypeRole.type.inj hother).symm
  | enum made => exact absurd hname (not_inlined_enum hdecl htype)

/-- The error of an operation holds the types of error structures. -/
theorem holdsType_of_error (h : ctx.declarationsFor reached = .ok b) {made : OperationErrorDecl}
    (hmade : made ∈ b.errors) {decl : Decl} {type : String} (hdecl : decl ∈ made.code)
    (htype : decl.typeName? = some type) (hname : name ∈ decl.contents.flatMap Ty.inlined)
    (hprimitive : name ∉ primitives) : HoldsType ctx type name := by
  obtain ⟨-, -, herrors, -⟩ := Context.declarationsFor_ok h
  obtain ⟨op, hop, hof⟩ := Failing.exists_of_mem_right herrors hmade
  obtain ⟨rfl, case, hcase, hinlined⟩ := exists_error_of_inlined hdecl htype hname
  obtain ⟨shapes, hshapes, hcases⟩ := hof.shapes
  obtain ⟨target, htarget, -, hheld⟩ := Failing.exists_of_mem_right hcases hcase
  obtain ⟨found, -, hfound, members, hform⟩ := Context.errorShapes_ok hshapes htarget
  have hrole : (Code.errorTypeIdent op.name, .failure op.name) ∈ modelTypes ctx.model :=
    List.mem_append_right _ (List.mem_map_of_mem hop)
  have hnamed : name = (Code.camelIdent target.name).toText := by
    rw [hheld] at hinlined
    obtain ⟨held, hmem, heq⟩ := exists_held_of_mem_inlined hinlined hprimitive
    rw [heq, List.mem_singleton.mp hmem]
    rfl
  exact ⟨_, _, hrole, by rw [hof.ident_eq], target, Model.mem_values_of_shape? hfound,
    by rw [hform]; rfl, hnamed, nofun⟩

/-- What a type contains is the type of a shape. -/
theorem holdsType_of_contains (hkeyed : ctx.model.Keyed)
    (hsymbols : SymbolMap.ofModel ctx.model = .ok ctx.symbols)
    (h : ctx.declarationsFor reached = .ok b) {type : String}
    (hcontains : Contains b.code type name) (hprimitive : name ∉ primitives) :
    HoldsType ctx type name := by
  obtain ⟨decl, hfiltered, hname⟩ := List.mem_flatMap.mp hcontains
  obtain ⟨hdecl, htype⟩ := List.mem_filter.mp hfiltered
  have htype : decl.typeName? = some type := of_decide_eq_true htype
  rcases exists_decl_of_typeName hdecl htype with ⟨made, hmade, hcode⟩ | ⟨made, hmade, hcode⟩
  · obtain ⟨shape, hshape, hof⟩ := Context.exists_shape_of_mem_types h hmade
    exact holdsType_of_type hkeyed hsymbols hshape hof hcode htype hname hprimitive
  · exact holdsType_of_error h hmade hcode htype hname hprimitive

/-- A shape's type contains, over any number of types, only types that references lead to. -/
theorem leads_of_transGen_contains (hkeyed : ctx.model.Keyed)
    (hsymbols : SymbolMap.ofModel ctx.model = .ok ctx.symbols)
    (h : ctx.declarationsFor reached = .ok b) (hshape : shape ∈ ctx.model.shapes.values)
    (hform : shape.form.hasType)
    (htypes : Relation.TransGen (fun a c ↦ Contains b.code a c ∧ c ∉ primitives)
      (Code.camelIdent shape.name).toText name) :
    ∃ target ∈ ctx.model.shapes.values, target.form.hasType ∧
      name = (Code.camelIdent target.name).toText ∧
      Relation.TransGen (ctx.model.Holds false) shape.name target.name := by
  obtain ⟨hclaimed, -⟩ := Context.declarationsFor_ok h
  have hstep {from_ : Shape} {c : String} (hfrom : from_ ∈ ctx.model.shapes.values)
      (hhas : from_.form.hasType)
      (hcontains : Contains b.code (Code.camelIdent from_.name).toText c ∧ c ∉ primitives) :
      ∃ target ∈ ctx.model.shapes.values, target.form.hasType ∧
        c = (Code.camelIdent target.name).toText ∧
        Relation.TransGen (ctx.model.Holds false) from_.name target.name := by
    obtain ⟨ident, role, hrole, htext, target, htarget, htype, hc, hleads⟩ :=
      holdsType_of_contains hkeyed hsymbols h hcontains.1 hcontains.2
    have hown := Context.role_unique hclaimed hrole (mem_modelTypes_of_hasType hfrom hhas) htext
    exact ⟨target, htarget, htype, hc, hleads _ hown⟩
  induction htypes with
  | single hlast => exact hstep hshape hform hlast
  | tail _ hlast ih =>
    obtain ⟨middle, hmiddle, hhas, rfl, hleads⟩ := ih
    obtain ⟨target, htarget, htype, hc, hmore⟩ := hstep hmiddle hhas hlast
    exact ⟨target, htarget, htype, hc, hleads.trans hmore⟩

def TypeDecl.ident : TypeDecl → Ident
  | .struct decl => decl.ident
  | .union decl => decl.ident
  | .enum decl => decl.ident

/-- One type is declared for each structure, union and enumeration, in order. -/
theorem map_ident_types (h : ctx.declarationsFor reached = .ok b) :
    b.types.map TypeDecl.ident =
      (ctx.model.shapes.values.filter fun shape ↦ shape.form.hasType).map
        fun shape ↦ Code.camelIdent shape.name := by
  obtain ⟨-, ⟨results, hresults, htypes⟩, -⟩ := Context.declarationsFor_ok h
  rw [htypes]
  clear htypes
  generalize ctx.model.shapes.values = shapes at hresults ⊢
  induction hresults with
  | nil => rfl
  | @cons shape result _ _ hof _ ih =>
    cases result with
    | none =>
      have hform : shape.form.hasType = false := hof
      rw [List.reduceOption_cons_of_none, ih, List.filter_cons_of_neg (by simp [hform])]
    | some made =>
      have hboth : shape.form.hasType = true ∧ made.ident = Code.camelIdent shape.name := by
        cases made with
        | struct made =>
          obtain ⟨members, hform, hof⟩ := hof
          exact ⟨by rw [hform]; rfl, hof.ident_eq⟩
        | union made =>
          obtain ⟨members, hform, hof⟩ := hof
          exact ⟨by rw [hform]; rfl, hof.ident_eq⟩
        | enum made =>
          obtain ⟨values, hform, hof⟩ := hof
          exact ⟨by rw [hform]; rfl, hof.ident_eq⟩
      rw [List.reduceOption_cons_of_some, List.map_cons, ih, hboth.2,
        List.filter_cons_of_pos (p := fun shape : Shape ↦ shape.form.hasType) hboth.1,
        List.map_cons]

/-- Generated types are finite, unless one has the name of a primitive type: following what types
contain, but not on from such a name, no type comes back.  And one type is declared for each
structure, union and enumeration, under a name of its own. -/
theorem types_finite {m : Model} {defaults : Defaults} (hkeyed : m.Keyed)
    (h : m.bindings defaults = .ok b) :
    (∀ type, ¬ Relation.TransGen (fun a c ↦ Contains b.code a c ∧ c ∉ primitives) type type) ∧
      (b.types.map TypeDecl.ident =
        (m.shapes.values.filter fun shape ↦ shape.form.hasType).map
          fun shape ↦ Code.camelIdent shape.name) ∧
      (b.types.map fun made ↦ made.ident.toText).Nodup := by
  obtain ⟨ctx, hmodel, -, hsymbols, -, hmade⟩ := exists_of_bindings h
  have hbroken : ctx.model.Keyed := hmodel ▸ hkeyed.breakCycles
  obtain ⟨hclaimed, -⟩ := Context.declarationsFor_ok hmade
  refine ⟨fun type hcycle ↦ ?_, ?_, ?_⟩
  · -- The type was come back to, so it is one that another type contains.
    obtain ⟨before, -, hlast⟩ := Relation.TransGen.tail'_iff.mp hcycle
    obtain ⟨-, -, -, -, shape, hshape, hform, rfl, -⟩ :=
      holdsType_of_contains hbroken hsymbols hmade hlast.1 hlast.2
    obtain ⟨target, htarget, htype, hsame, hleads⟩ :=
      leads_of_transGen_contains hbroken hsymbols hmade hshape hform hcycle
    have hrole := Context.role_unique hclaimed (mem_modelTypes_of_hasType hshape hform)
      (mem_modelTypes_of_hasType htarget htype) hsame
    rw [TypeRole.type.inj hrole, hmodel] at hleads
    exact Model.not_transGen_holds m _ hleads
  · have hidents (shapes : List Shape) :
        (shapes.filter fun shape ↦ shape.form.hasType).map
            (fun shape ↦ Code.camelIdent shape.name) =
          ((shapes.map fun shape ↦ (shape.form.hasType, Code.camelIdent shape.name)).filter
            Prod.fst).map Prod.snd := by
      simp [List.filter_map, Function.comp_def]
    have hunmarked (shape : Shape) : (shape.unmarked.form.hasType,
        Code.camelIdent shape.unmarked.name) =
          (shape.form.hasType, Code.camelIdent shape.name) := by
      cases hform : shape.form <;> simp [Shape.unmarked, hform, Form.unmarked, Form.hasType]
    rw [map_ident_types hmade, hmodel, hidents, Model.map_values_breakCycles hunmarked, ← hidents]
  · have htexts : (b.types.map fun made ↦ made.ident.toText) =
        (ctx.model.shapes.values.filter fun shape ↦ shape.form.hasType).map
          fun shape ↦ (Code.camelIdent shape.name).toText := by
      simpa [Function.comp_def] using congrArg (List.map Ident.toText) (map_ident_types hmade)
    rw [htexts]
    apply List.Nodup.map_on
    · intro first hfirst second hsecond htext
      obtain ⟨hmem, hform⟩ := List.mem_filter.mp hfirst
      obtain ⟨hmem', hform'⟩ := List.mem_filter.mp hsecond
      have hrole := Context.role_unique hclaimed (mem_modelTypes_of_hasType hmem hform)
        (mem_modelTypes_of_hasType hmem' hform') htext
      have hfound := hbroken.shape?_eq_some hmem
      rw [TypeRole.type.inj hrole, hbroken.shape?_eq_some hmem'] at hfound
      exact (Option.some.inj hfound).symm
    · exact (List.Nodup.of_map _ hbroken.values_nodup).filter _

/-! ### A tree, and a type under the name of a primitive one -/

/-- A tree of nodes that hold lists of nodes. -/
def treeModel : Model := .ofShapes [
  { name := "Tree", form := .struct [{ name := "root", target := .to "Node", required := true }] },
  { name := "Node", form := .struct [
    { name := "label", target := .to "Byte" }, { name := "children", target := .to "Nodes" }] },
  { name := "Nodes", form := .list { target := .to "Node" } }] []

/-- The types for a tree are finite, though its nodes refer to nodes. -/
theorem tree_types_finite :
    treeModel.Keyed ∧ ∃ b, treeModel.bindings {} = .ok b ∧ Contains b.code "Tree" "Node" ∧
      ∀ type, ¬ Relation.TransGen (fun a c ↦ Contains b.code a c ∧ c ∉ primitives) type type := by
  have hkeyed : treeModel.Keyed := by decide +kernel
  have hholds : (treeModel.bindings {}).toOption.map
      (fun b ↦ decide ("Node" ∈ Code.contained b.code "Tree")) = some true := by decide +kernel
  cases hb : treeModel.bindings {} with
  | error _ =>
    rw [hb] at hholds
    cases hholds
  | ok b =>
    rw [hb] at hholds
    have hnode : "Node" ∈ Code.contained b.code "Tree" :=
      of_decide_eq_true (Option.some.inj hholds)
    exact ⟨hkeyed, b, rfl, hnode, (types_finite hkeyed hb).1⟩

/-- A structure whose name loses a letter, with a member for a byte. -/
def accentModel : Model := .ofShapes [
  { name := "éi8", form := .struct [{ name := "x", target := .to "Byte" }] }] []

/-- Its type is called like that of its field, and so contains itself. -/
theorem accented_type_contains_itself :
    accentModel.Keyed ∧ ∃ b, accentModel.bindings {} = .ok b ∧ Contains b.code "i8" "i8" := by
  have hholds : (accentModel.bindings {}).toOption.map
      (fun b ↦ decide ("i8" ∈ Code.contained b.code "i8")) = some true := by decide +kernel
  cases hb : accentModel.bindings {} with
  | error _ =>
    rw [hb] at hholds
    cases hholds
  | ok b =>
    rw [hb] at hholds
    have hself : "i8" ∈ Code.contained b.code "i8" := of_decide_eq_true (Option.some.inj hholds)
    exact ⟨by decide +kernel, b, rfl, hself⟩

end Bindings

end WireShapes
