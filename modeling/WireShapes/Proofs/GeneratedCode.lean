import WireShapes.Proofs.ClosedDecoders
import WireShapes.Proofs.CollectionTypes

/-!
# Generated code as a whole

Generated code defines every name that it refers to, and defines no name twice in one scope.  It has
decoders for just those shapes that references lead to from the operations, or for all shapes where
there are no operations.
-/

namespace WireShapes

open Code (Ident Ty Decl Part typeNames functionNames variantNames implementedNames methodNames)

namespace Bindings

variable {ctx : Context} {reached : List String} {b : Bindings} {shape : Shape}

/-! ## What types provide -/

/-- A structure, union or enumeration has a type. -/
theorem exists_type_of_shape (h : ctx.declarationsFor reached = .ok b)
    (hshape : shape ∈ ctx.model.shapes.values) (hform : shape.form.hasType) :
    ∃ made ∈ b.types, TypeOf ctx shape (some made) := by
  obtain ⟨-, ⟨results, hresults, htypes⟩, -⟩ := Context.declarationsFor_ok h
  obtain ⟨result, hresult, hof⟩ := Failing.exists_of_mem_left hresults hshape
  cases result with
  | none =>
    have hnone : shape.form.hasType = false := hof
    rw [hnone] at hform
    cases hform
  | some made => exact ⟨made, htypes ▸ List.reduceOption_mem_iff.mpr hresult, hof⟩

theorem mem_code_of_mem_types {made : TypeDecl} {decl : Decl} (hmade : made ∈ b.types)
    (hdecl : decl ∈ made.code) : decl ∈ b.code := by
  simp only [Bindings.code, List.mem_append, List.mem_flatMap]
  exact .inl (.inl (.inl ⟨made, hmade, hdecl⟩))

theorem mem_code_of_mem_decoders {made : DecoderDecl} {decl : Decl} (hmade : made ∈ b.decoders)
    (hdecl : decl ∈ made.code) : decl ∈ b.code := by
  simp only [Bindings.code, List.mem_append, List.mem_flatMap]
  exact .inl (.inr ⟨made, hmade, hdecl⟩)

/-- The form of a shape says what its type is declared as. -/
theorem TypeOf.form {made : TypeDecl} (h : TypeOf ctx shape (some made)) :
    match shape.form with
    | .struct members => ∃ decl, made = .struct decl ∧ StructOf ctx shape members decl
    | .union members => ∃ decl, made = .union decl ∧ UnionOf ctx shape members decl
    | .enum values => ∃ decl, made = .enum decl ∧ EnumOf shape values decl
    | _ => False := by
  cases made with
  | struct decl =>
    obtain ⟨members, hform, hof⟩ := h
    rw [hform]
    exact ⟨decl, rfl, hof⟩
  | union decl =>
    obtain ⟨members, hform, hof⟩ := h
    rw [hform]
    exact ⟨decl, rfl, hof⟩
  | enum decl =>
    obtain ⟨values, hform, hof⟩ := h
    rw [hform]
    exact ⟨decl, rfl, hof⟩

theorem exists_struct (h : ctx.declarationsFor reached = .ok b)
    (hshape : shape ∈ ctx.model.shapes.values) {members : List Member}
    (hform : shape.form = .struct members) :
    ∃ decl, .struct decl ∈ b.types ∧ StructOf ctx shape members decl := by
  obtain ⟨made, hmade, hdeclared⟩ := exists_type_of_shape h hshape (by rw [hform]; rfl)
  have hcases := TypeOf.form hdeclared
  rw [hform] at hcases
  obtain ⟨decl, rfl, hof⟩ := hcases
  exact ⟨decl, hmade, hof⟩

theorem exists_union (h : ctx.declarationsFor reached = .ok b)
    (hshape : shape ∈ ctx.model.shapes.values) {members : List Member}
    (hform : shape.form = .union members) :
    ∃ decl, .union decl ∈ b.types ∧ UnionOf ctx shape members decl := by
  obtain ⟨made, hmade, hdeclared⟩ := exists_type_of_shape h hshape (by rw [hform]; rfl)
  have hcases := TypeOf.form hdeclared
  rw [hform] at hcases
  obtain ⟨decl, rfl, hof⟩ := hcases
  exact ⟨decl, hmade, hof⟩

theorem exists_enum (h : ctx.declarationsFor reached = .ok b)
    (hshape : shape ∈ ctx.model.shapes.values) {values : List EnumValue}
    (hform : shape.form = .enum values) :
    ∃ decl, .enum decl ∈ b.types ∧ EnumOf shape values decl := by
  obtain ⟨made, hmade, hdeclared⟩ := exists_type_of_shape h hshape (by rw [hform]; rfl)
  have hcases := TypeOf.form hdeclared
  rw [hform] at hcases
  obtain ⟨decl, rfl, hof⟩ := hcases
  exact ⟨decl, hmade, hof⟩

theorem mem_variantNames_type {made : TypeDecl} (hmade : made ∈ b.types) {owner name : String}
    {names : List String} (hentry : (owner, names) ∈ made.variants) (hname : name ∈ names) :
    (owner, name) ∈ variantNames b.code := by
  rw [variantNames, (defines_code b).variants_eq, Code.mem_owned_iff]
  exact ⟨names, List.mem_append_left _ (List.mem_flatMap.mpr ⟨made, hmade, hentry⟩), hname⟩

theorem mem_variantNames_error {made : OperationErrorDecl} (hmade : made ∈ b.errors) {name : String}
    (hname : name ∈ made.variants.2) : (made.name, name) ∈ variantNames b.code := by
  rw [variantNames, (defines_code b).variants_eq, Code.mem_owned_iff]
  exact ⟨made.variants.2, List.mem_append_right _ (List.mem_map_of_mem hmade), hname⟩

theorem mem_implementedNames_type {made : TypeDecl} (hmade : made ∈ b.types) {owner name : String}
    {names : List String} (hentry : (owner, names) ∈ made.methods) (hname : name ∈ names) :
    (owner, name) ∈ implementedNames b.code := by
  apply Code.mem_implementedNames_of_mem_methodNames
  rw [methodNames, (defines_code b).methods_eq, Code.mem_owned_iff]
  exact ⟨names, List.mem_flatMap.mpr ⟨made, hmade, hentry⟩, hname⟩

/-- The builder of a structure has the methods of its fields. -/
theorem mem_implementedNames_builder {decl : StructDecl} {members : List Member}
    (hmade : .struct decl ∈ b.types) (hof : StructOf ctx shape members decl) {field : Field}
    (hfield : field ∈ decl.fields) {ident : Ident} (hident : ident ∈ field.methodIdents) :
    ((Code.builderTypeIdent shape.name).toText, ident.toText) ∈ implementedNames b.code := by
  rw [← hof.builder_eq]
  apply mem_implementedNames_type hmade (List.mem_cons_of_mem _ List.mem_cons_self)
  exact List.mem_append_left _ (List.mem_map_of_mem (List.mem_flatMap.mpr ⟨field, hfield, hident⟩))

theorem typeName_of_hasType (h : ctx.declarationsFor reached = .ok b)
    (hshape : shape ∈ ctx.model.shapes.values) (hform : shape.form.hasType) :
    (Code.camelIdent shape.name).toText ∈ typeNames b.code := by
  rw [typeNames_eq h]
  exact List.mem_map_of_mem (mem_modelTypes_of_hasType hshape hform)

/-- Generated code provides what decoders rely on. -/
theorem provides (hkeyed : ctx.model.Keyed)
    (hbindings : BindingMap.ofModel ctx.model ctx.defaults = .ok ctx.bindings)
    (h : ctx.declarationsFor reached = .ok b) : Provides ctx reached b.code where
  type shape hshape hform := typeName_of_hasType h hshape hform
  builder shape hshape members hform := by
    obtain ⟨decl, hmade, hof⟩ := exists_struct h hshape hform
    constructor
    · rw [typeNames_eq h]
      refine List.mem_map_of_mem
        (a := (Code.builderTypeIdent shape.name, TypeRole.builder shape.name)) ?_
      refine List.mem_append_left _ (List.mem_flatMap.mpr ⟨shape, hshape, ?_⟩)
      simp [shapeTypes, hform]
    · rw [← hof.ident_eq]
      exact mem_implementedNames_type hmade List.mem_cons_self (List.mem_singleton_self _)
  setter shape hshape members hform member hmember := by
    obtain ⟨decl, hmade, hof⟩ := exists_struct h hshape hform
    obtain ⟨field, hfield, hfieldOf⟩ := Failing.exists_of_mem_left hof.fields hmember
    apply mem_implementedNames_builder hmade hof hfield
    simp [Field.methodIdents, hfieldOf.setter_eq]
  adder shape hshape members hform member hmember target htarget := by
    obtain ⟨decl, hmade, hof⟩ := exists_struct h hshape hform
    obtain ⟨field, hfield, hfieldOf⟩ := Failing.exists_of_mem_left hof.fields hmember
    obtain ⟨other, hother, hadder⟩ := hfieldOf.adder
    obtain rfl : target = other := Option.some.inj (htarget.symm.trans hother)
    constructor
    · rintro ⟨item, hlist⟩
      rw [hlist] at hadder
      obtain ⟨type, -, hadder⟩ := hadder
      apply mem_implementedNames_builder hmade hof hfield
      simp [Field.methodIdents, hadder, Adder.method]
    · rintro ⟨key, value, hmap⟩
      rw [hmap] at hadder
      obtain ⟨keyType, valueType, -, -, hadder⟩ := hadder
      apply mem_implementedNames_builder hmade hof hfield
      simp [Field.methodIdents, hadder, Adder.method]
  fromText shape hshape values hform := by
    obtain ⟨decl, hmade, hof⟩ := exists_enum h hshape hform
    have hpart : .implementation (some (.path (std ["convert", "From"]) [EnumDecl.textType]))
        decl.type [decl.fromText] ∈ (TypeDecl.enum decl).code := by
      simp [TypeDecl.code, EnumDecl.code]
    rw [← hof.ident_eq]
    exact Code.mem_implementedNames (mem_code_of_mem_types hmade hpart) rfl List.mem_cons_self
  variant shape hshape members hform := by
    obtain ⟨decl, hmade, hof⟩ := exists_union h hshape hform
    rw [← hof.ident_eq]
    constructor
    · exact mem_variantNames_type hmade (List.mem_singleton_self _) (by simp)
    · intro member hmember
      obtain ⟨case, hcase, hcaseOf⟩ := Failing.exists_of_mem_left hof.cases hmember
      rw [← hcaseOf.variant_eq]
      exact mem_variantNames_type hmade (List.mem_singleton_self _)
        (List.mem_append_left _ (List.mem_map_of_mem hcase))
  decoder shape hshape hreached ident hident := by
    rw [functionNames, (defines_code b).functions_eq]
    apply List.mem_map_of_mem
    apply List.mem_append_left
    rw [decoderIdents_eq hkeyed hbindings h]
    exact List.mem_flatMap.mpr ⟨shape, by simpa using ⟨hshape, hreached⟩, hident⟩

/-! ## Types that are referred to -/

theorem closed_resolved (hkeyed : ctx.model.Keyed) (h : ctx.declarationsFor reached = .ok b)
    (hsymbols : SymbolMap.ofModel ctx.model = .ok ctx.symbols) {name : String} {symbol : Symbol}
    (hsymbol : ctx.symbols.shape? name = some symbol) : Ty.Closed b.code symbol.type.tree := by
  apply closed_tree
  intro held hheld
  obtain ⟨last, target, -, htarget, hform, rfl⟩ :=
    Model.leadsToType_of_shape? hsymbols hsymbol hheld
  have hname : target.name = last := hkeyed.name_of_shape? htarget
  have hknown := typeName_of_hasType h (Model.mem_values_of_shape? htarget) hform
  rwa [hname] at hknown

theorem closed_typeAt (hkeyed : ctx.model.Keyed) (h : ctx.declarationsFor reached = .ok b)
    (hsymbols : SymbolMap.ofModel ctx.model = .ok ctx.symbols) {ref : Reference}
    {type : TypeExpr} (htype : ctx.typeAt shape ref = .ok type) : Ty.Closed b.code type.tree := by
  obtain ⟨symbol, hsymbol, rfl⟩ := Context.typeAt_ok htype
  have hclosed := closed_resolved hkeyed h hsymbols hsymbol
  cases ref.indirect with
  | false => exact hclosed
  | true => simpa [Symbol.forReference, TypeExpr.tree, Ty.Closed, std] using hclosed

theorem closed_typeOf (hkeyed : ctx.model.Keyed) (h : ctx.declarationsFor reached = .ok b)
    (hsymbols : SymbolMap.ofModel ctx.model = .ok ctx.symbols) {type : TypeExpr}
    (htype : ctx.typeOf shape = .ok type) : Ty.Closed b.code type.tree := by
  obtain ⟨symbol, hsymbol, rfl⟩ := Context.typeOf_ok htype
  exact closed_resolved hkeyed h hsymbols hsymbol

/-! ## Reached shapes -/

/-- References of reachable shapes lead to reachable ones. -/
theorem reaches_reachable (hkeyed : ctx.model.Keyed)
    (hsymbols : SymbolMap.ofModel ctx.model = .ok ctx.symbols) :
    Reaches ctx.model (reachable ctx.model) := by
  intro shape hshape hreached slot ref href
  cases hoperations : ctx.model.operations.isEmpty with
  | true =>
    have hknown := Model.known_of_firstUnknown? (SymbolMap.firstUnknown?_of_ofModel hsymbols)
      (hkeyed.shape?_eq_some hshape) href
    obtain ⟨target, htarget⟩ := Option.isSome_iff_exists.mp hknown
    simpa [reachable, hoperations] using shape_mem_keys htarget
  | false =>
    obtain ⟨root, hroot, hleads⟩ := (mem_reachable_iff hoperations).mp hreached
    have hstep : ref.target ∈ targets ctx.model shape.name := by
      rw [targets, hkeyed.shape?_eq_some hshape]
      exact List.mem_map_of_mem (f := fun ref : Slot × Reference ↦ ref.2.target) href
    exact (mem_reachable_iff hoperations).mpr ⟨root, hroot, hleads.tail hstep⟩

theorem roots_reachable {op : Operation} (hop : op ∈ ctx.model.operations) {root : String}
    (hroot : root ∈ op.roots) : root ∈ reachable ctx.model := by
  have hoperations : ctx.model.operations.isEmpty = false := by
    rw [List.isEmpty_eq_false_iff]
    exact List.ne_nil_of_mem hop
  exact (mem_reachable_iff hoperations).mpr
    ⟨root, List.mem_flatMap.mpr ⟨op, hop, hroot⟩, .refl⟩

/-! ## The whole code -/

section

variable (hkeyed : ctx.model.Keyed) (hsymbols : SymbolMap.ofModel ctx.model = .ok ctx.symbols)
  (hbindings : BindingMap.ofModel ctx.model ctx.defaults = .ok ctx.bindings)
  (h : ctx.declarationsFor (reachable ctx.model) = .ok b)

include hkeyed hsymbols hbindings h

theorem closed_type {made : TypeDecl} (hmade : made ∈ b.types) :
    ∀ part ∈ made.code, Decl.Closed b.code part := by
  obtain ⟨shape, hshape, hof⟩ := Context.exists_shape_of_mem_types h hmade
  have hprovides := provides hkeyed hbindings h
  cases made with
  | struct decl =>
    obtain ⟨members, hform, hof⟩ := hof
    have hident : decl.ident.toText ∈ typeNames b.code :=
      hof.ident_eq ▸ hprovides.type shape hshape (by rw [hform]; rfl)
    have hbuilder : decl.builder.toText ∈ typeNames b.code :=
      hof.builder_eq ▸ (hprovides.builder shape hshape members hform).1
    apply closed_struct hident hbuilder
    intro field hfield
    obtain ⟨member, hmember, hfieldOf⟩ := Failing.exists_of_mem_right hof.fields hfield
    refine ⟨closed_typeAt hkeyed h hsymbols hfieldOf.type_eq, fun adder hadder ↦ ?_⟩
    obtain ⟨target, -, hmade⟩ := hfieldOf.adder
    split at hmade
    next item hlist =>
      obtain ⟨type, htype, hsome⟩ := hmade
      obtain rfl : Adder.push _ type = adder := Option.some.inj (hsome.symm.trans hadder)
      exact closed_typeAt hkeyed h hsymbols htype
    next key value hmap =>
      obtain ⟨keyType, valueType, hkey, hvalue, hsome⟩ := hmade
      obtain rfl : Adder.insert _ keyType valueType = adder :=
        Option.some.inj (hsome.symm.trans hadder)
      exact ⟨closed_typeAt hkeyed h hsymbols hkey, closed_typeAt hkeyed h hsymbols hvalue⟩
    next =>
      rw [hmade] at hadder
      cases hadder
  | union decl =>
    obtain ⟨members, hform, hof⟩ := hof
    have hident : decl.name ∈ typeNames b.code := by
      rw [show decl.name = decl.ident.toText from rfl, hof.ident_eq]
      exact hprovides.type shape hshape (by rw [hform]; rfl)
    apply closed_union hident
    · intro case hcase
      obtain ⟨member, -, hcaseOf⟩ := Failing.exists_of_mem_right hof.cases hcase
      exact closed_typeAt hkeyed h hsymbols hcaseOf.type_eq
    · intro case hcase
      exact mem_variantNames_type hmade (List.mem_singleton_self _)
        (List.mem_append_left _ (List.mem_map_of_mem hcase))
    · exact mem_variantNames_type hmade (List.mem_singleton_self _) (by simp)
    · intro case hcase
      apply mem_implementedNames_type hmade (List.mem_singleton_self _)
      apply List.mem_append_left
      apply List.mem_map_of_mem
      exact List.mem_flatMap.mpr ⟨case, hcase, List.mem_cons_self⟩
  | enum decl =>
    obtain ⟨values, hform, hof⟩ := hof
    have hident : decl.name ∈ typeNames b.code := by
      rw [show decl.name = decl.ident.toText from rfl, hof.ident_eq]
      exact hprovides.type shape hshape (by rw [hform]; rfl)
    apply closed_enum hident
    · intro case hcase
      exact mem_variantNames_type hmade (List.mem_singleton_self _)
        (List.mem_append_left _ (List.mem_map_of_mem hcase))
    · exact mem_variantNames_type hmade (List.mem_singleton_self _) (by simp)
    · exact mem_implementedNames_type hmade (List.mem_singleton_self _) List.mem_cons_self
    · have hfrom := hprovides.fromText shape hshape values hform
      rwa [← hof.ident_eq] at hfrom

omit hkeyed hsymbols hbindings in
theorem closed_errors {made : OperationErrorDecl} (hmade : made ∈ b.errors) :
    ∀ part ∈ made.code, Decl.Closed b.code part := by
  obtain ⟨-, -, herrors, -⟩ := Context.declarationsFor_ok h
  obtain ⟨op, hop, hof⟩ := Failing.exists_of_mem_right herrors hmade
  have hident : made.name ∈ typeNames b.code := by
    rw [typeNames, (defines_code b).types_eq, List.map_append, List.map_map]
    exact List.mem_append_right _ (List.mem_map_of_mem hmade)
  apply closed_error hident
  · intro case hcase
    obtain ⟨shapes, hshapes, hcases⟩ := hof.shapes
    obtain ⟨target, htarget, -, hheld⟩ := Failing.exists_of_mem_right hcases hcase
    obtain ⟨name, -, hfound, members, hform⟩ := Context.errorShapes_ok hshapes htarget
    rw [hheld]
    exact closed_named
      (typeName_of_hasType h (Model.mem_values_of_shape? hfound) (by rw [hform]; rfl))
  · intro case hcase
    exact mem_variantNames_error hmade (List.mem_append_left _ (List.mem_map_of_mem hcase))
  · exact mem_variantNames_error hmade (List.mem_append_right _ (List.mem_singleton_self _))

theorem closed_decoder {made : DecoderDecl} (hmade : made ∈ b.decoders) :
    ∀ part ∈ made.code, Decl.Closed b.code part := by
  obtain ⟨-, -, -, functions, hdecoders, -⟩ := Context.declarationsFor_ok h
  obtain ⟨hall, -⟩ := Context.decodersFor_ok hkeyed hbindings (fun _ hmem ↦ hmem) hdecoders
  obtain ⟨shape, hshape, hreached, hof⟩ := hall made hmade
  have hprovides := provides hkeyed hbindings h
  have hreaches := reaches_reachable hkeyed hsymbols
  cases made with
  | struct decl =>
    obtain ⟨members, hform, hof⟩ := hof
    exact closed_structDecoder hkeyed hprovides hreaches hshape hreached hform hof
  | union decl =>
    obtain ⟨members, hform, hof⟩ := hof
    exact closed_unionDecoder hkeyed hprovides hreaches hshape hreached hform hof
  | list decl =>
    obtain ⟨item, hform, hof⟩ := hof
    have htype := closed_typeOf hkeyed h hsymbols hof.type_eq
    exact closed_listDecoder hkeyed hprovides hreaches hshape hreached hform htype hof
  | map decl =>
    obtain ⟨key, value, hform, hof⟩ := hof
    have htype := closed_typeOf hkeyed h hsymbols hof.type_eq
    have hkey := closed_typeAt hkeyed h hsymbols hof.keyType_eq
    have hvalue := closed_typeAt hkeyed h hsymbols hof.valueType_eq
    exact closed_mapDecoder hkeyed hprovides hreaches hshape hreached hform htype hkey hvalue hof

omit hsymbols in
theorem closed_entryPoints {made : OperationDecl} (hmade : made ∈ b.operations) :
    ∀ part ∈ made.code, Decl.Closed b.code part := by
  obtain ⟨-, -, herrors, functions, -, hoperations⟩ := Context.declarationsFor_ok h
  obtain ⟨hall, -⟩ := Context.operationsFor_ok hoperations
  obtain ⟨op, hop, hof⟩ := Failing.exists_of_mem_right hall hmade
  obtain ⟨errors, herror, herrorsOf⟩ := Failing.exists_of_mem_left herrors hop
  have hname : errors.name = (Code.errorTypeIdent op.name).toText := by
    rw [OperationErrorDecl.name, herrorsOf.ident_eq]
  have hprovides := provides hkeyed hbindings h
  refine closed_operation hkeyed hprovides (fun root hroot ↦ roots_reachable hop hroot) ?_ ?_ hof
  · rw [← hname]
    constructor
    · rw [typeNames, (defines_code b).types_eq, List.map_append, List.map_map]
      exact List.mem_append_right _ (List.mem_map_of_mem herror)
    · exact mem_variantNames_error herror (List.mem_append_right _ (List.mem_singleton_self _))
  · intro shapes hshapes target htarget
    obtain ⟨others, hothers, hcases⟩ := herrorsOf.shapes
    obtain rfl : shapes = others := Except.ok.inj (hshapes.symm.trans hothers)
    obtain ⟨case, hcase, hvariant, -⟩ := Failing.exists_of_mem_left hcases htarget
    rw [← hname, ← hvariant]
    exact mem_variantNames_error herror (List.mem_append_left _ (List.mem_map_of_mem hcase))

/-- Whatever generated code mentions is known. -/
theorem closed_code : ∀ part ∈ b.code, Decl.Closed b.code part := by
  intro part hpart
  simp only [Bindings.code, List.mem_append, List.mem_flatMap] at hpart
  rcases hpart with ((⟨made, hmade, hmem⟩ | ⟨made, hmade, hmem⟩) | ⟨made, hmade, hmem⟩) |
    ⟨made, hmade, hmem⟩
  · exact closed_type hkeyed hsymbols hbindings h hmade part hmem
  · exact closed_errors h hmade part hmem
  · exact closed_decoder hkeyed hsymbols hbindings h hmade part hmem
  · exact closed_entryPoints hkeyed hbindings h hmade part hmem

end

/-! ## Marks aside -/

/-- A shape refers to another exactly when one of its edges leads there. -/
theorem mem_targets_iff {m : Model} {name target : String} :
    target ∈ targets m name ↔ ∃ slot, m.target? ⟨name, slot⟩ = some target := by
  have hrefAt (slot : Slot) : m.target? ⟨name, slot⟩ =
      ((m.shape? name).bind fun shape ↦ shape.ref? slot).map Reference.target := rfl
  simp only [hrefAt, targets]
  cases m.shape? name with
  | none => simp
  | some shape => simp [Shape.mem_refs_iff]

theorem leads_breakCycles (m : Model) : Leads m.breakCycles = Leads m := by
  have hstep : (fun a b ↦ b ∈ targets m.breakCycles a) = fun a b ↦ b ∈ targets m a := by
    funext a b
    rw [mem_targets_iff, mem_targets_iff, Model.target?_breakCycles]
  unfold Leads
  rw [hstep]

/-- What is reachable: everything if there are no operations, and otherwise what references lead to
from their inputs, outputs and errors. -/
theorem mem_reachable_cases {m : Model} {name : String} :
    name ∈ reachable m ↔
      if m.operations = [] then name ∈ m.shapes.keys
      else ∃ root ∈ m.operations.flatMap Operation.roots, Leads m root name := by
  split
  next hnone => simp [reachable, hnone]
  next hsome => exact mem_reachable_iff (List.isEmpty_eq_false_iff.mpr hsome)

theorem mem_reachable_breakCycles {m : Model} {name : String} :
    name ∈ reachable m.breakCycles ↔ name ∈ reachable m := by
  rw [mem_reachable_cases, mem_reachable_cases, Model.operations_breakCycles,
    Model.keys_breakCycles, leads_breakCycles]

theorem decoderFunctions_unmarked (shape : Shape) :
    decoderFunctions shape.unmarked = decoderFunctions shape := by
  cases hform : shape.form <;> simp [decoderFunctions, Shape.unmarked, hform, Form.unmarked]

/-- The functions that decode reachable shapes do not depend on marks. -/
theorem decoderFunctions_breakCycles (m : Model) :
    ((m.breakCycles.shapes.values.filter fun shape ↦ shape.name ∈ reachable m.breakCycles).flatMap
        decoderFunctions) =
      (m.shapes.values.filter fun shape ↦ shape.name ∈ reachable m).flatMap decoderFunctions := by
  have hpairs (shapes : List Shape) (reached : List String) :
      (shapes.filter fun shape ↦ shape.name ∈ reached).flatMap decoderFunctions =
        ((shapes.map fun shape ↦ (shape.name, decoderFunctions shape)).filter fun entry ↦
          entry.1 ∈ reached).flatMap Prod.snd := by
    simp [List.filter_map, List.flatMap_map, Function.comp_def]
  have hunmarked (shape : Shape) : (shape.unmarked.name, decoderFunctions shape.unmarked) =
      (shape.name, decoderFunctions shape) := by
    rw [decoderFunctions_unmarked]
    rfl
  rw [hpairs, hpairs, Model.map_values_breakCycles hunmarked]
  simp only [mem_reachable_breakCycles]

/-! ## Definitions and decoders -/

/-- Generated code defines whatever it mentions, and no name twice: types, functions, methods of a
type, and variants of a type are distinct as printed.  Its functions are decoders for just the shapes
that are reachable, and for the entries of maps, and then the entry points of the operations. -/
theorem code_defines {m : Model} {defaults : Defaults} (hkeyed : m.Keyed)
    (h : m.bindings defaults = .ok b) :
    (∀ part ∈ b.code, Decl.Closed b.code part) ∧
      ((typeNames b.code).Nodup ∧ (functionNames b.code).Nodup ∧ (methodNames b.code).Nodup ∧
        (variantNames b.code).Nodup) ∧
      functionNames b.code =
        ((m.shapes.values.filter fun shape ↦ shape.name ∈ reachable m).flatMap decoderFunctions ++
          m.operations.flatMap entryPoints).map Ident.toText ∧
      ∀ name, name ∈ reachable m ↔
        if m.operations = [] then name ∈ m.shapes.keys
        else ∃ root ∈ m.operations.flatMap Operation.roots, Leads m root name := by
  obtain ⟨ctx, hmodel, hdefaults, hsymbols, hbindings, hmade⟩ := exists_of_bindings h
  have hbroken : ctx.model.Keyed := hmodel ▸ hkeyed.breakCycles
  rw [← hdefaults] at hbindings
  refine ⟨closed_code hbroken hsymbols hbindings hmade, ⟨typeNames_nodup hmade,
    functionNames_nodup hbroken hbindings hmade, methodNames_nodup hmade,
    variantNames_nodup hmade⟩, ?_, fun name ↦ mem_reachable_cases⟩
  rw [functionNames_eq hbroken hbindings hmade, hmodel, decoderFunctions_breakCycles,
    Model.operations_breakCycles]

/-! ### A shelf of books -/

/-- Shapes of every form with decoders, and a drawer that the operation does not lead to. -/
def shelfModel : Model := .ofShapes [
  { name := "Shelf", form := .struct [{ name := "books", target := .to "Books" }] },
  { name := "Books", form := .list { target := .to "Book" } },
  { name := "Book", form := .struct [
    { name := "title", target := .to "String", required := true },
    { name := "genre", target := .to "Genre", isAttribute := true },
    { name := "notes", target := .to "Notes", flattened := true },
    { name := "sequel", target := .to "Book" }] },
  { name := "Genre", form := .enum [{ name := "novel" }, { name := "type" }] },
  { name := "Notes", form := .map { target := .to "String" } { target := .to "Note" } },
  { name := "Note", form := .union [
    { name := "text", target := .to "String" }, { name := "page", target := .to "Integer" }] },
  { name := "Drawer", form := .list { target := .to "String" } },
  { name := "NotFound", isError := true,
    form := .struct [{ name := "message", target := .to "String" }] }]
  [{ name := "GetShelf", output := some "Shelf", errors := ["NotFound"] }]

/-- What the operation leads to, the latest found first. -/
def shelfReached : List String :=
  ["Integer", "Note", "Notes", "Genre", "String", "Book", "Books", "Shelf", "NotFound"]

/-- The functions of code for the shelf. -/
def shelfFunctions : List String :=
  ["de_shelf", "de_books", "de_book", "de_notes", "de_notes_entry", "de_note", "de_not_found",
    "parse_get_shelf_output", "parse_get_shelf_error"]

/-- Code for the shelf defines whatever it mentions, and has decoders for all but the drawer. -/
theorem shelf_code_defines :
    shelfModel.Keyed ∧ ∃ b, shelfModel.bindings {} = .ok b ∧
      (∀ part ∈ b.code, Decl.Closed b.code part) ∧
      functionNames b.code = shelfFunctions := by
  have hkeyed : shelfModel.Keyed := by decide +kernel
  have hexhausts : Exhausts shelfModel.breakCycles shelfReached := by
    constructor <;> decide +kernel
  have hmade : (shelfModel.breakCycles.resolved {} >>= fun ctx ↦
      ctx.declarationsFor shelfReached).toOption.map (fun b ↦ functionNames b.code) =
        some shelfFunctions := by decide +kernel
  rw [← bindings_eq_of_exhausts hexhausts] at hmade
  cases hb : shelfModel.bindings {} with
  | error _ =>
    rw [hb] at hmade
    cases hmade
  | ok b =>
    rw [hb] at hmade
    exact ⟨hkeyed, b, rfl, (code_defines hkeyed hb).1, Option.some.inj hmade⟩

end Bindings

end WireShapes
