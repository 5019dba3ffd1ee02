import Mathlib.Data.List.Flatten
import WireShapes.Bindings.OperationCode
import WireShapes.Proofs.DecoderDecls
import WireShapes.Proofs.Mentions

/-!
# What generated code defines

The names that generated code defines, read off its declarations: types and functions as they were
claimed, and for every type its variants and methods.  In each of these scopes the printed names are
distinct.
-/

namespace WireShapes

open Code (Ident Ty Decl Part owned typeNames functionNames variantNames)
open Code (implementedNames methodNames)

/-! ## Names with owners -/

namespace Code

variable {entries : List (String × List String)} {owner name : String}

theorem mem_owned_iff : (owner, name) ∈ owned entries ↔ ∃ names, (owner, names) ∈ entries ∧
    name ∈ names := by
  unfold owned
  simp only [List.mem_flatMap, List.mem_map, Prod.mk.injEq]
  constructor
  · rintro ⟨⟨_, names⟩, hentry, _, hname, rfl, rfl⟩
    exact ⟨names, hentry, hname⟩
  · rintro ⟨names, hentry, hname⟩
    exact ⟨(owner, names), hentry, name, hname, rfl, rfl⟩

/-- Names are distinct with their owners if owners are, and each owner's names are. -/
theorem nodup_owned (howners : (entries.map Prod.fst).Nodup)
    (hnames : ∀ entry ∈ entries, entry.2.Nodup) : (owned entries).Nodup := by
  refine List.nodup_flatMap.mpr ⟨fun entry hentry ↦ ?_, ?_⟩
  · exact (hnames entry hentry).map fun _ _ heq ↦ (Prod.mk.inj heq).2
  · refine (List.pairwise_map.mp howners).imp fun {first second} hne ↦ ?_
    rintro named hfirst hsecond
    obtain ⟨_, -, hleft⟩ := List.mem_map.mp hfirst
    obtain ⟨_, -, hright⟩ := List.mem_map.mp hsecond
    exact hne ((congrArg Prod.fst hleft).trans (congrArg Prod.fst hright).symm)

variable {code : List Decl} {decl : Decl}

theorem mem_implementedNames {names : List String} (hdecl : decl ∈ code)
    (hnames : decl.functions? = some (owner, names)) (hname : name ∈ names) :
    (owner, name) ∈ implementedNames code :=
  mem_owned_iff.mpr ⟨names, List.mem_filterMap.mpr ⟨decl, hdecl, hnames⟩, hname⟩

/-- What a type has of its own is implemented for it. -/
theorem mem_implementedNames_of_mem_methodNames (h : (owner, name) ∈ methodNames code) :
    (owner, name) ∈ implementedNames code := by
  obtain ⟨names, hentry, hname⟩ := mem_owned_iff.mp h
  obtain ⟨decl, hdecl, hmethods⟩ := List.mem_filterMap.mp hentry
  cases decl with
  | implementation trait type members =>
    cases trait with
    | none => exact mem_implementedNames hdecl hmethods hname
    | some trait => cases hmethods
  | record | choice | fn => cases hmethods

@[simp]
theorem name?_named (name : String) : (Ty.named name).name? = some name := rfl

@[simp]
theorem name?_reference (region : Option String) (mutable : Bool) (inner : Ty) :
    (Ty.reference region mutable inner).name? = none := rfl

@[simp]
theorem name?_to (inner : Ty) : inner.to.name? = none := rfl

end Code

/-! ## Declarations one by one -/

namespace Bindings

/-- The names that a list of declarations defines, each with the type it belongs to. -/
structure Defines (code : List Decl) (types functions : List String)
    (variants methods : List (String × List String)) : Prop where
  types_eq : code.filterMap Decl.typeName? = types
  functions_eq : code.filterMap Decl.functionName? = functions
  variants_eq : code.filterMap Decl.variants? = variants
  methods_eq : code.filterMap Decl.methods? = methods

theorem functionName?_methods (field : Field) :
    field.methods.filterMap Part.functionName? = field.methodIdents.map Ident.toText := by
  unfold Field.methods Field.methodIdents
  cases field.adder with
  | none => rfl
  | some adder => cases adder <;> rfl

theorem functionName?_builderMethods (fields : List Field) :
    (fields.flatMap Field.methods).filterMap Part.functionName? =
      (fields.flatMap Field.methodIdents).map Ident.toText := by
  simp only [List.filterMap_flatMap, List.map_flatMap, functionName?_methods]

theorem defines_struct (decl : StructDecl) :
    Defines decl.code [decl.ident.toText, decl.builder.toText] []
      [] [(decl.ident.toText, ["builder"]),
        (decl.builder.toText,
          (decl.fields.flatMap Field.methodIdents).map Ident.toText ++ ["build"])] := by
  -- What is displayed comes after the rest, and defines nothing but for traits.
  have hmethods : (decl.fields.flatMap Field.methods ++ [decl.finish]).filterMap
      Part.functionName? =
        (decl.fields.flatMap Field.methodIdents).map Ident.toText ++ ["build"] := by
    rw [List.filterMap_append, functionName?_builderMethods]
    rfl
  rw [← hmethods]
  obtain ⟨shape, doc, ident, builder, fields, display⟩ := decl
  cases display <;> exact ⟨rfl, rfl, rfl, rfl⟩

theorem functionName?_accessors (decl : UnionDecl) (cases : List UnionCase) :
    (cases.flatMap decl.accessors).filterMap Part.functionName? =
      (cases.flatMap UnionCase.methodIdents).map Ident.toText := by
  simp only [List.filterMap_flatMap, List.map_flatMap]
  rfl

theorem defines_union (decl : UnionDecl) :
    Defines decl.code [decl.name] []
      [(decl.name, (decl.cases.map fun case ↦ case.variant.toText) ++ ["Unknown"])]
      [(decl.name, (decl.cases.flatMap UnionCase.methodIdents).map Ident.toText ++
        ["is_unknown"])] := by
  have hmethods : (decl.cases.flatMap decl.accessors ++ [decl.isUnknown]).filterMap
      Part.functionName? =
        (decl.cases.flatMap UnionCase.methodIdents).map Ident.toText ++ ["is_unknown"] := by
    rw [List.filterMap_append, functionName?_accessors]
    rfl
  rw [← hmethods]
  constructor
  · rfl
  · rfl
  · simp [UnionDecl.code, Decl.variants?, Function.comp_def]
  · rfl

theorem defines_enum (decl : EnumDecl) :
    Defines decl.code [decl.name] []
      [(decl.name, (decl.cases.map fun case ↦ case.variant.toText) ++ ["Unknown"])]
      [(decl.name, ["as_str", "values"])] := by
  constructor
  · rfl
  · rfl
  · simp [EnumDecl.code, Decl.variants?, Function.comp_def, displayFor]
  · rfl

theorem defines_error (decl : OperationErrorDecl) :
    Defines decl.code [decl.name] []
      [(decl.name, (decl.cases.map fun case ↦ case.variant.toText) ++ ["Unhandled"])] [] := by
  constructor
  · rfl
  · rfl
  · simp [OperationErrorDecl.code, Decl.variants?, Function.comp_def, displayFor, errorFor]
  · rfl

theorem defines_decoder (decl : DecoderDecl) :
    Defines decl.code [] (decl.functionIdents.map Ident.toText) [] [] := by
  cases decl <;> exact ⟨rfl, rfl, rfl, rfl⟩

theorem defines_operation (decl : OperationDecl) :
    Defines decl.code [] (decl.functionIdents.map Ident.toText) [] [] := by
  obtain ⟨operation, input, output, failure⟩ := decl
  cases input <;> cases output <;> exact ⟨rfl, rfl, rfl, rfl⟩

/-! ## All declarations -/

/-- The types that a declaration is written as. -/
def TypeDecl.typeIdents : TypeDecl → List Ident
  | .struct decl => [decl.ident, decl.builder]
  | .union decl => [decl.ident]
  | .enum decl => [decl.ident]

/-- The variants of the type that is declared. -/
def TypeDecl.variants : TypeDecl → List (String × List String)
  | .struct _ => []
  | .union decl => [(decl.name, (decl.cases.map fun case ↦ case.variant.toText) ++ ["Unknown"])]
  | .enum decl => [(decl.name, (decl.cases.map fun case ↦ case.variant.toText) ++ ["Unknown"])]

/-- The methods of the types that a declaration is written as. -/
def TypeDecl.methods : TypeDecl → List (String × List String)
  | .struct decl => [(decl.ident.toText, ["builder"]),
      (decl.builder.toText, (decl.fields.flatMap Field.methodIdents).map Ident.toText ++ ["build"])]
  | .union decl =>
    [(decl.name, (decl.cases.flatMap UnionCase.methodIdents).map Ident.toText ++ ["is_unknown"])]
  | .enum decl => [(decl.name, ["as_str", "values"])]

/-- The variants of an operation's errors. -/
def OperationErrorDecl.variants (decl : OperationErrorDecl) : String × List String :=
  (decl.name, (decl.cases.map fun case ↦ case.variant.toText) ++ ["Unhandled"])

theorem defines_type (decl : TypeDecl) :
    Defines decl.code (decl.typeIdents.map Ident.toText) [] decl.variants decl.methods := by
  cases decl with
  | struct decl => exact defines_struct decl
  | union decl => exact defines_union decl
  | enum decl => exact defines_enum decl

section

variable {code code' : List Decl} {types types' functions functions' : List String}
  {variants variants' methods methods' : List (String × List String)}

theorem Defines.append (h : Defines code types functions variants methods)
    (h' : Defines code' types' functions' variants' methods') :
    Defines (code ++ code') (types ++ types') (functions ++ functions') (variants ++ variants')
      (methods ++ methods') where
  types_eq := by rw [List.filterMap_append, h.types_eq, h'.types_eq]
  functions_eq := by rw [List.filterMap_append, h.functions_eq, h'.functions_eq]
  variants_eq := by rw [List.filterMap_append, h.variants_eq, h'.variants_eq]
  methods_eq := by rw [List.filterMap_append, h.methods_eq, h'.methods_eq]

end

theorem Defines.flatMap {α : Type} {codeOf : α → List Decl} {types functions : α → List String}
    {variants methods : α → List (String × List String)}
    (h : ∀ x, Defines (codeOf x) (types x) (functions x) (variants x) (methods x)) (xs : List α) :
    Defines (xs.flatMap codeOf) (xs.flatMap types) (xs.flatMap functions) (xs.flatMap variants)
      (xs.flatMap methods) where
  types_eq := by simp only [List.filterMap_flatMap, (h _).types_eq]
  functions_eq := by simp only [List.filterMap_flatMap, (h _).functions_eq]
  variants_eq := by simp only [List.filterMap_flatMap, (h _).variants_eq]
  methods_eq := by simp only [List.filterMap_flatMap, (h _).methods_eq]

variable {b : Bindings}

/-- What generated code defines. -/
theorem defines_code (b : Bindings) :
    Defines b.code
      ((b.types.flatMap TypeDecl.typeIdents ++ b.errors.map OperationErrorDecl.ident).map
        Ident.toText)
      ((b.decoders.flatMap DecoderDecl.functionIdents ++
        b.operations.flatMap OperationDecl.functionIdents).map Ident.toText)
      (b.types.flatMap TypeDecl.variants ++ b.errors.map OperationErrorDecl.variants)
      (b.types.flatMap TypeDecl.methods) := by
  have hall := (((Defines.flatMap defines_type b.types).append
    (.flatMap defines_error b.errors)).append (.flatMap defines_decoder b.decoders)).append
      (.flatMap defines_operation b.operations)
  have hnone {α β : Type} (xs : List α) : xs.flatMap (fun _ ↦ ([] : List β)) = [] := by simp
  simp only [hnone, List.append_nil, List.nil_append, ← List.map_eq_flatMap] at hall
  simp only [List.map_append, List.map_flatMap, List.map_map]
  exact hall

/-! ## Distinct names -/

variable {ctx : Context} {reached : List String}

theorem typeIdents_shape {shape : Shape} {made : TypeDecl} (h : TypeOf ctx shape (some made)) :
    made.typeIdents = (shapeTypes shape).map Prod.fst := by
  cases made with
  | struct decl =>
    obtain ⟨members, hform, hof⟩ := h
    simp [TypeDecl.typeIdents, shapeTypes, hform, hof.ident_eq, hof.builder_eq]
  | union decl =>
    obtain ⟨members, hform, hof⟩ := h
    simp [TypeDecl.typeIdents, shapeTypes, hform, hof.ident_eq]
  | enum decl =>
    obtain ⟨values, hform, hof⟩ := h
    simp [TypeDecl.typeIdents, shapeTypes, hform, hof.ident_eq]

/-- The types that are declared are those of the model. -/
theorem typeIdents_eq (h : ctx.declarationsFor reached = .ok b) :
    b.types.flatMap TypeDecl.typeIdents ++ b.errors.map OperationErrorDecl.ident =
      (modelTypes ctx.model).map Prod.fst := by
  obtain ⟨-, ⟨results, hresults, htypes⟩, herrors, -⟩ := Context.declarationsFor_ok h
  unfold modelTypes
  rw [List.map_append, htypes]
  congr 1
  · clear htypes
    generalize ctx.model.shapes.values = shapes at hresults
    induction hresults with
    | nil => rfl
    | @cons shape result _ _ hof _ ih =>
      rw [List.flatMap_cons, List.map_append, ← ih]
      cases result with
      | none =>
        have hform : shape.form.hasType = false := hof
        have hnone : shapeTypes shape = [] := by
          unfold shapeTypes
          cases hkind : shape.form <;> simp_all [Form.hasType]
        rw [hnone, List.reduceOption_cons_of_none]
        rfl
      | some made =>
        rw [List.reduceOption_cons_of_some, List.flatMap_cons, typeIdents_shape hof]
  · generalize ctx.model.operations = ops at herrors
    generalize b.errors = errors at herrors
    induction herrors with
    | nil => rfl
    | cons hof _ ih => simpa [hof.ident_eq] using ih

theorem typeNames_eq (h : ctx.declarationsFor reached = .ok b) :
    typeNames b.code = (modelTypes ctx.model).map fun entry ↦ entry.1.toText := by
  rw [typeNames, (defines_code b).types_eq, typeIdents_eq h, List.map_map]
  rfl

theorem typeNames_nodup (h : ctx.declarationsFor reached = .ok b) : (typeNames b.code).Nodup := by
  rw [typeNames_eq h]
  exact Context.claimTypes_nodup (Context.declarationsFor_ok h).1

/-- The functions that decoders are written as are those for the reached shapes. -/
theorem decoderIdents_eq (hkeyed : ctx.model.Keyed)
    (hbindings : BindingMap.ofModel ctx.model ctx.defaults = .ok ctx.bindings)
    (h : ctx.declarationsFor reached = .ok b) :
    b.decoders.flatMap DecoderDecl.functionIdents =
      (ctx.model.shapes.values.filter fun shape ↦ shape.name ∈ reached).flatMap
        decoderFunctions := by
  obtain ⟨-, -, -, functions, hdecoders, -⟩ := Context.declarationsFor_ok h
  exact (Context.decodersFor_ok hkeyed hbindings (fun _ hmem ↦ hmem) hdecoders).2.1

/-- The functions of generated code: those that decode reached shapes, and the entry points of the
operations. -/
theorem functionNames_eq (hkeyed : ctx.model.Keyed)
    (hbindings : BindingMap.ofModel ctx.model ctx.defaults = .ok ctx.bindings)
    (h : ctx.declarationsFor reached = .ok b) :
    functionNames b.code =
      ((ctx.model.shapes.values.filter fun shape ↦ shape.name ∈ reached).flatMap decoderFunctions ++
        ctx.model.operations.flatMap entryPoints).map Ident.toText := by
  obtain ⟨-, -, -, functions, -, hoperations⟩ := Context.declarationsFor_ok h
  have hentries : b.operations.flatMap OperationDecl.functionIdents =
      ctx.model.operations.flatMap entryPoints := by
    have hmap := Failing.map_eq_map (Context.operationsFor_ok hoperations).1 fun hof ↦
      hof.functionIdents_eq.symm
    rw [List.flatMap_def, List.flatMap_def, hmap]
  rw [functionNames, (defines_code b).functions_eq, decoderIdents_eq hkeyed hbindings h, hentries]

theorem functionNames_nodup (hkeyed : ctx.model.Keyed)
    (hbindings : BindingMap.ofModel ctx.model ctx.defaults = .ok ctx.bindings)
    (h : ctx.declarationsFor reached = .ok b) : (functionNames b.code).Nodup := by
  obtain ⟨-, -, -, functions, hdecoders, hoperations⟩ := Context.declarationsFor_ok h
  obtain ⟨-, -, hfirst⟩ := Context.decodersFor_ok hkeyed hbindings (fun _ hshape ↦ hshape) hdecoders
  obtain ⟨-, after, hsecond⟩ := Context.operationsFor_ok hoperations
  rw [functionNames, (defines_code b).functions_eq]
  exact (hfirst.trans hsecond).nodup_map

theorem variants_owners_sublist (b : Bindings) :
    ((b.types.flatMap TypeDecl.variants ++ b.errors.map OperationErrorDecl.variants).map
      Prod.fst).Sublist (typeNames b.code) := by
  have htypes (made : TypeDecl) :
      (made.variants.map Prod.fst).Sublist (made.typeIdents.map Ident.toText) := by
    cases made with
    | struct decl => exact List.nil_sublist _
    | union decl | enum decl => exact .refl _
  rw [typeNames, (defines_code b).types_eq, List.map_append, List.map_append, List.map_flatMap,
    List.map_flatMap]
  apply List.Sublist.append
  · exact List.Sublist.flatMap_right _ fun made _ ↦ htypes made
  · rw [List.map_map, List.map_map]
    exact .refl _

theorem variantNames_nodup (h : ctx.declarationsFor reached = .ok b) :
    (variantNames b.code).Nodup := by
  rw [variantNames, (defines_code b).variants_eq]
  apply Code.nodup_owned ((variants_owners_sublist b).nodup (typeNames_nodup h))
  intro entry hentry
  rcases List.mem_append.mp hentry with hmem | hmem
  · obtain ⟨made, hmade, hmem⟩ := List.mem_flatMap.mp hmem
    obtain ⟨shape, -, hof⟩ := Context.exists_shape_of_mem_types h hmade
    cases made with
    | struct decl => cases hmem
    | union decl =>
      obtain ⟨members, -, hof⟩ := hof
      obtain rfl := List.mem_singleton.mp hmem
      exact hof.variants_nodup
    | enum decl =>
      obtain ⟨values, -, hof⟩ := hof
      obtain rfl := List.mem_singleton.mp hmem
      exact hof.variants_nodup
  · obtain ⟨made, hmade, rfl⟩ := List.mem_map.mp hmem
    obtain ⟨-, -, herrors, -⟩ := Context.declarationsFor_ok h
    obtain ⟨op, -, hof⟩ := Failing.exists_of_mem_right herrors hmade
    exact (List.perm_append_singleton _ _).nodup_iff.mpr hof.variants_nodup

/-- Names after one that is printed as it stands are distinct from it, as those before it are. -/
theorem nodup_append_plain {idents : List Ident} {word : String} (hplain : Plain word)
    (h : ((Ident.ofText word :: idents).map Ident.toText).Nodup) :
    (idents.map Ident.toText ++ [word]).Nodup := by
  rw [List.map_cons, toText_ofText_of_plain hplain] at h
  exact (List.perm_append_singleton _ _).nodup_iff.mpr h

theorem methodNames_nodup (h : ctx.declarationsFor reached = .ok b) :
    (methodNames b.code).Nodup := by
  rw [methodNames, (defines_code b).methods_eq]
  apply Code.nodup_owned
  · have howners (made : TypeDecl) :
        made.methods.map Prod.fst = made.typeIdents.map Ident.toText := by cases made <;> rfl
    have hall := typeNames_nodup h
    rw [typeNames, (defines_code b).types_eq, List.map_append, List.map_flatMap] at hall
    rw [List.map_flatMap]
    simp only [howners]
    exact hall.of_append_left
  · intro entry hentry
    obtain ⟨made, hmade, hmem⟩ := List.mem_flatMap.mp hentry
    obtain ⟨shape, -, hof⟩ := Context.exists_shape_of_mem_types h hmade
    cases made with
    | struct decl =>
      obtain ⟨members, -, hof⟩ := hof
      rcases List.mem_cons.mp hmem with rfl | hmem
      · exact List.nodup_singleton _
      · obtain rfl := List.mem_singleton.mp hmem
        exact nodup_append_plain (by decide) hof.methods_nodup
    | union decl =>
      obtain ⟨members, -, hof⟩ := hof
      obtain rfl := List.mem_singleton.mp hmem
      exact nodup_append_plain (by decide) hof.methods_nodup
    | enum decl =>
      obtain rfl := List.mem_singleton.mp hmem
      change ["as_str", "values"].Nodup
      decide

end Bindings

end WireShapes
