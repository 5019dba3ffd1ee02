import WireShapes.Proofs.Definitions

/-!
# Generated code refers to what it defines

Whatever a declaration of generated code mentions is known once the names are that it is made of:
its own types, the types of what it holds, and the functions and methods that it calls.
-/

namespace WireShapes

open Code (Ident Ty Expr Decl Part Mention typeNames functionNames variantNames implementedNames)

namespace Bindings

variable {code : List Decl}

/-! ## Phrases -/

theorem closed_named {name : String} (h : name ∈ typeNames code) :
    Ty.Closed code (.named name) := by
  simp [Ty.Closed, Mention.Known, h]

theorem closed_kindType (kind : Scalar.Kind) : Ty.Closed code (kindType kind) := by
  cases kind <;> simp [Ty.Closed, kindType, std, wire, Mention.Known, Code.builtinTypes]

theorem closed_optionOf {type : Ty} (h : Ty.Closed code type) : Ty.Closed code (optionOf type) := by
  simpa [Ty.Closed, optionOf, std] using h

/-- A type is known if the types it is written for are. -/
theorem closed_tree {type : TypeExpr}
    (h : ∀ held ∈ type.held true, (Ident.ofText held).toText ∈ typeNames code) :
    Ty.Closed code type.tree := by
  induction type with
  | scalar kind => exact closed_kindType kind
  | vec item ih =>
    have hitem := ih h
    simpa [Ty.Closed, TypeExpr.tree, std] using hitem
  | hashMap key value ihKey ihValue =>
    have hkey := ihKey fun held hheld ↦ h held (List.mem_append_left _ hheld)
    have hvalue := ihValue fun held hheld ↦ h held (List.mem_append_right _ hheld)
    simpa [Ty.Closed, TypeExpr.tree, std, or_imp, forall_and] using ⟨hkey, hvalue⟩
  | named held => exact closed_named (h held (List.mem_singleton_self held))
  | boxed inner ih =>
    have hinner := ih h
    simpa [Ty.Closed, TypeExpr.tree, std] using hinner

/-- The implementation of displaying, where the statements mention what is known. -/
theorem closed_displayFor {name : String} {body : List Code.Stmt} (hname : name ∈ typeNames code)
    (hbody : ∀ mention ∈ Code.Stmt.mentionsIn body, Mention.Known code [("self", name)] mention) :
    Decl.Closed code (displayFor (.named name) body) := by
  refine ⟨by simp [Ty.Closed, std], closed_named hname, ?_⟩
  simp only [List.mem_singleton, forall_eq, displayMethod]
  intro mention hmention
  simp [formatter, std] at hmention
  exact hbody mention hmention

theorem closed_errorFor {name : String} (hname : name ∈ typeNames code) :
    Decl.Closed code (errorFor (.named name)) :=
  ⟨by simp [Ty.Closed, std], closed_named hname, by simp⟩

/-! ## Types -/

/-- What a field mentions is known. -/
def Field.Closed (code : List Decl) (field : Field) : Prop :=
  Ty.Closed code field.type.tree ∧ ∀ adder ∈ field.adder,
    match adder with
    | .push _ item => Ty.Closed code item.tree
    | .insert _ key value => Ty.Closed code key.tree ∧ Ty.Closed code value.tree

theorem closed_methods {field : Field} (h : field.Closed code) (self : Option String) :
    ∀ part ∈ field.methods, Part.Closed code self part := by
  obtain ⟨htype, hadder⟩ := h
  intro part hpart
  simp only [Field.methods, List.mem_append, List.mem_cons, List.not_mem_nil, or_false,
    List.mem_map, Option.mem_toList] at hpart
  rcases hpart with (rfl | rfl | rfl) | ⟨adder, hmem, rfl⟩
  · simpa [Part.Closed, Code.Fn.Closed, Field.builderMethod, Field.ofSelf, selfType, or_imp,
      forall_and] using htype.known _
  · simpa [Part.Closed, Code.Fn.Closed, Field.builderMethod, Field.ofSelf, selfType, optionOf, std,
      or_imp, forall_and] using htype.known _
  · simpa [Part.Closed, Code.Fn.Closed, Field.ofSelf, optionOf, std] using htype.known _
  · have hadder := hadder adder hmem
    cases adder with
    | push method item =>
      simpa [Part.Closed, Code.Fn.Closed, Field.adderMethod, Field.builderMethod, Field.addTo,
        Field.ofSelf, selfType, defaultValue, std, or_imp, forall_and] using hadder.known _
    | insert method key value =>
      simpa [Part.Closed, Code.Fn.Closed, Field.adderMethod, Field.builderMethod, Field.addTo,
        Field.ofSelf, selfType, defaultValue, std, or_imp, forall_and]
        using ⟨hadder.1.known _, hadder.2.known _⟩

theorem mentions_built (shape : String) (field : Field) : (field.built shape).mentions = [] := by
  unfold Field.built
  split <;> simp [Field.ofSelf, wire]

/-- Displaying a structure mentions nothing but what the language has. -/
theorem known_display {shape owner : String} {display : Display} :
    ∀ mention ∈ Code.Stmt.mentionsIn (display.statements shape),
      Mention.Known code [("self", owner)] mention := by
  have hwrite : Mention.Known code [("self", owner)] (.method "f" "write_str") := by
    simp [Mention.Known]
  unfold Display.statements
  cases display.message with
  | none => simp [hwrite]
  | some field =>
    by_cases hrequired : field.required
    · simp [hrequired, writeAfterColon, Field.ofSelf, hwrite]
    · simp [hrequired, writeAfterColon, Field.ofSelf, hwrite]

theorem closed_struct {decl : StructDecl} (hident : decl.ident.toText ∈ typeNames code)
    (hbuilder : decl.builder.toText ∈ typeNames code)
    (hfields : ∀ field ∈ decl.fields, field.Closed code) :
    ∀ part ∈ decl.code, Decl.Closed code part := by
  have htype : Ty.Closed code decl.type := closed_named hident
  have hbuilderType : Ty.Closed code decl.builderType := closed_named hbuilder
  have hown (receivers : List (String × String)) :
      Mention.Known code receivers (.type decl.ident.toText) := .inr hident
  intro part hpart
  simp only [StructDecl.code, List.mem_append, List.mem_cons, List.not_mem_nil, or_false,
    List.mem_flatMap] at hpart
  rcases hpart with (rfl | rfl | rfl | rfl) | ⟨display, -, rfl | rfl⟩
  · intro recordField hmem
    obtain ⟨field, hfield, rfl⟩ := List.mem_map.mp hmem
    change Ty.Closed code field.fieldType
    unfold Field.fieldType
    split
    · exact (hfields field hfield).1
    · exact closed_optionOf (hfields field hfield).1
  · refine ⟨by simp, htype, ?_⟩
    simpa [Part.Closed, StructDecl.start, Code.Fn.Closed, or_imp, forall_and]
      using hbuilderType.known _
  · intro recordField hmem
    obtain ⟨field, hfield, rfl⟩ := List.mem_map.mp hmem
    exact closed_optionOf (hfields field hfield).1
  · refine ⟨by simp, hbuilderType, fun method hmethod ↦ ?_⟩
    rcases List.mem_append.mp hmethod with hmethod | hmethod
    · obtain ⟨field, hfield, hmem⟩ := List.mem_flatMap.mp hmethod
      exact closed_methods (hfields field hfield) _ method hmem
    · obtain rfl := List.mem_singleton.mp hmethod
      have hbuilt : Code.Field.mentionsIn (decl.fields.map (Field.built decl.shape)) = [] := by
        simp [Code.Field.mentionsIn_eq, mentions_built]
      simpa [Part.Closed, StructDecl.finish, Code.Fn.Closed, resultOf, std, wire, or_imp,
        forall_and, hbuilt, hown] using htype.known _
  · exact closed_displayFor hident known_display
  · exact closed_errorFor hident

theorem closed_accessors {decl : UnionDecl} {case : UnionCase}
    (htype : Ty.Closed code case.type.tree) (hvariant : (decl.name, case.variant.toText) ∈ variantNames code)
    (hmethod : (decl.name, case.asMethod.toText) ∈ implementedNames code) :
    ∀ part ∈ decl.accessors case, Part.Closed code decl.type.name? part := by
  have hmatch (receivers : List (String × String)) :
      Mention.Known code receivers (.variant decl.name case.variant.toText) := hvariant
  have hcall : Mention.Known code [("self", decl.name)] (.method "self" case.asMethod.toText) := by
    simpa [Mention.Known] using hmethod
  intro part hpart
  simp only [UnionDecl.accessors, List.mem_cons, List.not_mem_nil, or_false] at hpart
  rcases hpart with rfl | rfl
  · simpa [Part.Closed, Code.Fn.Closed, resultOf, std, selfType, or_imp, forall_and, hmatch] using
      htype.known _
  · simp [Part.Closed, Code.Fn.Closed, Code.Fn.receivers, Code.Parameter.receiver?,
      List.filterMap_cons, UnionDecl.type, hcall]

theorem closed_union {decl : UnionDecl} (hident : decl.name ∈ typeNames code)
    (htypes : ∀ case ∈ decl.cases, Ty.Closed code case.type.tree)
    (hvariants : ∀ case ∈ decl.cases, (decl.name, case.variant.toText) ∈ variantNames code)
    (hunknown : (decl.name, "Unknown") ∈ variantNames code)
    (hmethods : ∀ case ∈ decl.cases, (decl.name, case.asMethod.toText) ∈ implementedNames code) :
    ∀ part ∈ decl.code, Decl.Closed code part := by
  have hmatch (receivers : List (String × String)) :
      Mention.Known code receivers (.member decl.name "Unknown") := .inr (.inl hunknown)
  intro part hpart
  simp only [UnionDecl.code, List.mem_cons, List.not_mem_nil, or_false] at hpart
  rcases hpart with rfl | rfl
  · intro variant hvariant type htype
    rcases List.mem_append.mp hvariant with hmem | hmem
    · obtain ⟨case, hcase, rfl⟩ := List.mem_map.mp hmem
      obtain rfl := Option.some.inj htype
      exact htypes case hcase
    · obtain rfl := List.mem_singleton.mp hmem
      cases htype
  · refine ⟨by simp, closed_named hident, fun method hmethod ↦ ?_⟩
    rcases List.mem_append.mp hmethod with hmem | hmem
    · obtain ⟨case, hcase, hmem⟩ := List.mem_flatMap.mp hmem
      exact closed_accessors (htypes case hcase) (hvariants case hcase) (hmethods case hcase) _ hmem
    · obtain rfl := List.mem_singleton.mp hmem
      simp [Part.Closed, UnionDecl.isUnknown, Code.Fn.Closed, hmatch]

/-- A method that is called on a variable other than the object is not looked for. -/
theorem known_other {receiver owner name : String} (h : receiver ≠ "self") :
    Mention.Known code [("self", owner)] (.method receiver name) := by
  simp [Mention.Known, h]

theorem closed_enum {decl : EnumDecl} (hident : decl.name ∈ typeNames code)
    (hvariants : ∀ case ∈ decl.cases, (decl.name, case.variant.toText) ∈ variantNames code)
    (hunknown : (decl.name, "Unknown") ∈ variantNames code)
    (hasText : (decl.name, "as_str") ∈ implementedNames code)
    (hfrom : (decl.name, "from") ∈ implementedNames code) :
    ∀ part ∈ decl.code, Decl.Closed code part := by
  have herr (receivers : List (String × String)) :
      Mention.Known code receivers (.member "Self" "Err") := .inl (by decide)
  have hcall : Mention.Known code [("self", decl.name)] (.method "self" "as_str") := by
    simpa [Mention.Known] using hasText
  have hother {receiver name : String} (h : receiver ≠ "self") :
      Mention.Known code [("self", decl.name)] (.method receiver name) := known_other h
  have hmatch (receivers : List (String × String)) : ∀ mention, ∀ case ∈ decl.cases,
      mention = .variant decl.name case.variant.toText → Mention.Known code receivers mention := by
    rintro _ case hcase rfl
    exact hvariants case hcase
  have hmake (receivers : List (String × String)) : ∀ mention, ∀ case ∈ decl.cases,
      mention = .member decl.name case.variant.toText → Mention.Known code receivers mention := by
    rintro _ case hcase rfl
    exact .inr (.inl (hvariants case hcase))
  have hrest (receivers : List (String × String)) :
      Mention.Known code receivers (.variant decl.name "Unknown") ∧
        Mention.Known code receivers (.member decl.name "Unknown") ∧
        Mention.Known code receivers (.member decl.name "from") :=
    ⟨hunknown, .inr (.inl hunknown), .inr (.inr hfrom)⟩
  intro part hpart
  simp only [EnumDecl.code, List.mem_cons, List.not_mem_nil, or_false] at hpart
  rcases hpart with rfl | rfl | rfl | rfl | rfl | rfl
  · intro variant hvariant type htype
    rcases List.mem_append.mp hvariant with hmem | hmem
    · obtain ⟨case, hcase, rfl⟩ := List.mem_map.mp hmem
      cases htype
    · obtain rfl := List.mem_singleton.mp hmem
      obtain rfl := Option.some.inj htype
      exact closed_kindType .string
  · refine ⟨by simp, closed_named hident, ?_⟩
    simp only [List.mem_cons, List.not_mem_nil, or_false, forall_eq_or_imp, forall_eq]
    constructor
    · simpa [Part.Closed, EnumDecl.asText, Code.Fn.Closed, Code.Fn.receivers,
        Code.Parameter.receiver?, List.filterMap_cons, EnumDecl.type, EnumDecl.textType,
        EnumDecl.variantPath, EnumDecl.unknownPath, Code.Arm.mentionsIn_eq, or_imp, forall_and,
        hother, hrest] using hmatch _
    · simp [Part.Closed, EnumDecl.allTexts, Code.Fn.Closed, Code.Expr.mentionsIn_eq]
  · refine ⟨by simp [Ty.Closed, EnumDecl.textType, std], closed_named hident, ?_⟩
    simpa [Part.Closed, EnumDecl.fromText, Code.Fn.Closed, Code.Fn.receivers,
      Code.Parameter.receiver?, List.filterMap_cons, EnumDecl.type, EnumDecl.textType,
      selfType, EnumDecl.variantPath, EnumDecl.unknownPath, Code.Arm.mentionsIn_eq, or_imp,
      forall_and, hother, hrest] using hmake _
  · refine ⟨by simp [Ty.Closed, std], closed_named hident, ?_⟩
    simp only [EnumDecl.parsing, List.mem_cons, List.not_mem_nil, or_false, forall_eq_or_imp,
      forall_eq]
    constructor
    · simp [Part.Closed, Ty.Closed, std]
    · simp [Part.Closed, Code.Fn.Closed, EnumDecl.textType, selfType, resultOf, std, herr, hrest]
  · refine ⟨by simp [Ty.Closed, std], closed_named hident, ?_⟩
    simp [Part.Closed, EnumDecl.asReference, Code.Fn.Closed, Code.Fn.receivers,
      Code.Parameter.receiver?, List.filterMap_cons, EnumDecl.type, EnumDecl.textType, hcall]
  · apply closed_displayFor hident
    simp [hother, hcall]

/-! ## Errors of operations -/

theorem closed_error {decl : OperationErrorDecl} (hident : decl.name ∈ typeNames code)
    (htypes : ∀ case ∈ decl.cases, Ty.Closed code case.type.tree)
    (hvariants : ∀ case ∈ decl.cases, (decl.name, case.variant.toText) ∈ variantNames code)
    (hunhandled : (decl.name, "Unhandled") ∈ variantNames code) :
    ∀ part ∈ decl.code, Decl.Closed code part := by
  have hmatch : ∀ mention, ∀ case ∈ decl.cases,
      mention = .variant decl.name case.variant.toText →
        Mention.Known code [("self", decl.name)] mention := by
    rintro _ case hcase rfl
    exact hvariants case hcase
  have hlast : Mention.Known code [("self", decl.name)] (.variant decl.name "Unhandled") :=
    hunhandled
  intro part hpart
  simp only [OperationErrorDecl.code, List.mem_cons, List.not_mem_nil, or_false] at hpart
  rcases hpart with rfl | rfl | rfl
  · intro variant hvariant type htype
    rcases List.mem_append.mp hvariant with hmem | hmem
    · obtain ⟨case, hcase, rfl⟩ := List.mem_map.mp hmem
      obtain rfl := Option.some.inj htype
      exact htypes case hcase
    · obtain rfl := List.mem_singleton.mp hmem
      obtain rfl := Option.some.inj htype
      simp [Ty.Closed, wire]
  · apply closed_displayFor hident
    simpa [OperationErrorDecl.displayArm, Code.Arm.mentionsIn_eq, std, or_imp, forall_and, hlast]
      using hmatch
  · exact closed_errorFor hident

end Bindings

end WireShapes
