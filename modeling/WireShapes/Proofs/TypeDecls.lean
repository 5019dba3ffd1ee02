import Mathlib.Data.List.ReduceOption
import WireShapes.Bindings.OfModel
import WireShapes.Proofs.Claims
import WireShapes.Proofs.Symbols

/-!
# Declared types

What the declarations of types say, once they have been made: where every identifier and type in
them comes from, and which of the identifiers are distinct as printed.
-/

namespace WireShapes.Bindings

open Code (Ident)

/-! ## Plain words -/

/-- A word that is printed as it stands, and that no other word is printed as. -/
def Plain (word : String) : Prop :=
  word ∉ Code.neverRaw ∧ word ∉ Code.keywords ∧ word ∉ Code.neverRaw.map (· ++ "_") ∧
    word ∉ Code.keywords.map ("r#" ++ ·)

instance (word : String) : Decidable (Plain word) := by
  unfold Plain
  infer_instance

theorem toText_ofText_of_plain {word : String} (h : Plain word) :
    (Ident.ofText word).toText = word := by
  simp [Ident.ofText, Ident.toText, h.1, h.2.1]

theorem eq_of_toText_eq_plain {word plain : String} (h : Plain plain)
    (htext : (Ident.ofText word).toText = plain) : word = plain := by
  obtain ⟨-, -, hnever, hraw⟩ := h
  unfold Ident.ofText at htext
  split at htext
  · exact absurd (List.mem_map.mpr ⟨word, by assumption, htext⟩) hnever
  · split at htext
    · have hmem : plain ∈ Code.keywords.map ("r#" ++ ·) :=
        List.mem_map.mpr ⟨word, by assumption, by simpa [Ident.toText] using htext⟩
      exact absurd hmem hraw
    · exact htext

/-! ## Looking things up -/

namespace Context

variable {ctx : Context} {owner shape : Shape} {ref : Reference} {op : Operation}

theorem targetOf_ok (h : ctx.targetOf owner ref = .ok shape) :
    ctx.model.shape? ref.target = some shape := by
  unfold targetOf at h
  split at h
  next heq => rw [heq, Except.ok.inj h]
  next => cases h

theorem typeAt_ok {type : TypeExpr} (h : ctx.typeAt owner ref = .ok type) :
    ∃ symbol, ctx.symbols.shape? ref.target = some symbol ∧
      type = (symbol.forReference ref.indirect).type := by
  unfold typeAt at h
  split at h
  next symbol heq =>
    obtain ⟨found, hfound, rfl⟩ := Option.map_eq_some_iff.mp heq
    exact ⟨found, hfound, (Except.ok.inj h).symm⟩
  next => cases h

theorem typeOf_ok {type : TypeExpr} (h : ctx.typeOf shape = .ok type) :
    ∃ symbol, ctx.symbols.shape? shape.name = some symbol ∧ type = symbol.type := by
  unfold typeOf at h
  split at h
  next symbol hsymbol => exact ⟨symbol, hsymbol, (Except.ok.inj h).symm⟩
  next => cases h

theorem structNamed_ok {name : String} (h : ctx.structNamed op name = .ok shape) :
    ctx.model.shape? name = some shape ∧ ∃ members, shape.form = .struct members := by
  unfold structNamed at h
  split at h
  next found hfound =>
    split at h
    next members hform =>
      obtain rfl := Except.ok.inj h
      exact ⟨hfound, members, hform⟩
    next => cases h
  next => cases h

/-- The error structures of an operation are structures that it names. -/
theorem addErrors_ok {found shapes : List Shape} {names : List String}
    (h : ctx.addErrors op found names = .ok shapes) (hshape : shape ∈ shapes) :
    shape ∈ found ∨ ∃ name ∈ names, ctx.model.shape? name = some shape ∧
      ∃ members, shape.form = .struct members := by
  induction names generalizing found with
  | nil =>
    obtain rfl := Except.ok.inj h
    exact .inl hshape
  | cons name rest ih =>
    unfold addErrors at h
    obtain ⟨next, hnext, hrest⟩ := Failing.bind_eq_ok.mp h
    have hmore (hlast : shape ∈ found ++ [next] ∨ ∃ name ∈ rest,
        ctx.model.shape? name = some shape ∧ ∃ members, shape.form = .struct members) :
        shape ∈ found ∨ ∃ name' ∈ name :: rest, ctx.model.shape? name' = some shape ∧
          ∃ members, shape.form = .struct members := by
      rcases hlast with hlast | ⟨name', hname', hfound⟩
      · rcases List.mem_append.mp hlast with hmem | hmem
        · exact .inl hmem
        · obtain rfl := List.mem_singleton.mp hmem
          exact .inr ⟨name, List.mem_cons_self, structNamed_ok hnext⟩
      · exact .inr ⟨name', List.mem_cons_of_mem _ hname', hfound⟩
    split at hrest
    · rcases ih hrest with hmem | hmem
      · exact .inl hmem
      · exact hmore (.inr hmem)
    · exact hmore (ih hrest)

theorem errorShapes_ok {shapes : List Shape} (h : ctx.errorShapes op = .ok shapes)
    (hshape : shape ∈ shapes) :
    ∃ name ∈ op.errors, ctx.model.shape? name = some shape ∧
      ∃ members, shape.form = .struct members :=
  (addErrors_ok h hshape).resolve_left List.not_mem_nil

end Context

/-! ## Structures -/

def Adder.method : Adder → Ident
  | .push method _ => method
  | .insert method _ _ => method

/-- The builder methods of a field. -/
def Field.methodIdents (field : Field) : List Ident :=
  [field.ident, field.setter, field.getter] ++ field.adder.toList.map Adder.method

/-- A member which targets a collection has a method that adds to it. -/
def AdderOf (ctx : Context) (member : Member) (adder : Option Adder) : Prop :=
  ∃ target, ctx.model.shape? member.target.target = some target ∧
    match target.form with
    | .list item => ∃ type, ctx.typeAt target item.target = .ok type ∧
        adder = some (.push (Code.functionIdent "push_" member.name "") type)
    | .map key value => ∃ keyType valueType, ctx.typeAt target key.target = .ok keyType ∧
        ctx.typeAt target value.target = .ok valueType ∧
        adder = some (.insert (Code.functionIdent "insert_" member.name "") keyType valueType)
    | _ => adder = none

/-- The field for a member. -/
structure FieldOf (ctx : Context) (owner : Shape) (member : Member) (field : Field) : Prop where
  member_eq : field.member = member.name
  ident_eq : field.ident = Code.snakeIdent member.name
  setter_eq : field.setter = Code.functionIdent "set_" member.name ""
  getter_eq : field.getter = Code.functionIdent "get_" member.name ""
  type_eq : ctx.typeAt owner member.target = .ok field.type
  adder : AdderOf ctx member field.adder

/-- The declaration of a structure. -/
structure StructOf (ctx : Context) (shape : Shape) (members : List Member) (decl : StructDecl) :
    Prop where
  ident_eq : decl.ident = Code.camelIdent shape.name
  builder_eq : decl.builder = Code.builderTypeIdent shape.name
  fields : List.Forall₂ (FieldOf ctx shape) members decl.fields
  methods_nodup :
    ((Ident.ofText "build" :: decl.fields.flatMap Field.methodIdents).map Ident.toText).Nodup
  display : ∀ display ∈ decl.display, ∀ field ∈ display.message, field ∈ decl.fields

/-- The fields of a structure have different identifiers. -/
theorem StructOf.fields_nodup {ctx : Context} {shape : Shape} {members : List Member}
    {decl : StructDecl} (h : StructOf ctx shape members decl) :
    (decl.fields.map fun field ↦ field.ident.toText).Nodup := by
  have hsublist (fields : List Field) :
      (fields.map Field.ident).Sublist (fields.flatMap Field.methodIdents) := by
    induction fields with
    | nil => exact .refl _
    | cons field rest ih =>
      have hfirst : [field.ident].Sublist field.methodIdents :=
        List.singleton_sublist.mpr List.mem_cons_self
      exact hfirst.append ih
  have hnodup := (List.nodup_cons.mp h.methods_nodup).2.sublist
    ((hsublist decl.fields).map Ident.toText)
  rwa [List.map_map] at hnodup

/-- The members of a structure have different names, because their fields do. -/
theorem StructOf.members_nodup {ctx : Context} {shape : Shape} {members : List Member}
    {decl : StructDecl} (h : StructOf ctx shape members decl) :
    (members.map Member.name).Nodup := by
  have hfields : (members.map fun member ↦ (Code.snakeIdent member.name).toText) =
      decl.fields.map fun field ↦ field.ident.toText :=
    Failing.map_eq_map h.fields fun hfield ↦ by rw [hfield.ident_eq]
  have hnodup := h.fields_nodup
  rw [← hfields] at hnodup
  exact List.Nodup.of_map (fun name ↦ (Code.snakeIdent name).toText) (by rwa [List.map_map])

namespace Context

variable {ctx : Context} {owner shape : Shape} {members : List Member}

theorem adder?_ok {member : Member} {methods after : Claims} {adder : Option Adder}
    (h : ctx.adder? owner member methods = .ok (adder, after)) :
    AdderOf ctx member adder ∧ methods.Adds (adder.toList.map Adder.method) after := by
  unfold adder? at h
  obtain ⟨target, htarget, h⟩ := Failing.bind_eq_ok.mp h
  have hfound := targetOf_ok htarget
  cases hform : target.form with
  | list item =>
    rw [hform] at h
    obtain ⟨claimed, hclaimed, h⟩ := Failing.bind_eq_ok.mp h
    obtain ⟨type, htype, h⟩ := Failing.bind_eq_ok.mp h
    cases h
    exact ⟨⟨target, hfound, by simp [hform, htype]⟩, Claims.claim_adds hclaimed⟩
  | map key value =>
    rw [hform] at h
    obtain ⟨claimed, hclaimed, h⟩ := Failing.bind_eq_ok.mp h
    obtain ⟨keyType, hkey, h⟩ := Failing.bind_eq_ok.mp h
    obtain ⟨valueType, hvalue, h⟩ := Failing.bind_eq_ok.mp h
    cases h
    exact ⟨⟨target, hfound, by simp [hform, hkey, hvalue]⟩, Claims.claim_adds hclaimed⟩
  | scalar kind | struct members | union members | enum values =>
    rw [hform] at h
    cases h
    exact ⟨⟨target, hfound, by simp [hform]⟩, .refl _⟩

theorem fields_ok {methods : Claims} {fields : List Field}
    (h : ctx.fields owner methods members = .ok fields) :
    List.Forall₂ (FieldOf ctx owner) members fields ∧
      ∃ after, methods.Adds (fields.flatMap Field.methodIdents) after := by
  induction members generalizing methods fields with
  | nil =>
    obtain rfl := Except.ok.inj h
    exact ⟨.nil, methods, .refl _⟩
  | cons member rest ih =>
    unfold Context.fields at h
    obtain ⟨named, hnamed, h⟩ := Failing.bind_eq_ok.mp h
    obtain ⟨type, htype, h⟩ := Failing.bind_eq_ok.mp h
    obtain ⟨⟨adder, added⟩, hadder, h⟩ := Failing.bind_eq_ok.mp h
    obtain ⟨tail, htail, h⟩ := Failing.bind_eq_ok.mp h
    obtain rfl := Except.ok.inj h
    obtain ⟨hadderOf, hadds⟩ := adder?_ok hadder
    obtain ⟨hfields, after, hafter⟩ := ih htail
    refine ⟨.cons ⟨rfl, rfl, rfl, rfl, htype, hadderOf⟩ hfields, after, ?_⟩
    exact ((Claims.claimAll_adds hnamed).trans hadds).trans hafter

theorem messageField?_mem {pairs : List (Member × Field)} {field : Field}
    (h : ctx.messageField? owner pairs = .ok (some field)) : field ∈ pairs.map Prod.snd := by
  induction pairs with
  | nil => cases h
  | cons pair rest ih =>
    unfold messageField? at h
    obtain ⟨holds, -, h⟩ := Failing.bind_eq_ok.mp h
    split at h
    · cases h
      exact List.mem_cons_self
    · exact List.mem_cons_of_mem _ (ih h)

theorem structDecl_ok {decl : StructDecl} (h : ctx.structDecl shape members = .ok decl) :
    StructOf ctx shape members decl := by
  unfold structDecl at h
  obtain ⟨methods, hmethods, h⟩ := Failing.bind_eq_ok.mp h
  obtain ⟨fields, hfields, h⟩ := Failing.bind_eq_ok.mp h
  obtain ⟨hall, after, hadds⟩ := fields_ok hfields
  have hnodup := ((Claims.claim_adds hmethods).trans hadds).nodup_map
  dsimp only at h
  split at h
  · obtain ⟨display, hdisplay, h⟩ := Failing.bind_eq_ok.mp h
    obtain rfl := Except.ok.inj h
    obtain ⟨message, hmessage, rfl⟩ := Failing.map_eq_ok.mp hdisplay
    refine ⟨rfl, rfl, hall, hnodup, fun shown hshown field hfield ↦ ?_⟩
    obtain rfl := Option.some.inj hshown
    obtain rfl : message = some field := hfield
    obtain ⟨pair, hpair, rfl⟩ := List.mem_map.mp (messageField?_mem hmessage)
    exact (List.of_mem_zip hpair).2
  · obtain ⟨display, hdisplay, h⟩ := Failing.bind_eq_ok.mp h
    obtain rfl := Except.ok.inj h
    obtain rfl := Except.ok.inj hdisplay
    exact ⟨rfl, rfl, hall, hnodup, fun shown hshown ↦ by cases hshown⟩

end Context

/-! ## Unions and enumerations -/

/-- The variant for a member. -/
structure CaseOf (ctx : Context) (owner : Shape) (member : Member) (case : UnionCase) : Prop where
  member_eq : case.member = member.name
  variant_eq : case.variant = Code.camelIdent member.name
  asMethod_eq : case.asMethod = Code.functionIdent "as_" member.name ""
  isMethod_eq : case.isMethod = Code.functionIdent "is_" member.name ""
  type_eq : ctx.typeAt owner member.target = .ok case.type

def UnionCase.methodIdents (case : UnionCase) : List Ident :=
  [case.asMethod, case.isMethod]

/-- The declaration of a union. -/
structure UnionOf (ctx : Context) (shape : Shape) (members : List Member) (decl : UnionDecl) :
    Prop where
  ident_eq : decl.ident = Code.camelIdent shape.name
  cases : List.Forall₂ (CaseOf ctx shape) members decl.cases
  variants_nodup : ((decl.cases.map fun case ↦ case.variant.toText) ++ ["Unknown"]).Nodup
  methods_nodup :
    ((Ident.ofText "is_unknown" :: decl.cases.flatMap UnionCase.methodIdents).map
      Ident.toText).Nodup

/-- The members of a union have different names, because their variants do. -/
theorem UnionOf.members_nodup {ctx : Context} {shape : Shape} {members : List Member}
    {decl : UnionDecl} (h : UnionOf ctx shape members decl) :
    (members.map Member.name).Nodup := by
  have hvariants : (members.map fun member ↦ (Code.camelIdent member.name).toText) =
      decl.cases.map fun case ↦ case.variant.toText :=
    Failing.map_eq_map h.cases fun hcase ↦ by rw [hcase.variant_eq]
  have hnodup := (List.nodup_append'.mp h.variants_nodup).1
  rw [← hvariants] at hnodup
  exact List.Nodup.of_map (fun name ↦ (Code.camelIdent name).toText)
    (by rwa [List.map_map])

/-- The variant for a value. -/
structure ValueOf (value : EnumValue) (case : EnumCase) : Prop where
  name_eq : case.name = value.name
  variant_eq : case.variant = Code.camelIdent value.name
  literal_eq : case.literal = value.wireText

/-- The declaration of an enumeration. -/
structure EnumOf (shape : Shape) (values : List EnumValue) (decl : EnumDecl) : Prop where
  ident_eq : decl.ident = Code.camelIdent shape.name
  cases : List.Forall₂ ValueOf values decl.cases
  variants_nodup : ((decl.cases.map fun case ↦ case.variant.toText) ++ ["Unknown"]).Nodup

/-- A variant for something known is not printed as the one for what is unknown. -/
theorem variantIdent_ok {shape : Shape} {name : String} {ident : Ident}
    (h : variantIdent shape name = .ok ident) :
    ident = Code.camelIdent name ∧ ident.toText ≠ "Unknown" := by
  unfold variantIdent at h
  split at h
  · cases h
  · obtain rfl := Except.ok.inj h
    exact ⟨rfl, fun htext ↦ by
      have hplain : Plain "Unknown" := by decide
      have heq := eq_of_toText_eq_plain hplain htext
      contradiction⟩

theorem nodup_with_unknown {idents : List Ident} (hnodup : (idents.map Ident.toText).Nodup)
    (hknown : ∀ ident ∈ idents, ident.toText ≠ "Unknown") :
    ((idents.map Ident.toText) ++ ["Unknown"]).Nodup := by
  refine List.nodup_append'.mpr ⟨hnodup, List.nodup_singleton _, fun text hmem hunknown ↦ ?_⟩
  obtain ⟨ident, hident, rfl⟩ := List.mem_map.mp hmem
  exact hknown ident hident (List.mem_singleton.mp hunknown)

namespace Context

variable {ctx : Context} {shape : Shape} {members : List Member}

theorem unionCases_ok {variants methods : Claims} {cases : List UnionCase}
    (h : ctx.unionCases shape variants methods members = .ok cases) :
    List.Forall₂ (CaseOf ctx shape) members cases ∧
      (∀ case ∈ cases, case.variant.toText ≠ "Unknown") ∧
      (∃ after, variants.Adds (cases.map UnionCase.variant) after) ∧
      ∃ after, methods.Adds (cases.flatMap UnionCase.methodIdents) after := by
  induction members generalizing variants methods cases with
  | nil =>
    obtain rfl := Except.ok.inj h
    exact ⟨.nil, by simp, ⟨variants, .refl _⟩, methods, .refl _⟩
  | cons member rest ih =>
    unfold unionCases at h
    obtain ⟨variant, hvariant, h⟩ := Failing.bind_eq_ok.mp h
    obtain ⟨claimed, hclaimed, h⟩ := Failing.bind_eq_ok.mp h
    obtain ⟨accessible, haccessible, h⟩ := Failing.bind_eq_ok.mp h
    obtain ⟨type, htype, h⟩ := Failing.bind_eq_ok.mp h
    obtain ⟨tail, htail, h⟩ := Failing.bind_eq_ok.mp h
    obtain rfl := Except.ok.inj h
    obtain ⟨hcases, hknown, ⟨variants', hvariants⟩, methods', hmethods⟩ := ih htail
    obtain ⟨hident, hne⟩ := variantIdent_ok hvariant
    exact ⟨.cons ⟨rfl, hident, rfl, rfl, htype⟩ hcases, List.forall_mem_cons.mpr ⟨hne, hknown⟩,
      ⟨variants', (Claims.claim_adds hclaimed).trans hvariants⟩,
      methods', (Claims.claimAll_adds haccessible).trans hmethods⟩

theorem unionDecl_ok {decl : UnionDecl} (h : ctx.unionDecl shape members = .ok decl) :
    UnionOf ctx shape members decl := by
  unfold unionDecl at h
  obtain ⟨methods, hmethods, h⟩ := Failing.bind_eq_ok.mp h
  obtain ⟨cases, hcases, h⟩ := Failing.bind_eq_ok.mp h
  obtain rfl := Except.ok.inj h
  obtain ⟨hall, hknown, ⟨variants', hvariants⟩, methods', hadds⟩ := unionCases_ok hcases
  have hvariantsNodup := nodup_with_unknown hvariants.nodup_map (by simpa using hknown)
  rw [List.map_map] at hvariantsNodup
  exact ⟨rfl, hall, hvariantsNodup, ((Claims.claim_adds hmethods).trans hadds).nodup_map⟩

end Context

theorem enumCases_ok {shape : Shape} {variants : Claims} {values : List EnumValue}
    {cases : List EnumCase} (h : enumCases shape variants values = .ok cases) :
    List.Forall₂ ValueOf values cases ∧
      (∀ case ∈ cases, case.variant.toText ≠ "Unknown") ∧
      ∃ after, variants.Adds (cases.map EnumCase.variant) after := by
  induction values generalizing variants cases with
  | nil =>
    obtain rfl := Except.ok.inj h
    exact ⟨.nil, by simp, variants, .refl _⟩
  | cons value rest ih =>
    unfold enumCases at h
    obtain ⟨variant, hvariant, h⟩ := Failing.bind_eq_ok.mp h
    obtain ⟨claimed, hclaimed, h⟩ := Failing.bind_eq_ok.mp h
    obtain ⟨tail, htail, h⟩ := Failing.bind_eq_ok.mp h
    obtain rfl := Except.ok.inj h
    obtain ⟨hcases, hknown, variants', hvariants⟩ := ih htail
    obtain ⟨hident, hne⟩ := variantIdent_ok hvariant
    exact ⟨.cons ⟨rfl, hident, rfl⟩ hcases, List.forall_mem_cons.mpr ⟨hne, hknown⟩,
      variants', (Claims.claim_adds hclaimed).trans hvariants⟩

theorem enumDecl_ok {shape : Shape} {values : List EnumValue} {decl : EnumDecl}
    (h : enumDecl shape values = .ok decl) : EnumOf shape values decl := by
  unfold enumDecl at h
  obtain ⟨cases, hcases, h⟩ := Failing.bind_eq_ok.mp h
  obtain rfl := Except.ok.inj h
  obtain ⟨hall, hknown, variants', hvariants⟩ := enumCases_ok hcases
  have hnodup := nodup_with_unknown hvariants.nodup_map (by simpa using hknown)
  rw [List.map_map] at hnodup
  exact ⟨rfl, hall, hnodup⟩

/-! ## Types of shapes, and errors of operations -/

/-- The type declared for a shape. -/
def TypeOf (ctx : Context) (shape : Shape) : Option TypeDecl → Prop
  | some (.struct decl) => ∃ members, shape.form = .struct members ∧ StructOf ctx shape members decl
  | some (.union decl) => ∃ members, shape.form = .union members ∧ UnionOf ctx shape members decl
  | some (.enum decl) => ∃ values, shape.form = .enum values ∧ EnumOf shape values decl
  | none => shape.form.hasType = false

/-- A shape's type is one of the model's. -/
theorem mem_modelTypes_of_hasType {m : Model} {shape : Shape} (hshape : shape ∈ m.shapes.values)
    (hform : shape.form.hasType) :
    (Code.camelIdent shape.name, TypeRole.type shape.name) ∈ modelTypes m := by
  refine List.mem_append_left _ (List.mem_flatMap.mpr ⟨shape, hshape, ?_⟩)
  unfold shapeTypes
  cases hkind : shape.form with
  | struct members | union members | enum values => simp
  | scalar kind | list item | map key value => simp [hkind, Form.hasType] at hform

/-- The errors declared for an operation. -/
structure ErrorsOf (ctx : Context) (op : Operation) (decl : OperationErrorDecl) : Prop where
  ident_eq : decl.ident = Code.errorTypeIdent op.name
  shapes : ∃ shapes, ctx.errorShapes op = .ok shapes ∧
    List.Forall₂ (fun shape case ↦ case.variant = Code.camelIdent shape.name ∧
      case.type = .named (Code.camelName shape.name)) shapes decl.cases
  variants_nodup : (("Unhandled" :: decl.cases.map fun case ↦ case.variant.toText)).Nodup

namespace Context

variable {ctx : Context} {shape : Shape}

theorem typeDecl?_ok {decl : Option TypeDecl} (h : ctx.typeDecl? shape = .ok decl) :
    TypeOf ctx shape decl := by
  unfold typeDecl? at h
  cases hform : shape.form with
  | struct members =>
    rw [hform] at h
    obtain ⟨made, hmade, rfl⟩ := Failing.map_eq_ok.mp h
    exact ⟨members, hform, structDecl_ok hmade⟩
  | union members =>
    rw [hform] at h
    obtain ⟨made, hmade, rfl⟩ := Failing.map_eq_ok.mp h
    exact ⟨members, hform, unionDecl_ok hmade⟩
  | enum values =>
    rw [hform] at h
    obtain ⟨made, hmade, rfl⟩ := Failing.map_eq_ok.mp h
    exact ⟨values, hform, enumDecl_ok hmade⟩
  | scalar kind | list item | map key value =>
    rw [hform] at h
    obtain rfl := Except.ok.inj h
    simp [TypeOf, hform, Form.hasType]

theorem errorCases_ok {variants : Claims} {shapes : List Shape} {cases : List ErrorCase}
    (h : errorCases variants shapes = .ok cases) :
    List.Forall₂ (fun shape case ↦ case.variant = Code.camelIdent shape.name ∧
        case.type = .named (Code.camelName shape.name)) shapes cases ∧
      ∃ after, variants.Adds (cases.map ErrorCase.variant) after := by
  induction shapes generalizing variants cases with
  | nil =>
    obtain rfl := Except.ok.inj h
    exact ⟨.nil, variants, .refl _⟩
  | cons first rest ih =>
    unfold errorCases at h
    obtain ⟨claimed, hclaimed, h⟩ := Failing.bind_eq_ok.mp h
    obtain ⟨tail, htail, h⟩ := Failing.bind_eq_ok.mp h
    obtain rfl := Except.ok.inj h
    obtain ⟨hcases, variants', hvariants⟩ := ih htail
    exact ⟨.cons ⟨rfl, rfl⟩ hcases, variants', (Claims.claim_adds hclaimed).trans hvariants⟩

theorem operationErrorDecl_ok {op : Operation} {decl : OperationErrorDecl}
    (h : ctx.operationErrorDecl op = .ok decl) : ErrorsOf ctx op decl := by
  unfold operationErrorDecl at h
  obtain ⟨variants, hvariants, h⟩ := Failing.bind_eq_ok.mp h
  obtain ⟨shapes, hshapes, h⟩ := Failing.bind_eq_ok.mp h
  obtain ⟨cases, hcases, h⟩ := Failing.bind_eq_ok.mp h
  obtain rfl := Except.ok.inj h
  obtain ⟨hall, after, hadds⟩ := errorCases_ok hcases
  have hnodup := ((Claims.claim_adds hvariants).trans hadds).nodup_map
  have hunhandled : (Ident.ofText "Unhandled").toText = "Unhandled" :=
    toText_ofText_of_plain (by decide)
  exact ⟨rfl, ⟨shapes, hshapes, hall⟩, by simpa [Function.comp_def, hunhandled] using hnodup⟩

/-- What declarations are made of. -/
theorem declarationsFor_ok {reached : List String} {b : Bindings}
    (h : ctx.declarationsFor reached = .ok b) :
    ctx.claimTypes = .ok () ∧
      (∃ results, List.Forall₂ (TypeOf ctx) ctx.model.shapes.values results ∧
        b.types = results.reduceOption) ∧
      List.Forall₂ (ErrorsOf ctx) ctx.model.operations b.errors ∧
      ∃ functions,
        ctx.decodersFor reached (.none "decoders") ctx.model.shapes.values =
          .ok (b.decoders, functions) ∧
        ctx.operationsFor functions ctx.model.operations = .ok b.operations := by
  unfold declarationsFor at h
  obtain ⟨⟨⟩, hclaimed, h⟩ := Failing.bind_eq_ok.mp h
  obtain ⟨types, htypes, h⟩ := Failing.bind_eq_ok.mp h
  obtain ⟨errors, herrors, h⟩ := Failing.bind_eq_ok.mp h
  obtain ⟨⟨decoders, functions⟩, hdecoders, h⟩ := Failing.bind_eq_ok.mp h
  obtain ⟨operations, hoperations, h⟩ := Failing.bind_eq_ok.mp h
  obtain rfl := Except.ok.inj h
  obtain ⟨results, hresults, heq⟩ := Failing.exists_of_filterMapM_ok htypes
  exact ⟨hclaimed, ⟨results, hresults.imp fun _ _ ↦ typeDecl?_ok, heq⟩,
    (Failing.forall₂_of_mapM_ok herrors).imp fun _ _ ↦ operationErrorDecl_ok,
    functions, hdecoders, hoperations⟩

/-- The shape for which a type was declared. -/
theorem exists_shape_of_mem_types {reached : List String} {b : Bindings}
    (h : ctx.declarationsFor reached = .ok b) {made : TypeDecl} (hmade : made ∈ b.types) :
    ∃ shape ∈ ctx.model.shapes.values, TypeOf ctx shape (some made) := by
  obtain ⟨-, ⟨results, hresults, htypes⟩, -⟩ := declarationsFor_ok h
  rw [htypes] at hmade
  exact Failing.exists_of_mem_right hresults (List.reduceOption_mem_iff.mp hmade)

end Context

/-- Bindings are the declarations of the model with its cycles broken. -/
theorem exists_of_bindings {m : Model} {defaults : Defaults} {b : Bindings}
    (h : m.bindings defaults = .ok b) :
    ∃ ctx : Context, ctx.model = m.breakCycles ∧ ctx.defaults = defaults ∧
      SymbolMap.ofModel ctx.model = .ok ctx.symbols ∧
      BindingMap.ofModel ctx.model defaults = .ok ctx.bindings ∧
      ctx.declarationsFor (reachable ctx.model) = .ok b := by
  unfold Model.bindings at h
  obtain ⟨ctx, hctx, h⟩ := Failing.bind_eq_ok.mp h
  unfold Model.resolved at hctx
  obtain ⟨symbols, hsymbols, hctx⟩ := Failing.bind_eq_ok.mp hctx
  obtain ⟨bindings, hbindings, hctx⟩ := Failing.bind_eq_ok.mp hctx
  obtain rfl := Except.ok.inj hctx
  exact ⟨_, rfl, rfl, hsymbols, hbindings, h⟩

end WireShapes.Bindings
