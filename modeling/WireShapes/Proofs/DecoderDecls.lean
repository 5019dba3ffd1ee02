import WireShapes.Proofs.BindingTable
import WireShapes.Proofs.Keyed
import WireShapes.Proofs.TypeDecls

/-!
# Declared decoders

What the declarations of decoders and of entry points say, once they have been made: which shapes
they are made for, where the identifiers in them come from, and that the functions they are written
as are distinct as printed.
-/

namespace WireShapes.Bindings

open Code (Ident)

/-! ## Sources -/

/-- How a shape is read from an element. -/
def SourceOf (target : Shape) : Source → Prop
  | .text (.enum type) => (∃ values, target.form = .enum values) ∧
      type = Code.camelIdent target.name
  | .text .string => target.form = .scalar .string
  | .text (.scalar kind) => kind ≠ .string ∧ target.form = .scalar kind
  | .struct decoder type => (∃ members, target.form = .struct members) ∧
      decoder = decoderIdent target.name ∧ type = Code.camelIdent target.name
  | .shape decoder => decoder = decoderIdent target.name ∧
      ((∃ members, target.form = .union members) ∨ (∃ item, target.form = .list item) ∨
        ∃ key value, target.form = .map key value)

/-- The value is what a reference leads to, in a box if the reference is indirect. -/
def Reads (ctx : Context) (ref : Reference) (value : Boxing Source) : Prop :=
  value.boxed = ref.indirect ∧
    ∃ target, ctx.model.shape? ref.target = some target ∧ SourceOf target value.source

/-- A value that is read from a text. -/
def Boxing.ofText (value : Boxing TextSource) : Boxing Source :=
  ⟨.text value.source, value.boxed⟩

/-! ## Arms -/

/-- A pattern is the name that a member is bound to, and the placement that of the member. -/
def BoundAs (ctx : Context) (owner : Shape) (member : Member) (pattern : String)
    (placement : Placement) : Prop :=
  ∃ binding, ctx.binding owner member = .ok binding ∧ pattern = binding.name.toText ∧
    placement = binding.placement

/-- The placement of a member for which this is done. -/
def StructAction.placement : StructAction → Placement
  | .set _ _ => .element
  | .push _ _ | .insert _ _ => .flattened

def UnionAction.placement : UnionAction → Placement
  | .set _ => .element
  | .push _ | .insert _ => .flattened

/-- What is read from an attribute is put into a member. -/
def AttributeOf (ctx : Context) (members : List Member) (arm : AttributeArm) : Prop :=
  ∃ member ∈ members, arm.member = member.name ∧
    arm.setter = Code.functionIdent "set_" member.name "" ∧ Reads ctx member.target arm.value.ofText

/-- What is done to the builder belongs to a member. -/
def ActionOf (ctx : Context) (member : Member) : StructAction → Prop
  | .set setter value => setter = Code.functionIdent "set_" member.name "" ∧
      Reads ctx member.target value
  | .push method value => method = Code.functionIdent "push_" member.name "" ∧
      ∃ target item, ctx.model.shape? member.target.target = some target ∧
        target.form = .list item ∧ Reads ctx item.target value
  | .insert method entry => method = Code.functionIdent "insert_" member.name "" ∧
      ∃ target key value, ctx.model.shape? member.target.target = some target ∧
        target.form = .map key value ∧ entry = entryIdent target.name

/-- What is done to the value of a union belongs to a member. -/
def UnionActionOf (ctx : Context) (member : Member) : UnionAction → Prop
  | .set value => Reads ctx member.target value
  | .push value => ∃ target item, ctx.model.shape? member.target.target = some target ∧
      target.form = .list item ∧ Reads ctx item.target value
  | .insert entry => ∃ target key value, ctx.model.shape? member.target.target = some target ∧
      target.form = .map key value ∧ entry = entryIdent target.name

/-! ## Decoders -/

structure StructDecoderOf (ctx : Context) (shape : Shape) (members : List Member)
    (decl : StructDecoder) : Prop where
  ident_eq : decl.ident = decoderIdent shape.name
  builder_eq : decl.builder = Code.builderTypeIdent shape.name
  made : ctx.structArms shape members = .ok (decl.attributes, decl.arms)
  attributes : ∀ arm ∈ decl.attributes, AttributeOf ctx members arm
  arms : ∀ arm ∈ decl.arms, ∃ member ∈ members,
    arm.member = member.name ∧ ActionOf ctx member arm.action
  members : (decl.attributes.map AttributeArm.member ++ decl.arms.map StructArm.member).Perm
    (members.map Member.name)

structure UnionDecoderOf (ctx : Context) (shape : Shape) (members : List Member)
    (decl : UnionDecoder) : Prop where
  ident_eq : decl.ident = decoderIdent shape.name
  type_eq : decl.type = Code.camelIdent shape.name
  made : members.mapM (ctx.unionArm shape) = .ok decl.arms
  arms : ∀ arm ∈ decl.arms, ∃ member ∈ members, arm.member = member.name ∧
    arm.variant = Code.camelIdent member.name ∧ UnionActionOf ctx member arm.action

structure ListDecoderOf (ctx : Context) (shape : Shape) (item : Item) (decl : ListDecoder) :
    Prop where
  ident_eq : decl.ident = decoderIdent shape.name
  type_eq : ctx.typeOf shape = .ok decl.type
  names : ∃ name, shape.innerNames? ctx.defaults = some (.list name) ∧ decl.pattern = name.toText
  item : Reads ctx item.target decl.item

structure MapDecoderOf (ctx : Context) (shape : Shape) (key value : Item) (decl : MapDecoder) :
    Prop where
  ident_eq : decl.ident = decoderIdent shape.name
  entry_eq : decl.entryIdent = entryIdent shape.name
  type_eq : ctx.typeOf shape = .ok decl.type
  keyType_eq : ctx.typeAt shape key.target = .ok decl.keyType
  valueType_eq : ctx.typeAt shape value.target = .ok decl.valueType
  names : ∃ entryName keyName valueName,
    shape.innerNames? ctx.defaults = some (.map entryName keyName valueName) ∧
      decl.entryPattern = entryName.toText ∧ decl.keyPattern = keyName.toText ∧
      decl.valuePattern = valueName.toText
  key : Reads ctx key.target decl.key.ofText
  value : Reads ctx value.target decl.value

/-- The decoder declared for a shape. -/
def DecoderOf (ctx : Context) (shape : Shape) : DecoderDecl → Prop
  | .struct decl => ∃ members, shape.form = .struct members ∧ StructDecoderOf ctx shape members decl
  | .union decl => ∃ members, shape.form = .union members ∧ UnionDecoderOf ctx shape members decl
  | .list decl => ∃ item, shape.form = .list item ∧ ListDecoderOf ctx shape item decl
  | .map decl => ∃ key value, shape.form = .map key value ∧ MapDecoderOf ctx shape key value decl

/-- The functions that a decoder is written as. -/
def DecoderDecl.functionIdents : DecoderDecl → List Ident
  | .struct decl => [decl.ident]
  | .union decl => [decl.ident]
  | .list decl => [decl.ident]
  | .map decl => [decl.ident, decl.entryIdent]

/-- The functions that decode a shape: for a map one for its entries, too. -/
def decoderFunctions (shape : Shape) : List Ident :=
  match shape.form with
  | .struct _ | .union _ | .list _ => [decoderIdent shape.name]
  | .map _ _ => [decoderIdent shape.name, entryIdent shape.name]
  | .scalar _ | .enum _ => []

theorem DecoderOf.functionIdents_eq {ctx : Context} {shape : Shape} {decl : DecoderDecl}
    (h : DecoderOf ctx shape decl) : decl.functionIdents = decoderFunctions shape := by
  cases decl with
  | struct decl =>
    obtain ⟨members, hform, hof⟩ := h
    simp [decoderFunctions, hform, DecoderDecl.functionIdents, hof.ident_eq]
  | union decl =>
    obtain ⟨members, hform, hof⟩ := h
    simp [decoderFunctions, hform, DecoderDecl.functionIdents, hof.ident_eq]
  | list decl =>
    obtain ⟨item, hform, hof⟩ := h
    simp [decoderFunctions, hform, DecoderDecl.functionIdents, hof.ident_eq]
  | map decl =>
    obtain ⟨key, value, hform, hof⟩ := h
    simp [decoderFunctions, hform, DecoderDecl.functionIdents, hof.ident_eq, hof.entry_eq]

namespace Context

variable {ctx : Context} {owner shape : Shape} {ref : Reference} {members : List Member}

theorem elementSource_ok {value : Boxing Source} (h : ctx.elementSource owner ref = .ok value) :
    Reads ctx ref value := by
  unfold elementSource at h
  obtain ⟨target, htarget, h⟩ := Failing.bind_eq_ok.mp h
  obtain rfl := Except.ok.inj h
  refine ⟨rfl, target, targetOf_ok htarget, ?_⟩
  cases hform : target.form with
  | scalar kind =>
    cases kind with
    | string => exact hform
    | _ => exact ⟨by decide, hform⟩
  | enum values => exact ⟨⟨values, hform⟩, rfl⟩
  | struct members => exact ⟨⟨members, hform⟩, rfl, rfl⟩
  | union members => exact ⟨rfl, .inl ⟨members, hform⟩⟩
  | list item => exact ⟨rfl, .inr (.inl ⟨item, hform⟩)⟩
  | map key value => exact ⟨rfl, .inr (.inr ⟨key, value, hform⟩)⟩

theorem attributeSource_ok {value : Boxing TextSource}
    (h : ctx.attributeSource owner ref = .ok value) : Reads ctx ref value.ofText := by
  unfold attributeSource at h
  obtain ⟨found, hfound, h⟩ := Failing.bind_eq_ok.mp h
  split at h
  · obtain rfl := Except.ok.inj h
    exact elementSource_ok hfound
  · cases h

theorem keySource_ok {value : Boxing TextSource}
    (h : ctx.keySource owner ref = .ok value) : Reads ctx ref value.ofText := by
  unfold keySource at h
  obtain ⟨found, hfound, h⟩ := Failing.bind_eq_ok.mp h
  split at h
  · obtain rfl := Except.ok.inj h
    exact elementSource_ok hfound
  · cases h

/-- The first member is an attribute's or an element's, and the others have arms as on their own. -/
theorem structArms_cons_ok {member : Member} {rest : List Member}
    {made : List AttributeArm × List StructArm}
    (h : ctx.structArms owner (member :: rest) = .ok made) :
    ∃ others, ctx.structArms owner rest = .ok others ∧
      ((∃ arm, made = (arm :: others.1, others.2) ∧
          BoundAs ctx owner member arm.pattern .attribute ∧ arm.member = member.name ∧
          arm.setter = Code.functionIdent "set_" member.name "" ∧
          Reads ctx member.target arm.value.ofText) ∨
        ∃ arm, made = (others.1, arm :: others.2) ∧
          BoundAs ctx owner member arm.pattern arm.action.placement ∧ arm.member = member.name ∧
          ActionOf ctx member arm.action) := by
  unfold structArms at h
  obtain ⟨binding, hbinding, h⟩ := Failing.bind_eq_ok.mp h
  dsimp only at h
  cases hplacement : binding.placement with
  | «attribute» =>
    rw [hplacement] at h
    obtain ⟨value, hvalue, h⟩ := Failing.bind_eq_ok.mp h
    obtain ⟨others, hothers, h⟩ := Failing.bind_eq_ok.mp h
    obtain rfl := Except.ok.inj h
    exact ⟨others, hothers, .inl ⟨_, rfl, ⟨binding, hbinding, rfl, hplacement.symm⟩, rfl, rfl,
      attributeSource_ok hvalue⟩⟩
  | element =>
    rw [hplacement] at h
    obtain ⟨value, hvalue, h⟩ := Failing.bind_eq_ok.mp h
    obtain ⟨others, hothers, h⟩ := Failing.bind_eq_ok.mp h
    obtain rfl := Except.ok.inj h
    exact ⟨others, hothers, .inr ⟨_, rfl, ⟨binding, hbinding, rfl, hplacement.symm⟩, rfl, rfl,
      elementSource_ok hvalue⟩⟩
  | flattened =>
    rw [hplacement] at h
    obtain ⟨target, htarget, h⟩ := Failing.bind_eq_ok.mp h
    have htarget := targetOf_ok htarget
    cases hform : target.form with
    | list item =>
      simp only [hform] at h
      obtain ⟨value, hvalue, h⟩ := Failing.bind_eq_ok.mp h
      obtain ⟨action, haction, h⟩ := Failing.bind_eq_ok.mp h
      obtain rfl := Except.ok.inj haction
      obtain ⟨others, hothers, h⟩ := Failing.bind_eq_ok.mp h
      obtain rfl := Except.ok.inj h
      exact ⟨others, hothers, .inr ⟨_, rfl, ⟨binding, hbinding, rfl, hplacement.symm⟩, rfl, rfl,
        target, item, htarget, hform, elementSource_ok hvalue⟩⟩
    | map key value =>
      simp only [hform] at h
      obtain ⟨action, haction, h⟩ := Failing.bind_eq_ok.mp h
      obtain rfl := Except.ok.inj haction
      obtain ⟨others, hothers, h⟩ := Failing.bind_eq_ok.mp h
      obtain rfl := Except.ok.inj h
      exact ⟨others, hothers, .inr ⟨_, rfl, ⟨binding, hbinding, rfl, hplacement.symm⟩, rfl, rfl,
        target, key, value, htarget, hform, rfl⟩⟩
    | scalar kind | struct members | union members | enum values =>
      simp only [hform] at h
      obtain ⟨action, haction, -⟩ := Failing.bind_eq_ok.mp h
      cases haction

/-- Every arm belongs to a member. -/
theorem structArms_ok {made : List AttributeArm × List StructArm}
    (h : ctx.structArms owner members = .ok made) :
    (∀ arm ∈ made.1, AttributeOf ctx members arm) ∧
      ∀ arm ∈ made.2, ∃ member ∈ members,
        arm.member = member.name ∧ ActionOf ctx member arm.action := by
  induction members generalizing made with
  | nil =>
    cases h
    simp
  | cons member rest ih =>
    obtain ⟨others, hothers, hmade⟩ := structArms_cons_ok h
    obtain ⟨hattributes, harms⟩ := ih hothers
    have hattributes (arm) (harm : arm ∈ others.1) : AttributeOf ctx (member :: rest) arm := by
      obtain ⟨other, hother, hof⟩ := hattributes arm harm
      exact ⟨other, List.mem_cons_of_mem _ hother, hof⟩
    have harms (arm) (harm : arm ∈ others.2) :
        ∃ other ∈ member :: rest, arm.member = other.name ∧ ActionOf ctx other arm.action := by
      obtain ⟨other, hother, hof⟩ := harms arm harm
      exact ⟨other, List.mem_cons_of_mem _ hother, hof⟩
    rcases hmade with ⟨arm, rfl, -, hof⟩ | ⟨arm, rfl, -, hof⟩
    · exact ⟨List.forall_mem_cons.mpr ⟨⟨member, List.mem_cons_self, hof⟩, hattributes⟩, harms⟩
    · exact ⟨hattributes, List.forall_mem_cons.mpr ⟨⟨member, List.mem_cons_self, hof⟩, harms⟩⟩

/-- Every member has one arm. -/
theorem structArms_members {made : List AttributeArm × List StructArm}
    (h : ctx.structArms owner members = .ok made) :
    (made.1.map AttributeArm.member ++ made.2.map StructArm.member).Perm
      (members.map Member.name) := by
  induction members generalizing made with
  | nil =>
    cases h
    exact .nil
  | cons member rest ih =>
    obtain ⟨others, hothers, hmade⟩ := structArms_cons_ok h
    rcases hmade with ⟨arm, rfl, -, hmember, -⟩ | ⟨arm, rfl, -, hmember, -⟩
    · simpa [hmember] using (ih hothers).cons member.name
    · simpa [hmember] using List.perm_middle.trans ((ih hothers).cons member.name)

theorem structDecoder_ok {decl : StructDecoder} (h : ctx.structDecoder shape members = .ok decl) :
    StructDecoderOf ctx shape members decl := by
  unfold structDecoder at h
  obtain ⟨⟨attributes, arms⟩, harms, h⟩ := Failing.bind_eq_ok.mp h
  obtain rfl := Except.ok.inj h
  obtain ⟨hattributes, hall⟩ := structArms_ok harms
  exact ⟨rfl, rfl, harms, hattributes, hall, structArms_members harms⟩

theorem unionArm_ok {member : Member} {arm : UnionArm} (h : ctx.unionArm owner member = .ok arm) :
    BoundAs ctx owner member arm.pattern arm.action.placement ∧ arm.member = member.name ∧
      arm.variant = Code.camelIdent member.name ∧ UnionActionOf ctx member arm.action := by
  unfold unionArm at h
  obtain ⟨binding, hbinding, h⟩ := Failing.bind_eq_ok.mp h
  dsimp only at h
  cases hplacement : binding.placement with
  | «attribute» =>
    rw [hplacement] at h
    cases h
  | element =>
    rw [hplacement] at h
    obtain ⟨value, hvalue, h⟩ := Failing.bind_eq_ok.mp h
    obtain ⟨action, haction, h⟩ := Failing.bind_eq_ok.mp h
    obtain rfl := Except.ok.inj haction
    obtain rfl := Except.ok.inj h
    exact ⟨⟨binding, hbinding, rfl, hplacement.symm⟩, rfl, rfl, elementSource_ok hvalue⟩
  | flattened =>
    rw [hplacement] at h
    obtain ⟨target, htarget, h⟩ := Failing.bind_eq_ok.mp h
    have htarget := targetOf_ok htarget
    cases hform : target.form with
    | list item =>
      simp only [hform] at h
      obtain ⟨value, hvalue, h⟩ := Failing.bind_eq_ok.mp h
      obtain ⟨action, haction, h⟩ := Failing.bind_eq_ok.mp h
      obtain rfl := Except.ok.inj haction
      obtain rfl := Except.ok.inj h
      exact ⟨⟨binding, hbinding, rfl, hplacement.symm⟩, rfl, rfl, target, item, htarget, hform,
        elementSource_ok hvalue⟩
    | map key value =>
      simp only [hform] at h
      obtain ⟨action, haction, h⟩ := Failing.bind_eq_ok.mp h
      obtain rfl := Except.ok.inj haction
      obtain rfl := Except.ok.inj h
      exact ⟨⟨binding, hbinding, rfl, hplacement.symm⟩, rfl, rfl, target, key, value, htarget,
        hform, rfl⟩
    | scalar kind | struct members | union members | enum values =>
      simp only [hform] at h
      obtain ⟨action, haction, -⟩ := Failing.bind_eq_ok.mp h
      cases haction

theorem unionDecoder_ok {decl : UnionDecoder} (h : ctx.unionDecoder shape members = .ok decl) :
    UnionDecoderOf ctx shape members decl := by
  unfold unionDecoder at h
  obtain ⟨arms, harms, h⟩ := Failing.bind_eq_ok.mp h
  obtain rfl := Except.ok.inj h
  refine ⟨rfl, rfl, harms, fun arm harm ↦ ?_⟩
  obtain ⟨member, hmember, hmade⟩ :=
    Failing.exists_of_mem_right (Failing.forall₂_of_mapM_ok harms) harm
  exact ⟨member, hmember, (unionArm_ok hmade).2⟩

/-- A union's decoder has an arm for every member, in order. -/
theorem unionDecoder_members {decl : UnionDecoder}
    (h : ctx.unionDecoder shape members = .ok decl) :
    decl.arms.map UnionArm.member = members.map Member.name := by
  unfold unionDecoder at h
  obtain ⟨arms, harms, h⟩ := Failing.bind_eq_ok.mp h
  obtain rfl := Except.ok.inj h
  exact (Failing.map_eq_map (Failing.forall₂_of_mapM_ok harms) fun hmade ↦
    (unionArm_ok hmade).2.1.symm).symm

/-! ## Collections -/

/-- The names inside a collection are those that were resolved for it. -/
theorem collection?_eq (hkeyed : ctx.model.Keyed)
    (hbindings : BindingMap.ofModel ctx.model ctx.defaults = .ok ctx.bindings)
    (hshape : shape ∈ ctx.model.shapes.values) {names : InnerNames}
    (hnames : shape.innerNames? ctx.defaults = some names) :
    ctx.bindings.collection? shape.name = some names := by
  obtain ⟨hsound, hcovers⟩ := BindingMap.ofModel_holds hbindings
  have hsome := (hcovers shape hshape).collections (by simp [hnames])
  obtain ⟨found, hfound⟩ := Option.isSome_iff_exists.mp hsome
  obtain ⟨other, hother, hname, hinner⟩ := hsound.collections _ _ hfound
  have hsame : other = shape := by
    have hlookup := hkeyed.shape?_eq_some hother
    rw [hname, hkeyed.shape?_eq_some hshape] at hlookup
    exact (Option.some.inj hlookup).symm
  subst hsame
  rw [hfound, ← hinner, hnames]

theorem listDecoder?_ok {item : Item} {names : InnerNames} {decl : Option ListDecoder}
    (hform : shape.form = .list item) (hnames : shape.innerNames? ctx.defaults = some names)
    (hcollection : ctx.bindings.collection? shape.name = some names)
    (h : ctx.listDecoder? shape item = .ok decl) :
    ∃ made, decl = some made ∧ ListDecoderOf ctx shape item made := by
  have hinner := hnames
  simp only [Shape.innerNames?, hform, Option.some.injEq] at hnames
  subst hnames
  unfold listDecoder? at h
  simp only [hcollection] at h
  obtain ⟨type, htype, h⟩ := Failing.bind_eq_ok.mp h
  obtain ⟨value, hvalue, h⟩ := Failing.bind_eq_ok.mp h
  obtain rfl := Except.ok.inj h
  exact ⟨_, rfl, rfl, htype, ⟨_, hinner, rfl⟩, elementSource_ok hvalue⟩

theorem mapDecoder?_ok {key value : Item} {names : InnerNames} {decl : Option MapDecoder}
    (hform : shape.form = .map key value) (hnames : shape.innerNames? ctx.defaults = some names)
    (hcollection : ctx.bindings.collection? shape.name = some names)
    (h : ctx.mapDecoder? shape key value = .ok decl) :
    ∃ made, decl = some made ∧ MapDecoderOf ctx shape key value made := by
  have hinner := hnames
  simp only [Shape.innerNames?, hform, Option.some.injEq] at hnames
  subst hnames
  unfold mapDecoder? at h
  simp only [hcollection] at h
  obtain ⟨type, htype, h⟩ := Failing.bind_eq_ok.mp h
  obtain ⟨keyType, hkeyType, h⟩ := Failing.bind_eq_ok.mp h
  obtain ⟨valueType, hvalueType, h⟩ := Failing.bind_eq_ok.mp h
  obtain ⟨keySource, hkey, h⟩ := Failing.bind_eq_ok.mp h
  obtain ⟨valueSource, hvalue, h⟩ := Failing.bind_eq_ok.mp h
  obtain rfl := Except.ok.inj h
  exact ⟨_, rfl, rfl, rfl, htype, hkeyType, hvalueType, ⟨_, _, _, hinner, rfl, rfl, rfl⟩,
    keySource_ok hkey, elementSource_ok hvalue⟩

/-- A shape's decoder has all the functions that decode the shape, and these are claimed. -/
theorem decoder?_ok (hkeyed : ctx.model.Keyed)
    (hbindings : BindingMap.ofModel ctx.model ctx.defaults = .ok ctx.bindings)
    (hshape : shape ∈ ctx.model.shapes.values) {functions after : Claims}
    {decl : Option DecoderDecl} (h : ctx.decoder? functions shape = .ok (decl, after)) :
    (∀ made ∈ decl, DecoderOf ctx shape made) ∧
      decl.toList.flatMap DecoderDecl.functionIdents = decoderFunctions shape ∧
      functions.Adds (decoderFunctions shape) after := by
  have hone (made : DecoderDecl) (hof : DecoderOf ctx shape made) :
      (∀ other ∈ some made, DecoderOf ctx shape other) ∧
        (some made).toList.flatMap DecoderDecl.functionIdents = decoderFunctions shape := by
    refine ⟨fun other hother ↦ ?_, by simp [hof.functionIdents_eq]⟩
    obtain rfl := Option.some.inj hother
    exact hof
  unfold decoder? at h
  cases hform : shape.form with
  | struct members =>
    simp only [hform] at h
    obtain ⟨claimed, hclaimed, h⟩ := Failing.bind_eq_ok.mp h
    obtain ⟨made, hmade, h⟩ := Failing.bind_eq_ok.mp h
    cases h
    obtain ⟨hall, hidents⟩ := hone (.struct made) ⟨members, hform, structDecoder_ok hmade⟩
    exact ⟨hall, hidents, by simpa [decoderFunctions, hform] using Claims.claim_adds hclaimed⟩
  | union members =>
    simp only [hform] at h
    obtain ⟨claimed, hclaimed, h⟩ := Failing.bind_eq_ok.mp h
    obtain ⟨made, hmade, h⟩ := Failing.bind_eq_ok.mp h
    cases h
    obtain ⟨hall, hidents⟩ := hone (.union made) ⟨members, hform, unionDecoder_ok hmade⟩
    exact ⟨hall, hidents, by simpa [decoderFunctions, hform] using Claims.claim_adds hclaimed⟩
  | list item =>
    have hnames : ∃ names, shape.innerNames? ctx.defaults = some names := by
      simp [Shape.innerNames?, hform]
    obtain ⟨names, hnames⟩ := hnames
    have hcollection := collection?_eq hkeyed hbindings hshape hnames
    simp only [hform] at h
    obtain ⟨claimed, hclaimed, h⟩ := Failing.bind_eq_ok.mp h
    obtain ⟨found, hfound, h⟩ := Failing.bind_eq_ok.mp h
    obtain ⟨made, rfl, hof⟩ := listDecoder?_ok hform hnames hcollection hfound
    cases h
    obtain ⟨hall, hidents⟩ := hone (.list made) ⟨item, hform, hof⟩
    exact ⟨hall, hidents, by simpa [decoderFunctions, hform] using Claims.claim_adds hclaimed⟩
  | map key value =>
    have hnames : ∃ names, shape.innerNames? ctx.defaults = some names := by
      simp [Shape.innerNames?, hform]
    obtain ⟨names, hnames⟩ := hnames
    have hcollection := collection?_eq hkeyed hbindings hshape hnames
    simp only [hform] at h
    obtain ⟨first, hfirst, h⟩ := Failing.bind_eq_ok.mp h
    obtain ⟨second, hsecond, h⟩ := Failing.bind_eq_ok.mp h
    obtain ⟨found, hfound, h⟩ := Failing.bind_eq_ok.mp h
    obtain ⟨made, rfl, hof⟩ := mapDecoder?_ok hform hnames hcollection hfound
    cases h
    obtain ⟨hall, hidents⟩ := hone (.map made) ⟨key, value, hform, hof⟩
    have hadds := (Claims.claim_adds hfirst).trans (Claims.claim_adds hsecond)
    exact ⟨hall, hidents, by simpa [decoderFunctions, hform] using hadds⟩
  | scalar kind | enum values =>
    simp only [hform] at h
    cases h
    refine ⟨by simp, by simp [decoderFunctions, hform], ?_⟩
    simpa [decoderFunctions, hform] using Claims.Adds.refl functions

/-- Every decoder was made for a shape. -/
theorem exists_decoder_of_mem {reached : List String} {shapes : List Shape}
    {functions after : Claims} {decls : List DecoderDecl}
    (h : ctx.decodersFor reached functions shapes = .ok (decls, after)) {made : DecoderDecl}
    (hmade : made ∈ decls) :
    ∃ shape ∈ shapes, ∃ before after, ctx.decoder? before shape = .ok (some made, after) := by
  induction shapes generalizing functions decls with
  | nil =>
    cases h
    simp at hmade
  | cons shape rest ih =>
    unfold decodersFor at h
    split at h
    · obtain ⟨⟨first, next⟩, hfirst, h⟩ := Failing.bind_eq_ok.mp h
      obtain ⟨⟨others, last⟩, hothers, h⟩ := Failing.bind_eq_ok.mp h
      cases h
      rcases List.mem_append.mp hmade with hmem | hmem
      · obtain rfl := Option.mem_toList.mp hmem
        exact ⟨shape, List.mem_cons_self, _, _, hfirst⟩
      · obtain ⟨other, hother, hof⟩ := ih hothers hmem
        exact ⟨other, List.mem_cons_of_mem _ hother, hof⟩
    · obtain ⟨other, hother, hof⟩ := ih h hmade
      exact ⟨other, List.mem_cons_of_mem _ hother, hof⟩

/-- The decoder of a union was made for a union. -/
theorem decoder?_union {functions after : Claims} {decl : UnionDecoder}
    (h : ctx.decoder? functions shape = .ok (some (.union decl), after)) :
    ∃ members, shape.form = .union members ∧ ctx.unionDecoder shape members = .ok decl := by
  unfold decoder? at h
  cases hform : shape.form with
  | union members =>
    simp only [hform] at h
    obtain ⟨claimed, -, h⟩ := Failing.bind_eq_ok.mp h
    obtain ⟨made, hmade, h⟩ := Failing.bind_eq_ok.mp h
    cases h
    exact ⟨members, rfl, hmade⟩
  | struct members =>
    simp only [hform] at h
    obtain ⟨claimed, -, h⟩ := Failing.bind_eq_ok.mp h
    obtain ⟨made, -, h⟩ := Failing.bind_eq_ok.mp h
    cases h
  | list item =>
    simp only [hform] at h
    obtain ⟨claimed, -, h⟩ := Failing.bind_eq_ok.mp h
    obtain ⟨found, -, h⟩ := Failing.bind_eq_ok.mp h
    cases found <;> cases h
  | map key value =>
    simp only [hform] at h
    obtain ⟨first, -, h⟩ := Failing.bind_eq_ok.mp h
    obtain ⟨second, -, h⟩ := Failing.bind_eq_ok.mp h
    obtain ⟨found, -, h⟩ := Failing.bind_eq_ok.mp h
    cases found <;> cases h
  | scalar kind | enum values =>
    simp only [hform] at h
    cases h

theorem decodersFor_ok (hkeyed : ctx.model.Keyed)
    (hbindings : BindingMap.ofModel ctx.model ctx.defaults = .ok ctx.bindings)
    {reached : List String} {shapes : List Shape}
    (hshapes : ∀ shape ∈ shapes, shape ∈ ctx.model.shapes.values) {functions after : Claims}
    {decls : List DecoderDecl} (h : ctx.decodersFor reached functions shapes = .ok (decls, after)) :
    (∀ made ∈ decls, ∃ shape ∈ shapes, shape.name ∈ reached ∧ DecoderOf ctx shape made) ∧
      decls.flatMap DecoderDecl.functionIdents =
        (shapes.filter fun shape ↦ shape.name ∈ reached).flatMap decoderFunctions ∧
      functions.Adds (decls.flatMap DecoderDecl.functionIdents) after := by
  induction shapes generalizing functions decls with
  | nil =>
    cases h
    exact ⟨by simp, rfl, .refl _⟩
  | cons shape rest ih =>
    have hrest : ∀ other ∈ rest, other ∈ ctx.model.shapes.values := fun other hother ↦
      hshapes other (List.mem_cons_of_mem _ hother)
    unfold decodersFor at h
    by_cases hreached : shape.name ∈ reached
    · rw [if_pos (by simpa using hreached)] at h
      obtain ⟨⟨made, next⟩, hmade, h⟩ := Failing.bind_eq_ok.mp h
      obtain ⟨⟨others, last⟩, hothers, h⟩ := Failing.bind_eq_ok.mp h
      cases h
      obtain ⟨hof, hidents, hadds⟩ :=
        decoder?_ok hkeyed hbindings (hshapes shape List.mem_cons_self) hmade
      obtain ⟨hall, hmore, haddsRest⟩ := ih hrest hothers
      refine ⟨fun decl hdecl ↦ ?_, ?_, ?_⟩
      · rcases List.mem_append.mp hdecl with hmem | hmem
        · exact ⟨shape, List.mem_cons_self, hreached, hof decl (Option.mem_toList.mp hmem)⟩
        · obtain ⟨other, hother, hdetails⟩ := hall decl hmem
          exact ⟨other, List.mem_cons_of_mem _ hother, hdetails⟩
      · rw [List.flatMap_append, hidents, hmore, List.filter_cons_of_pos (by simpa using hreached),
          List.flatMap_cons]
      · rw [List.flatMap_append, hidents]
        exact hadds.trans haddsRest
    · rw [if_neg (by simpa using hreached)] at h
      obtain ⟨hall, hmore, hadds⟩ := ih hrest h
      refine ⟨fun decl hdecl ↦ ?_, ?_, hadds⟩
      · obtain ⟨other, hother, hdetails⟩ := hall decl hdecl
        exact ⟨other, List.mem_cons_of_mem _ hother, hdetails⟩
      · rw [hmore, List.filter_cons_of_neg (by simpa using hreached)]

end Context

/-! ## Entry points -/

/-- An entry point decodes a structure that an operation names. -/
def Decodes (ctx : Context) (named : Option String) (decoder type : Ident) : Prop :=
  ∃ name ∈ named, ∃ shape, ctx.model.shape? name = some shape ∧
    (∃ members, shape.form = .struct members) ∧ decoder = decoderIdent shape.name ∧
    type = Code.camelIdent shape.name

/-- The entry point for the errors of an operation. -/
structure FailureOf (ctx : Context) (op : Operation) (decl : FailureDecl) : Prop where
  ident_eq : decl.ident = Code.functionIdent "parse_" op.name "_error"
  type_eq : decl.type = Code.errorTypeIdent op.name
  wrapped_eq : decl.wrapped = ctx.defaults.errorWrapping
  cases : ∃ shapes, ctx.errorShapes op = .ok shapes ∧ decl.cases = shapes.map Context.codeCase

/-- The functions that entry points are written as. -/
def OperationDecl.functionIdents (decl : OperationDecl) : List Ident :=
  decl.input.toList.map InputDecl.ident ++ decl.output.toList.map OutputDecl.ident ++
    [decl.failure.ident]

/-- The functions that decode documents of an operation: its input and its output, if it has one,
and its errors. -/
def entryPoints (op : Operation) : List Ident :=
  (op.input.toList.map fun _ ↦ Code.functionIdent "parse_" op.name "_input") ++
    (op.output.toList.map fun _ ↦ Code.functionIdent "parse_" op.name "_output") ++
    [Code.functionIdent "parse_" op.name "_error"]

/-- The entry points declared for an operation. -/
structure OperationOf (ctx : Context) (op : Operation) (decl : OperationDecl) : Prop where
  functionIdents_eq : decl.functionIdents = entryPoints op
  input : ∀ input ∈ decl.input, Decodes ctx op.input input.decoder input.type
  output : ∀ output ∈ decl.output, Decodes ctx op.output output.decoder output.type
  failure : FailureOf ctx op decl.failure

namespace Context

variable {ctx : Context} {op : Operation} {functions after : Claims}

theorem inputDecl_ok {name : String} {decl : InputDecl}
    (h : ctx.inputDecl op name functions = .ok (decl, after)) :
    decl.ident = Code.functionIdent "parse_" op.name "_input" ∧
      Decodes ctx (some name) decl.decoder decl.type ∧ functions.Adds [decl.ident] after := by
  unfold inputDecl at h
  obtain ⟨shape, hshape, h⟩ := Failing.bind_eq_ok.mp h
  obtain ⟨claimed, hclaimed, h⟩ := Failing.bind_eq_ok.mp h
  cases h
  obtain ⟨hfound, hform⟩ := structNamed_ok hshape
  exact ⟨rfl, ⟨name, rfl, shape, hfound, hform, rfl, rfl⟩, Claims.claim_adds hclaimed⟩

theorem outputDecl_ok {name : String} {decl : OutputDecl}
    (h : ctx.outputDecl op name functions = .ok (decl, after)) :
    decl.ident = Code.functionIdent "parse_" op.name "_output" ∧
      Decodes ctx (some name) decl.decoder decl.type ∧ functions.Adds [decl.ident] after := by
  unfold outputDecl at h
  obtain ⟨shape, hshape, h⟩ := Failing.bind_eq_ok.mp h
  obtain ⟨claimed, hclaimed, h⟩ := Failing.bind_eq_ok.mp h
  cases h
  obtain ⟨hfound, hform⟩ := structNamed_ok hshape
  exact ⟨rfl, ⟨name, rfl, shape, hfound, hform, rfl, rfl⟩, Claims.claim_adds hclaimed⟩

theorem failureDecl_ok {decl : FailureDecl}
    (h : ctx.failureDecl op functions = .ok (decl, after)) :
    FailureOf ctx op decl ∧ functions.Adds [decl.ident] after := by
  unfold failureDecl at h
  obtain ⟨claimed, hclaimed, h⟩ := Failing.bind_eq_ok.mp h
  obtain ⟨shapes, hshapes, h⟩ := Failing.bind_eq_ok.mp h
  cases h
  exact ⟨⟨rfl, rfl, rfl, shapes, hshapes, rfl⟩, Claims.claim_adds hclaimed⟩

/-- What is declared for a part of an operation that there may be. -/
theorem optional_ok {α : Type} (identOf : α → Ident) (ident : Ident) (Q : Option String → α → Prop)
    {declare : String → Claims → Except GenerateError (α × Claims)} {part : Option String}
    {decl : Option α}
    (hdeclare : ∀ name decl before after, declare name before = .ok (decl, after) →
      identOf decl = ident ∧ Q (some name) decl ∧ before.Adds [identOf decl] after)
    (h : optional part declare functions = .ok (decl, after)) :
    (decl.toList.map identOf = part.toList.map fun _ ↦ ident) ∧ (∀ made ∈ decl, Q part made) ∧
      functions.Adds (decl.toList.map identOf) after := by
  cases part with
  | none =>
    cases h
    exact ⟨rfl, by simp, .refl _⟩
  | some name =>
    obtain ⟨⟨made, claimed⟩, hmade, heq⟩ := Failing.map_eq_ok.mp h
    cases heq
    obtain ⟨hident, hof, hadds⟩ := hdeclare name made _ _ hmade
    refine ⟨congrArg (fun ident ↦ [ident]) hident, fun other hother ↦ ?_, hadds⟩
    obtain rfl := Option.some.inj hother
    exact hof

theorem operationDecl_ok {decl : OperationDecl}
    (h : ctx.operationDecl op functions = .ok (decl, after)) :
    OperationOf ctx op decl ∧ functions.Adds decl.functionIdents after := by
  unfold operationDecl at h
  obtain ⟨⟨input, first⟩, hinput, h⟩ := Failing.bind_eq_ok.mp h
  obtain ⟨⟨output, second⟩, houtput, h⟩ := Failing.bind_eq_ok.mp h
  obtain ⟨⟨failure, third⟩, hfailure, h⟩ := Failing.bind_eq_ok.mp h
  cases h
  obtain ⟨hinputs, hinputOf, hfirst⟩ := optional_ok InputDecl.ident _
    (fun named made ↦ Decodes ctx named made.decoder made.type)
    (fun name decl before after ↦ inputDecl_ok) hinput
  obtain ⟨houtputs, houtputOf, hsecond⟩ := optional_ok OutputDecl.ident _
    (fun named made ↦ Decodes ctx named made.decoder made.type)
    (fun name decl before after ↦ outputDecl_ok) houtput
  obtain ⟨hfailureOf, hthird⟩ := failureDecl_ok hfailure
  have hidents : OperationDecl.functionIdents ⟨op.name, input, output, failure⟩ =
      entryPoints op := by
    rw [OperationDecl.functionIdents, hinputs, houtputs, hfailureOf.ident_eq, entryPoints]
  exact ⟨⟨hidents, hinputOf, houtputOf, hfailureOf⟩, (hfirst.trans hsecond).trans hthird⟩

theorem operationsFor_ok {ops : List Operation} {decls : List OperationDecl}
    (h : ctx.operationsFor functions ops = .ok decls) :
    List.Forall₂ (OperationOf ctx) ops decls ∧
      ∃ after, functions.Adds (decls.flatMap OperationDecl.functionIdents) after := by
  induction ops generalizing functions decls with
  | nil =>
    cases h
    exact ⟨.nil, functions, .refl _⟩
  | cons op rest ih =>
    unfold operationsFor at h
    obtain ⟨⟨decl, claimed⟩, hdecl, h⟩ := Failing.bind_eq_ok.mp h
    obtain ⟨others, hothers, h⟩ := Failing.bind_eq_ok.mp h
    cases h
    obtain ⟨hof, hadds⟩ := operationDecl_ok hdecl
    obtain ⟨hall, after, hmore⟩ := ih hothers
    exact ⟨.cons hof hall, after, hadds.trans hmore⟩

end Context

end WireShapes.Bindings
