import WireShapes.Proofs.Barrier
import WireShapes.Proofs.Meaning
import WireShapes.Proofs.Resolution

/-!
# The arms of decoders

The decoder of a structure or a union has an arm for every member that is a child, in the order of
the members.  An arm knows the name that its member is bound to.  What is done with the children
that have this name follows from the member's target: the last one is the value, or, where the member
is flattened, each is an item of the list or an entry of the map.  The main statement
(`Bindings.decoder_serves`) is about the decoders of all models.
-/

namespace WireShapes

namespace Member

variable {owner target : Shape} {member : Member} {placement : Placement}

theorem isAttribute_of_placement (h : member.placement owner target = .ok placement) :
    member.isAttribute = (placement == .attribute) := by
  unfold Member.placement at h
  split at h
  next hattribute =>
    split at h <;> cases h <;> exact hattribute
  next hattribute =>
    have hnot : member.isAttribute = false := by simpa using hattribute
    split at h
    · split at h <;> cases h <;> exact hnot
    · cases h
      exact hnot

theorem flattened_of_placement (h : member.placement owner target = .ok placement)
    (hne : placement ≠ .attribute) : member.flattened = (placement == .flattened) := by
  have hattribute : ¬ member.isAttribute = true := by
    simp [isAttribute_of_placement h, hne]
  unfold Member.placement at h
  rw [if_neg hattribute] at h
  split at h
  next hflattened =>
    split at h <;> cases h <;> exact hflattened
  next hflattened =>
    cases h
    exact Bool.eq_false_iff.mpr hflattened

end Member

namespace Bindings

open Code (Ident)

/-! ## What members ask for -/

/-- How an element is read as a value of a shape. -/
def sourceOf (shape : Shape) : Source :=
  match shape.form with
  | .scalar .string => .text .string
  | .scalar kind => .text (.scalar kind)
  | .enum _ => .text (.enum (Code.camelIdent shape.name))
  | .struct _ => .struct (decoderIdent shape.name) (Code.camelIdent shape.name)
  | .union _ | .list _ | .map _ _ => .shape (decoderIdent shape.name)

/-- How an element is read as a value of a reference's target. -/
def sourceAt? (m : Model) (ref : Reference) : Option Source :=
  (m.shape? ref.target).map sourceOf

/-- Whether the last child is read as a value of the target, or, where the target is flattened, each
one as an item of the list or an entry of the map. -/
def Gathering.suits (g : Gathering) (m : Model) (flattened : Bool) (target : Shape) : Bool :=
  match g, flattened, target.form with
  | .last source, false, _ => source = sourceOf target
  | .all source, true, .list item => sourceAt? m item.target = some source
  | .keyed entry, true, .map _ _ => entry = entryIdent target.name
  | _, _, _ => false

/-- The names inside a collection as they are looked for. -/
def innerPatterns (shape : Shape) (defaults : Defaults) : List String :=
  match shape.innerNames? defaults with
  | some (.list item) => [item.toText]
  | some (.map entry key value) => [entry.toText, key.toText, value.toText]
  | none => []

/-- An arm is for a member: it knows the name that the member is bound to, and puts the children of
this name together as the member's target asks for. -/
structure ArmOf (m : Model) (defaults : Defaults) (owner : Shape) (member : Member)
    (pattern name : String) (g : Gathering) : Prop where
  name_eq : name = member.name
  bound : ∃ binding, m.bind owner member defaults = .ok binding ∧ pattern = binding.name.toText
  gathers : ∃ target, m.shape? member.target.target = some target ∧
    g.suits m member.flattened target = true

/-- An arm of a union gives the variant of its member. -/
structure UnionArmOf (m : Model) (defaults : Defaults) (owner : Shape) (member : Member)
    (arm : UnionArm) : Prop where
  variant_eq : arm.variant = Code.camelIdent member.name
  arm : ArmOf m defaults owner member arm.pattern arm.member arm.action.gathering

/-- What is given as an attribute is read from the attribute of the name that the member is bound
to. -/
structure AttributeArmOf (m : Model) (defaults : Defaults) (owner : Shape) (member : Member)
    (arm : AttributeArm) : Prop where
  name_eq : arm.member = member.name
  bound : ∃ binding, m.bind owner member defaults = .ok binding ∧
    arm.pattern = binding.name.toText
  source : sourceAt? m member.target = some (.text arm.value.source)

/-- A decoder looks for what its shape is made of, in order, and for nothing else. -/
def DecoderDecl.Serves (m : Model) (defaults : Defaults) (shape : Shape) : DecoderDecl → Prop
  | .struct d => ∃ members, shape.form = .struct members ∧
      List.Forall₂ (AttributeArmOf m defaults shape) (members.filter Member.isAttribute)
        d.attributes ∧
      List.Forall₂ (fun member arm ↦
          ArmOf m defaults shape member arm.pattern arm.member arm.action.gathering)
        (members.filter fun member ↦ !member.isAttribute) d.arms
  | .union d => ∃ members, shape.form = .union members ∧
      List.Forall₂ (UnionArmOf m defaults shape) members d.arms
  | .list d => ∃ item, shape.form = .list item ∧ innerPatterns shape defaults = [d.pattern] ∧
      sourceAt? m item.target = some d.item.source
  | .map d => ∃ key value, shape.form = .map key value ∧
      innerPatterns shape defaults = [d.entryPattern, d.keyPattern, d.valuePattern] ∧
      d.entryIdent = entryIdent shape.name ∧
      sourceAt? m key.target = some (.text d.key.source) ∧
      sourceAt? m value.target = some d.value.source

/-! ## Arms one by one -/

theorem eq_sourceOf {target : Shape} {source : Source} (h : SourceOf target source) :
    source = sourceOf target := by
  unfold sourceOf
  cases source with
  | text source =>
    cases source with
    | string => rw [show target.form = .scalar .string from h]
    | scalar kind =>
      obtain ⟨hkind, hform⟩ := h
      rw [hform]
      cases kind with
      | string => exact absurd rfl hkind
      | _ => rfl
    | enum type =>
      obtain ⟨⟨values, hform⟩, rfl⟩ := h
      rw [hform]
  | struct decoder type =>
    obtain ⟨⟨members, hform⟩, rfl, rfl⟩ := h
    rw [hform]
  | shape decoder =>
    obtain ⟨rfl, ⟨members, hform⟩ | ⟨item, hform⟩ | ⟨key, value, hform⟩⟩ := h <;> rw [hform]

section

variable {ctx : Context} {owner target : Shape} {member : Member} {members : List Member}

theorem sourceAt?_of_reads {ref : Reference} {value : Boxing Source} (h : Reads ctx ref value) :
    sourceAt? ctx.model ref = some value.source := by
  obtain ⟨-, target, htarget, hsource⟩ := h
  rw [sourceAt?, htarget, eq_sourceOf hsource]
  rfl

theorem suits_structAction {action : StructAction} (h : ActionOf ctx member action)
    (htarget : ctx.model.shape? member.target.target = some target) :
    action.gathering.suits ctx.model (action.placement == .flattened) target = true := by
  cases action with
  | set setter value =>
    have hsource := sourceAt?_of_reads h.2
    rw [sourceAt?, htarget] at hsource
    exact decide_eq_true (Option.some.inj hsource).symm
  | push method value =>
    obtain ⟨-, found, item, hfound, hform, hreads⟩ := h
    obtain rfl : target = found := Option.some.inj (htarget.symm.trans hfound)
    simpa [Gathering.suits, StructAction.gathering, StructAction.placement, hform] using
      sourceAt?_of_reads hreads
  | insert method entry =>
    obtain ⟨-, found, key, value, hfound, hform, hentry⟩ := h
    obtain rfl : target = found := Option.some.inj (htarget.symm.trans hfound)
    simpa [Gathering.suits, StructAction.gathering, StructAction.placement, hform] using hentry

theorem suits_unionAction {action : UnionAction} (h : UnionActionOf ctx member action)
    (htarget : ctx.model.shape? member.target.target = some target) :
    action.gathering.suits ctx.model (action.placement == .flattened) target = true := by
  cases action with
  | set value =>
    have hsource := sourceAt?_of_reads h
    rw [sourceAt?, htarget] at hsource
    exact decide_eq_true (Option.some.inj hsource).symm
  | push value =>
    obtain ⟨found, item, hfound, hform, hreads⟩ := h
    obtain rfl : target = found := Option.some.inj (htarget.symm.trans hfound)
    simpa [Gathering.suits, UnionAction.gathering, UnionAction.placement, hform] using
      sourceAt?_of_reads hreads
  | insert entry =>
    obtain ⟨found, key, value, hfound, hform, hentry⟩ := h
    obtain rfl : target = found := Option.some.inj (htarget.symm.trans hfound)
    simpa [Gathering.suits, UnionAction.gathering, UnionAction.placement, hform] using hentry

/-- A member that is bound on its own account is placed as its arm says. -/
theorem exists_bind_of_boundAs (hbinds : ctx.Binds owner member) {pattern : String}
    {placement : Placement} (h : BoundAs ctx owner member pattern placement) :
    (∃ binding, ctx.model.bind owner member ctx.defaults = .ok binding ∧
      pattern = binding.name.toText) ∧
    ∃ target, ctx.model.shape? member.target.target = some target ∧
      member.placement owner target = .ok placement := by
  obtain ⟨binding, hbinding, hpattern, rfl⟩ := h
  obtain ⟨found, hfound, hbind⟩ := hbinds
  obtain rfl : found = binding := Except.ok.inj (hfound.symm.trans hbinding)
  obtain ⟨target, placement, htarget, hplacement, rfl⟩ := exists_target_of_bind hbind
  exact ⟨⟨_, hbind, hpattern⟩, target, htarget, hplacement⟩

theorem armOf_of_boundAs (hbinds : ctx.Binds owner member) {pattern : String}
    {placement : Placement} (h : BoundAs ctx owner member pattern placement)
    (hne : placement ≠ .attribute) {g : Gathering}
    (hsuits : ∀ target, ctx.model.shape? member.target.target = some target →
      g.suits ctx.model (placement == .flattened) target = true) :
    member.isAttribute = false ∧
      ArmOf ctx.model ctx.defaults owner member pattern member.name g := by
  obtain ⟨hbound, target, htarget, hplacement⟩ := exists_bind_of_boundAs hbinds h
  refine ⟨by simp [Member.isAttribute_of_placement hplacement, hne], rfl, hbound, target, htarget,
    ?_⟩
  rw [Member.flattened_of_placement hplacement hne]
  exact hsuits target htarget

/-! ## All arms of a decoder -/

/-- Members are given as attributes or as children, each by an arm of its own. -/
theorem structArms_serve (hbinds : ∀ member ∈ members, ctx.Binds owner member)
    {made : List AttributeArm × List StructArm} (h : ctx.structArms owner members = .ok made) :
    List.Forall₂ (AttributeArmOf ctx.model ctx.defaults owner)
        (members.filter Member.isAttribute) made.1 ∧
      List.Forall₂ (fun member arm ↦ ArmOf ctx.model ctx.defaults owner member arm.pattern
          arm.member arm.action.gathering)
        (members.filter fun member ↦ !member.isAttribute) made.2 := by
  induction members generalizing made with
  | nil =>
    cases h
    exact ⟨.nil, .nil⟩
  | cons member rest ih =>
    obtain ⟨hmember, hrest⟩ := List.forall_mem_cons.mp hbinds
    obtain ⟨others, hothers, hmade⟩ := Context.structArms_cons_ok h
    obtain ⟨hattributes, harms⟩ := ih hrest hothers
    rcases hmade with ⟨arm, rfl, hbound, hname, -, hreads⟩ | ⟨arm, rfl, hbound, hname, haction⟩
    · obtain ⟨hpattern, target, -, hplacement⟩ := exists_bind_of_boundAs hmember hbound
      have hgiven : member.isAttribute = true := Member.isAttribute_of_placement hplacement
      rw [List.filter_cons_of_pos hgiven, List.filter_cons_of_neg (by simp [hgiven])]
      exact ⟨.cons ⟨hname, hpattern, sourceAt?_of_reads hreads⟩ hattributes, harms⟩
    · have hplace : arm.action.placement ≠ .attribute := by
        cases arm.action <;> simp [StructAction.placement]
      obtain ⟨hnot, harm⟩ := armOf_of_boundAs hmember hbound hplace fun _ htarget ↦
        suits_structAction haction htarget
      rw [List.filter_cons_of_neg (by simp [hnot]), List.filter_cons_of_pos (by simp [hnot])]
      exact ⟨hattributes, .cons (hname ▸ harm) harms⟩

theorem unionArms_serve (hbinds : ∀ member ∈ members, ctx.Binds owner member)
    {arms : List UnionArm} (h : members.mapM (ctx.unionArm owner) = .ok arms) :
    List.Forall₂ (UnionArmOf ctx.model ctx.defaults owner) members arms := by
  induction members generalizing arms with
  | nil =>
    cases h
    exact .nil
  | cons member rest ih =>
    obtain ⟨hmember, hrest⟩ := List.forall_mem_cons.mp hbinds
    rw [List.mapM_cons] at h
    obtain ⟨arm, harm, h⟩ := Failing.bind_eq_ok.mp h
    obtain ⟨others, hothers, h⟩ := Failing.bind_eq_ok.mp h
    obtain rfl := Except.ok.inj h
    obtain ⟨hbound, hname, hvariant, haction⟩ := Context.unionArm_ok harm
    have hplace : arm.action.placement ≠ .attribute := by
      cases arm.action <;> simp [UnionAction.placement]
    have hof := (armOf_of_boundAs hmember hbound hplace fun _ htarget ↦
      suits_unionAction haction htarget).2
    exact .cons ⟨hvariant, hname ▸ hof⟩ (ih hrest hothers)

end

/-! ## Generated decoders -/

/-- The decoders of a model's bindings look for what the shapes of the model are made of: the
members of a structure or union by the names that they are bound to, each read as its target asks
for, and the items, entries, keys and values of collections. -/
theorem decoder_serves {m : Model} {defaults : Defaults} {b : Bindings} (hkeyed : m.Keyed)
    (h : m.bindings defaults = .ok b) {decl : DecoderDecl} (hdecl : decl ∈ b.decoders) :
    ∃ shape ∈ m.breakCycles.shapes.values, decl.ident = decoderIdent shape.name ∧
      decl.Serves m.breakCycles defaults shape := by
  obtain ⟨ctx, hmodel, hdefaults, hsymbols, hbindings, hmade⟩ := exists_of_bindings h
  have hbroken : ctx.model.Keyed := hmodel ▸ hkeyed.breakCycles
  rw [← hdefaults] at hbindings
  have hresolved : ctx.Resolved := ⟨hbroken, hsymbols, hbindings⟩
  obtain ⟨shape, hshape, -, hof⟩ := exists_shape_of_mem_decoders hbroken hbindings hmade hdecl
  rw [← hmodel, ← hdefaults]
  refine ⟨shape, hshape, hof.ident_eq, ?_⟩
  cases decl with
  | struct d =>
    obtain ⟨members, hform, hof⟩ := hof
    obtain ⟨made, -, hdeclared⟩ := exists_struct hmade hshape hform
    have hmembers := Shape.members_of_struct hform
    exact ⟨members, hform, structArms_serve (fun member hmember ↦
      hresolved.binds hshape (hmembers ▸ hdeclared.members_nodup) (hmembers ▸ hmember)) hof.made⟩
  | union d =>
    obtain ⟨members, hform, hof⟩ := hof
    obtain ⟨made, -, hdeclared⟩ := exists_union hmade hshape hform
    have hmembers := Shape.members_of_union hform
    exact ⟨members, hform, unionArms_serve (fun member hmember ↦
      hresolved.binds hshape (hmembers ▸ hdeclared.members_nodup) (hmembers ▸ hmember)) hof.made⟩
  | list d =>
    obtain ⟨item, hform, hof⟩ := hof
    obtain ⟨name, hnames, hpattern⟩ := hof.names
    exact ⟨item, hform, by simp [innerPatterns, hnames, hpattern], sourceAt?_of_reads hof.item⟩
  | map d =>
    obtain ⟨key, value, hform, hof⟩ := hof
    obtain ⟨entryName, keyName, valueName, hnames, hentry, hkey, hvalue⟩ := hof.names
    exact ⟨key, value, hform, by simp [innerPatterns, hnames, hentry, hkey, hvalue], hof.entry_eq,
      sourceAt?_of_reads hof.key, sourceAt?_of_reads hof.value⟩

end Bindings

end WireShapes
