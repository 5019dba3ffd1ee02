import WireShapes.Proofs.Ambiguity
import WireShapes.Proofs.CollectionTypes
import WireShapes.Proofs.DecoderDecls

/-!
# What can fail once everything is resolved

Declarations are made after the symbols and bindings of a model have been resolved.  By then every
reference leads to a shape of the model that has a type, every flattened member targets a list or a
map, every attribute a text, and every member has a binding.  So what is looked up is found, and what
is left to fail are names: those that clash, and those of operations that name no structure.

A binding is found by the names of its shape and member.  Of two members with one name only the
later one is found, but such members never get as far as their decoder: their fields or variants
clash, and the types are declared first.
-/

namespace WireShapes

open Failing

/-- Identifiers that clash, or an operation that names something other than a structure. -/
def GenerateError.OfNames : GenerateError → Prop
  | .duplicateIdent _ _ _ _ | .reservedVariant _ _ | .invalidOperationShape _ _ => True
  | _ => False

/-- What fails, fails for names. -/
abbrev OnNames {α : Type} (x : Except GenerateError α) : Prop :=
  FailsWith GenerateError.OfNames x

/-- The text of an element or attribute has values of the form. -/
def Form.IsText (form : Form) : Prop :=
  (∃ kind, form = .scalar kind) ∨ ∃ values, form = .enum values

/-! ## Placements -/

namespace Member

variable {owner target : Shape} {member : Member}

theorem placement_attribute (h : member.placement owner target = .ok .attribute) :
    (∀ members, owner.form ≠ .union members) ∧ target.form.IsText := by
  unfold placement at h
  split at h
  · split at h
    · cases h
    next kind hform hunion => exact ⟨hunion, .inl ⟨kind, hform⟩⟩
    next values hform hunion => exact ⟨hunion, .inr ⟨values, hform⟩⟩
    · cases h
  · split at h
    · split at h <;> cases h
    · cases h

theorem placement_flattened (h : member.placement owner target = .ok .flattened) :
    (∃ item, target.form = .list item) ∨ ∃ key value, target.form = .map key value := by
  unfold placement at h
  split at h
  · split at h <;> cases h
  · split at h
    · split at h
      next item hform => exact .inl ⟨item, hform⟩
      next key value hform => exact .inr ⟨key, value, hform⟩
      · cases h
    · cases h

end Member

/-- The keys of a resolved map are texts. -/
theorem BindingMap.isText_key {m : Model} {defaults : Defaults} {t : BindingMap} {shape : Shape}
    {key value : Item} (h : ofModel m defaults = .ok t) (hshape : shape ∈ m.shapes.values)
    (hform : shape.form = .map key value) :
    ∃ target, m.shape? key.target.target = some target ∧ target.form.IsText := by
  obtain ⟨before, after, hstep⟩ := exists_step_of_foldlM_ok h hshape
  simp only [addShape, hform, addMap] at hstep
  split at hstep
  · cases hstep
  next hkey =>
    have hkey : isKey (m.shape? key.target.target) = true := by simpa using hkey
    cases htarget : m.shape? key.target.target with
    | none => simp [htarget, isKey] at hkey
    | some target =>
      refine ⟨target, rfl, ?_⟩
      rw [htarget] at hkey
      unfold isKey at hkey
      split at hkey
      next hscalar => exact .inl ⟨_, Option.some.inj hscalar⟩
      next values henum => exact .inr ⟨values, Option.some.inj henum⟩
      · cases hkey

namespace Bindings

open Code (Ident)

/-! ## Looking things up -/

namespace Context

/-- The context holds what was resolved about its model. -/
structure Resolved (ctx : Context) : Prop where
  keyed : ctx.model.Keyed
  symbols : SymbolMap.ofModel ctx.model = .ok ctx.symbols
  bindings : BindingMap.ofModel ctx.model ctx.defaults = .ok ctx.bindings

/-- Whatever the declarations for a shape look up in the model and its symbols is there. -/
structure LooksUp (ctx : Context) (shape : Shape) : Prop where
  own : ∃ type, ctx.typeOf shape = .ok type
  targets : ∀ slot ref, (slot, ref) ∈ shape.refs →
    ∃ target ∈ ctx.model.shapes.values, ctx.targetOf shape ref = .ok target
  types : ∀ slot ref, (slot, ref) ∈ shape.refs → ∃ type, ctx.typeAt shape ref = .ok type

/-- The binding that is looked up for a member is the one that was resolved for it. -/
def Binds (ctx : Context) (shape : Shape) (member : Member) : Prop :=
  ∃ binding, ctx.binding shape member = .ok binding ∧
    ctx.model.bind shape member ctx.defaults = .ok binding

/-- A shape's decoder is made, from the bindings of the shape's own members. -/
structure Emits (ctx : Context) (shape : Shape) : Prop where
  binds : ∀ member ∈ shape.members, ctx.Binds shape member
  struct : ∀ members, shape.form = .struct members →
    ∃ decl, ctx.structDecoder shape members = .ok decl
  union : ∀ members, shape.form = .union members →
    ∃ decl, ctx.unionDecoder shape members = .ok decl
  list : ∀ item, shape.form = .list item → ∃ decl, ctx.listDecoder? shape item = .ok (some decl)
  map : ∀ key value, shape.form = .map key value →
    ∃ decl, ctx.mapDecoder? shape key value = .ok (some decl)

variable {ctx : Context} {shape : Shape}

theorem resolved_of_ok {m : Model} {defaults : Defaults} (hkeyed : m.Keyed)
    (h : m.resolved defaults = .ok ctx) : ctx.Resolved := by
  unfold Model.resolved at h
  obtain ⟨symbols, hsymbols, h⟩ := bind_eq_ok.mp h
  obtain ⟨bindings, hbindings, h⟩ := bind_eq_ok.mp h
  obtain rfl := Except.ok.inj h
  exact ⟨hkeyed, hsymbols, hbindings⟩

theorem Resolved.looksUp (h : ctx.Resolved) (hshape : shape ∈ ctx.model.shapes.values) :
    ctx.LooksUp shape := by
  have hfound := h.keyed.shape?_eq_some hshape
  have hsymbol (name : String) (hknown : ctx.model.Known name) :
      ∃ symbol, ctx.symbols.shape? name = some symbol :=
    Option.isSome_iff_exists.mp (SymbolMap.isSome_shape?_ofModel h.symbols name ▸ hknown)
  have hknown (slot : Slot) (ref : Reference) (href : (slot, ref) ∈ shape.refs) :
      ctx.model.Known ref.target :=
    Model.known_of_firstUnknown? (SymbolMap.firstUnknown?_of_ofModel h.symbols) hfound href
  constructor
  case own =>
    obtain ⟨symbol, hsymbol⟩ := hsymbol shape.name (Option.isSome_of_eq_some hfound)
    exact ⟨symbol.type, by simp [typeOf, hsymbol]⟩
  case targets =>
    intro slot ref href
    obtain ⟨target, htarget⟩ := Option.isSome_iff_exists.mp (hknown slot ref href)
    exact ⟨target, Model.mem_values_of_shape? htarget, by simp [targetOf, htarget]⟩
  case types =>
    intro slot ref href
    obtain ⟨symbol, hsymbol⟩ := hsymbol ref.target (hknown slot ref href)
    exact ⟨(symbol.forReference ref.indirect).type,
      by simp [typeAt, SymbolMap.reference?, hsymbol]⟩

/-- Where the members of a shape have different names, each has its own binding. -/
theorem Resolved.binds (h : ctx.Resolved) (hshape : shape ∈ ctx.model.shapes.values)
    (hnodup : (shape.members.map Member.name).Nodup) {member : Member}
    (hmember : member ∈ shape.members) : ctx.Binds shape member := by
  obtain ⟨hsound, hcovers⟩ := BindingMap.ofModel_holds h.bindings
  obtain ⟨binding, hbinding⟩ :=
    Option.isSome_iff_exists.mp ((hcovers shape hshape).members member hmember)
  obtain ⟨owner, howner, other, hother, hname, hsame, hbind⟩ := hsound.members _ _ _ hbinding
  obtain rfl : owner = shape :=
    List.inj_on_of_nodup_map h.keyed.values_nodup howner hshape hname
  obtain rfl : other = member := List.inj_on_of_nodup_map hnodup hother hmember hsame
  exact ⟨binding, by simp [Context.binding, hbinding], hbind⟩

end Context

/-! ## Types -/

namespace Claims

theorem onNames_claim (claims : Claims) (ident : Ident) (owner : String) :
    OnNames (claims.claim ident owner) := by
  unfold claim
  split
  · exact failsWith_error trivial
  · exact failsWith_ok _

theorem onNames_claimAll (claims : Claims) (idents : List Ident) (owner : String) :
    OnNames (claims.claimAll idents owner) :=
  failsWith_foldlM fun ident _ claims ↦ claims.onNames_claim ident owner

end Claims

theorem onNames_variantIdent (shape : Shape) (name : String) :
    OnNames (variantIdent shape name) := by
  unfold variantIdent
  split
  · exact failsWith_error trivial
  · exact failsWith_ok _

theorem onNames_enumCases (shape : Shape) (variants : Claims) (values : List EnumValue) :
    OnNames (enumCases shape variants values) := by
  induction values generalizing variants with
  | nil => exact failsWith_ok _
  | cons value rest ih =>
    unfold enumCases
    refine (onNames_variantIdent shape value.name).bind fun variant _ ↦ ?_
    refine (variants.onNames_claim variant value.name).bind fun claimed _ ↦ ?_
    exact (ih claimed).bind fun cases _ ↦ failsWith_ok _

theorem onNames_enumDecl (shape : Shape) (values : List EnumValue) :
    OnNames (enumDecl shape values) :=
  (onNames_enumCases shape _ values).bind fun _ _ ↦ failsWith_ok _

namespace Context

variable {ctx : Context} {owner shape : Shape} {member : Member} {members : List Member}

theorem onNames_claimTypes (ctx : Context) : OnNames ctx.claimTypes := by
  unfold claimTypes
  refine (failsWith_foldlM fun shape _ claims ↦ ?_).bind fun claims _ ↦
    (failsWith_foldlM fun op _ claims ↦ claims.onNames_claim _ _).bind fun _ _ ↦ failsWith_ok _
  split
  · exact claims.onNames_claimAll _ _
  · exact claims.onNames_claim _ _
  · exact claims.onNames_claim _ _
  · exact failsWith_ok _

theorem onNames_structNamed (ctx : Context) (op : Operation) (name : String) :
    OnNames (ctx.structNamed op name) := by
  unfold structNamed
  split
  · split
    · exact failsWith_ok _
    · exact failsWith_error trivial
  · exact failsWith_error trivial

theorem onNames_addErrors (ctx : Context) (op : Operation) (found : List Shape)
    (names : List String) : OnNames (ctx.addErrors op found names) := by
  induction names generalizing found with
  | nil => exact failsWith_ok _
  | cons name rest ih =>
    unfold addErrors
    refine (ctx.onNames_structNamed op name).bind fun shape _ ↦ ?_
    split
    · exact ih found
    · exact ih _

theorem onNames_errorShapes (ctx : Context) (op : Operation) : OnNames (ctx.errorShapes op) :=
  ctx.onNames_addErrors op [] op.errors

theorem onNames_errorCases (variants : Claims) (shapes : List Shape) :
    OnNames (errorCases variants shapes) := by
  induction shapes generalizing variants with
  | nil => exact failsWith_ok _
  | cons shape rest ih =>
    unfold errorCases
    refine (variants.onNames_claim _ _).bind fun claimed _ ↦ ?_
    exact (ih claimed).bind fun cases _ ↦ failsWith_ok _

theorem onNames_operationErrorDecl (ctx : Context) (op : Operation) :
    OnNames (ctx.operationErrorDecl op) := by
  unfold operationErrorDecl
  refine (Claims.onNames_claim _ _ _).bind fun variants _ ↦ ?_
  refine (ctx.onNames_errorShapes op).bind fun shapes _ ↦ ?_
  exact (onNames_errorCases variants shapes).bind fun cases _ ↦ failsWith_ok _

section Members

variable (hlooks : ∀ shape ∈ ctx.model.shapes.values, ctx.LooksUp shape)
  (howner : owner ∈ ctx.model.shapes.values)

include hlooks howner

theorem exists_target (hmember : member ∈ owner.members) :
    ∃ target ∈ ctx.model.shapes.values, ctx.targetOf owner member.target = .ok target := by
  obtain ⟨slot, hslot⟩ := Shape.exists_slot_of_mem_members hmember
  exact (hlooks owner howner).targets slot _ hslot

theorem onNames_typeAt (hmember : member ∈ owner.members) :
    OnNames (ctx.typeAt owner member.target) := by
  obtain ⟨slot, hslot⟩ := Shape.exists_slot_of_mem_members hmember
  exact failsWith_of_exists ((hlooks owner howner).types slot _ hslot)

theorem onNames_adder? (hmember : member ∈ owner.members) (methods : Claims) :
    OnNames (ctx.adder? owner member methods) := by
  obtain ⟨target, htarget, hfound⟩ := exists_target hlooks howner hmember
  have htype {slot : Slot} {ref : Reference} (href : (slot, ref) ∈ target.refs) :
      OnNames (ctx.typeAt target ref) :=
    failsWith_of_exists ((hlooks target htarget).types slot ref href)
  unfold adder?
  rw [hfound]
  refine (failsWith_ok target).bind fun target' htarget' ↦ ?_
  obtain rfl := Except.ok.inj htarget'
  cases hform : target.form with
  | list item =>
    refine (methods.onNames_claim _ _).bind fun claimed _ ↦ ?_
    exact (htype (Shape.item_mem_refs hform)).bind fun type _ ↦ failsWith_ok _
  | map key value =>
    refine (methods.onNames_claim _ _).bind fun claimed _ ↦ ?_
    refine (htype (Shape.key_mem_refs hform)).bind fun keyType _ ↦ ?_
    exact (htype (Shape.value_mem_refs hform)).bind fun type _ ↦ failsWith_ok _
  | scalar kind | struct members | union members | enum values => exact failsWith_ok _

theorem onNames_fields (methods : Claims) (hmembers : ∀ member ∈ members, member ∈ owner.members) :
    OnNames (ctx.fields owner methods members) := by
  induction members generalizing methods with
  | nil => exact failsWith_ok _
  | cons member rest ih =>
    obtain ⟨hmember, hrest⟩ := List.forall_mem_cons.mp hmembers
    unfold Context.fields
    refine (methods.onNames_claimAll _ _).bind fun claimed _ ↦ ?_
    refine (onNames_typeAt hlooks howner hmember).bind fun type _ ↦ ?_
    refine (onNames_adder? hlooks howner hmember claimed).bind ?_
    rintro ⟨adder, added⟩ -
    exact (ih added hrest).bind fun fields _ ↦ failsWith_ok _

theorem onNames_messageField? {pairs : List (Member × Field)}
    (hpairs : ∀ pair ∈ pairs, pair.1 ∈ owner.members) :
    OnNames (ctx.messageField? owner pairs) := by
  induction pairs with
  | nil => exact failsWith_ok _
  | cons pair rest ih =>
    obtain ⟨hpair, hrest⟩ := List.forall_mem_cons.mp hpairs
    obtain ⟨target, -, hfound⟩ := exists_target hlooks howner hpair
    unfold messageField?
    refine FailsWith.bind ?_ fun holds _ ↦ ?_
    · exact (failsWith_of_exists ⟨target, hfound⟩).bind fun _ _ ↦ failsWith_ok _
    · split
      · exact failsWith_ok _
      · exact ih hrest

theorem onNames_structDecl (hform : owner.form = .struct members) :
    OnNames (ctx.structDecl owner members) := by
  have hmembers := Shape.members_of_struct hform
  unfold structDecl
  refine (Claims.onNames_claim _ _ _).bind fun methods _ ↦ ?_
  refine (onNames_fields hlooks howner methods fun _ hmem ↦ hmembers ▸ hmem).bind
    fun fields _ ↦ ?_
  have hmessage : OnNames (ctx.messageField? owner (members.zip fields)) :=
    onNames_messageField? hlooks howner fun pair hpair ↦ hmembers ▸ (List.of_mem_zip hpair).1
  dsimp only
  split
  · exact (hmessage.map _).bind fun display _ ↦ failsWith_ok _
  · exact failsWith_ok _

theorem onNames_unionCases (variants methods : Claims)
    (hmembers : ∀ member ∈ members, member ∈ owner.members) :
    OnNames (ctx.unionCases owner variants methods members) := by
  induction members generalizing variants methods with
  | nil => exact failsWith_ok _
  | cons member rest ih =>
    obtain ⟨hmember, hrest⟩ := List.forall_mem_cons.mp hmembers
    unfold unionCases
    refine (onNames_variantIdent owner member.name).bind fun variant _ ↦ ?_
    refine (variants.onNames_claim _ _).bind fun claimed _ ↦ ?_
    refine (methods.onNames_claimAll _ _).bind fun accessible _ ↦ ?_
    refine (onNames_typeAt hlooks howner hmember).bind fun type _ ↦ ?_
    exact (ih claimed accessible hrest).bind fun cases _ ↦ failsWith_ok _

theorem onNames_typeDecl? : OnNames (ctx.typeDecl? owner) := by
  unfold typeDecl?
  cases hform : owner.form with
  | struct members => exact (onNames_structDecl hlooks howner hform).map _
  | union members =>
    have hmembers := Shape.members_of_union hform
    refine FailsWith.map ?_ _
    refine (Claims.onNames_claim _ _ _).bind fun methods _ ↦ ?_
    exact (onNames_unionCases hlooks howner _ methods fun _ hmem ↦ hmembers ▸ hmem).bind
      fun cases _ ↦ failsWith_ok _
  | enum values => exact (onNames_enumDecl owner values).map _
  | scalar kind | list item | map key value => exact failsWith_ok _

end Members

/-! ## Decoders -/

theorem elementSource_eq {ref : Reference} {target : Shape}
    (htarget : ctx.targetOf owner ref = .ok target) :
    ∃ source, ctx.elementSource owner ref = .ok ⟨source, ref.indirect⟩ := by
  unfold elementSource
  rw [htarget]
  exact ⟨_, rfl⟩

/-- What is read from an element of a text form is read from its text. -/
theorem elementSource_text {ref : Reference} {target : Shape}
    (htarget : ctx.targetOf owner ref = .ok target) (hform : target.form.IsText) :
    ∃ source, ctx.elementSource owner ref = .ok ⟨.text source, ref.indirect⟩ := by
  obtain ⟨source, hsource⟩ := elementSource_eq htarget
  obtain ⟨-, found, hfound, hof⟩ := elementSource_ok hsource
  obtain rfl : found = target := Option.some.inj (hfound.symm.trans (targetOf_ok htarget))
  cases source with
  | text source => exact ⟨source, hsource⟩
  | struct decoder type =>
    obtain ⟨⟨members, hstruct⟩, -⟩ := hof
    rcases hform with ⟨kind, hform⟩ | ⟨values, hform⟩ <;> simp [hform] at hstruct
  | shape decoder =>
    obtain ⟨-, hother⟩ := hof
    rcases hform with ⟨kind, hform⟩ | ⟨values, hform⟩ <;> simp [hform] at hother

theorem exists_attributeSource {ref : Reference} {target : Shape}
    (htarget : ctx.targetOf owner ref = .ok target) (hform : target.form.IsText) :
    ∃ value, ctx.attributeSource owner ref = .ok value := by
  obtain ⟨source, hsource⟩ := elementSource_text htarget hform
  exact ⟨⟨source, ref.indirect⟩, by rw [attributeSource, hsource]; rfl⟩

theorem exists_keySource {ref : Reference} {target : Shape}
    (htarget : ctx.targetOf owner ref = .ok target) (hform : target.form.IsText) :
    ∃ value, ctx.keySource owner ref = .ok value := by
  obtain ⟨source, hsource⟩ := elementSource_text htarget hform
  exact ⟨⟨source, ref.indirect⟩, by rw [keySource, hsource]; rfl⟩

section Resolved

variable (h : ctx.Resolved) (hshape : shape ∈ ctx.model.shapes.values)

include h hshape

theorem Resolved.elementSource {slot : Slot} {ref : Reference} (href : (slot, ref) ∈ shape.refs) :
    ∃ value, ctx.elementSource shape ref = .ok value := by
  obtain ⟨target, -, htarget⟩ := (h.looksUp hshape).targets slot ref href
  obtain ⟨source, hsource⟩ := elementSource_eq htarget
  exact ⟨_, hsource⟩

/-- A member's target is looked up, and it is one that its placement allows. -/
theorem Resolved.target_of_binds {member : Member} {binding : Binding}
    (hmember : member ∈ shape.members)
    (hbind : ctx.model.bind shape member ctx.defaults = .ok binding) :
    ∃ target ∈ ctx.model.shapes.values, ctx.targetOf shape member.target = .ok target ∧
      member.placement shape target = .ok binding.placement := by
  obtain ⟨slot, hslot⟩ := Shape.exists_slot_of_mem_members hmember
  obtain ⟨target, htarget, hfound⟩ := (h.looksUp hshape).targets slot _ hslot
  obtain ⟨other, placement, hother, hplacement, rfl⟩ := exists_target_of_bind hbind
  obtain rfl : other = target := Option.some.inj (hother.symm.trans (targetOf_ok hfound))
  exact ⟨other, htarget, hfound, hplacement⟩

theorem Resolved.structArms {members : List Member}
    (hmembers : ∀ member ∈ members, member ∈ shape.members)
    (hbinds : ∀ member ∈ members, ctx.Binds shape member) :
    ∃ made, ctx.structArms shape members = .ok made := by
  induction members with
  | nil => exact ⟨_, rfl⟩
  | cons member rest ih =>
    obtain ⟨hmember, hrest⟩ := List.forall_mem_cons.mp hmembers
    obtain ⟨⟨binding, hbinding, hbind⟩, hbindsRest⟩ := List.forall_mem_cons.mp hbinds
    obtain ⟨made, hmade⟩ := ih hrest hbindsRest
    obtain ⟨slot, hslot⟩ := Shape.exists_slot_of_mem_members hmember
    obtain ⟨target, htarget, hfound, hplacement⟩ := h.target_of_binds hshape hmember hbind
    unfold Context.structArms
    rw [hbinding, hmade]
    cases hplace : binding.placement with
    | «attribute» =>
      obtain ⟨value, hvalue⟩ :=
        exists_attributeSource hfound (Member.placement_attribute (hplace ▸ hplacement)).2
      exact ⟨_, by simp only [bind_ok, hplace, hvalue]; rfl⟩
    | element =>
      obtain ⟨value, hvalue⟩ := h.elementSource hshape hslot
      exact ⟨_, by simp only [bind_ok, hplace, hvalue]; rfl⟩
    | flattened =>
      rcases Member.placement_flattened (hplace ▸ hplacement) with
        ⟨item, hform⟩ | ⟨key, value, hform⟩
      · obtain ⟨value, hvalue⟩ := h.elementSource htarget (Shape.item_mem_refs hform)
        exact ⟨_, by simp only [bind_ok, hplace, hfound, hform, hvalue]; rfl⟩
      · exact ⟨_, by simp only [bind_ok, hplace, hfound, hform]; rfl⟩

theorem Resolved.unionArm {member : Member} (hmember : member ∈ shape.members)
    {members : List Member} (hunion : shape.form = .union members)
    (hbinds : ctx.Binds shape member) : ∃ arm, ctx.unionArm shape member = .ok arm := by
  obtain ⟨binding, hbinding, hbind⟩ := hbinds
  obtain ⟨slot, hslot⟩ := Shape.exists_slot_of_mem_members hmember
  obtain ⟨target, htarget, hfound, hplacement⟩ := h.target_of_binds hshape hmember hbind
  unfold Context.unionArm
  rw [hbinding]
  cases hplace : binding.placement with
  | «attribute» =>
    exact absurd hunion ((Member.placement_attribute (hplace ▸ hplacement)).1 members)
  | element =>
    obtain ⟨value, hvalue⟩ := h.elementSource hshape hslot
    exact ⟨_, by simp only [bind_ok, hplace, hvalue]; rfl⟩
  | flattened =>
    rcases Member.placement_flattened (hplace ▸ hplacement) with
      ⟨item, hform⟩ | ⟨key, value, hform⟩
    · obtain ⟨value, hvalue⟩ := h.elementSource htarget (Shape.item_mem_refs hform)
      exact ⟨_, by simp only [bind_ok, hplace, hfound, hform, hvalue]; rfl⟩
    · exact ⟨_, by simp only [bind_ok, hplace, hfound, hform]; rfl⟩

/-- Where its members have different names, a shape's decoder is made. -/
theorem Resolved.emits (hnodup : (shape.members.map Member.name).Nodup) : ctx.Emits shape := by
  have hbinds : ∀ member ∈ shape.members, ctx.Binds shape member := fun member hmember ↦
    h.binds hshape hnodup hmember
  obtain ⟨type, htype⟩ := (h.looksUp hshape).own
  constructor
  case binds => exact hbinds
  case struct =>
    intro members hform
    obtain rfl := Shape.members_of_struct hform
    obtain ⟨made, hmade⟩ := h.structArms hshape (fun _ hmem ↦ hmem) hbinds
    exact ⟨_, by rw [structDecoder, hmade]; rfl⟩
  case union =>
    intro members hform
    obtain rfl := Shape.members_of_union hform
    obtain ⟨arms, harms⟩ := exists_mapM_ok fun member hmem ↦
      h.unionArm hshape hmem hform (hbinds member hmem)
    exact ⟨_, by rw [unionDecoder, harms]; rfl⟩
  case list =>
    intro item hform
    obtain ⟨value, hvalue⟩ := h.elementSource hshape (Shape.item_mem_refs hform)
    have hnames := collection?_eq h.keyed h.bindings hshape
      (by simp only [Shape.innerNames?, hform]; rfl)
    exact ⟨_, by rw [listDecoder?, hnames]; simp only [htype, bind_ok, hvalue]; rfl⟩
  case map =>
    intro key value hform
    have hkeySlot := Shape.key_mem_refs hform
    have hvalueSlot := Shape.value_mem_refs hform
    obtain ⟨keyType, hkeyType⟩ := (h.looksUp hshape).types _ _ hkeySlot
    obtain ⟨valueType, hvalueType⟩ := (h.looksUp hshape).types _ _ hvalueSlot
    obtain ⟨target, -, hfound⟩ := (h.looksUp hshape).targets _ _ hkeySlot
    obtain ⟨other, hother, htext⟩ := BindingMap.isText_key h.bindings hshape hform
    obtain rfl : other = target := Option.some.inj (hother.symm.trans (targetOf_ok hfound))
    obtain ⟨keySource, hkey⟩ := exists_keySource hfound htext
    obtain ⟨source, hsource⟩ := h.elementSource hshape hvalueSlot
    have hnames := collection?_eq h.keyed h.bindings hshape
      (by simp only [Shape.innerNames?, hform]; rfl)
    exact ⟨_, by
      rw [mapDecoder?, hnames]
      simp only [htype, hkeyType, hvalueType, hkey, hsource, bind_ok]
      rfl⟩

end Resolved

/-- Once the types are declared, the members of every shape have different names. -/
theorem members_nodup_of_types {types : List TypeDecl}
    (htypes : ctx.model.shapes.values.filterMapM ctx.typeDecl? = .ok types)
    (hshape : shape ∈ ctx.model.shapes.values) : (shape.members.map Member.name).Nodup := by
  obtain ⟨results, hresults, -⟩ := exists_of_filterMapM_ok htypes
  obtain ⟨result, -, hresult⟩ := exists_of_mem_left hresults hshape
  unfold typeDecl? at hresult
  cases hform : shape.form with
  | struct members =>
    rw [hform] at hresult
    obtain ⟨decl, hdecl, -⟩ := map_eq_ok.mp hresult
    simpa [Shape.members, hform] using (structDecl_ok hdecl).members_nodup
  | union members =>
    rw [hform] at hresult
    obtain ⟨decl, hdecl, -⟩ := map_eq_ok.mp hresult
    simpa [Shape.members, hform] using (unionDecl_ok hdecl).members_nodup
  | scalar kind | list item | map key value | enum values => simp [Shape.members, hform]

theorem onNames_decoder? (hemits : ctx.Emits shape) (functions : Claims) :
    OnNames (ctx.decoder? functions shape) := by
  have hclaimed := functions.onNames_claim (decoderIdent shape.name) shape.name
  unfold decoder?
  cases hform : shape.form with
  | struct members =>
    exact hclaimed.bind fun claimed _ ↦
      (failsWith_of_exists (hemits.struct members hform)).bind fun _ _ ↦ failsWith_ok _
  | union members =>
    exact hclaimed.bind fun claimed _ ↦
      (failsWith_of_exists (hemits.union members hform)).bind fun _ _ ↦ failsWith_ok _
  | list item =>
    obtain ⟨decl, hdecl⟩ := hemits.list item hform
    exact hclaimed.bind fun claimed _ ↦
      (failsWith_of_exists ⟨_, hdecl⟩).bind fun _ _ ↦ failsWith_ok _
  | map key value =>
    obtain ⟨decl, hdecl⟩ := hemits.map key value hform
    exact hclaimed.bind fun claimed _ ↦ (claimed.onNames_claim _ _).bind fun _ _ ↦
      (failsWith_of_exists ⟨_, hdecl⟩).bind fun _ _ ↦ failsWith_ok _
  | scalar kind | enum values => exact failsWith_ok _

theorem onNames_decodersFor (reached : List String) {shapes : List Shape}
    (hemits : ∀ shape ∈ shapes, ctx.Emits shape) (functions : Claims) :
    OnNames (ctx.decodersFor reached functions shapes) := by
  induction shapes generalizing functions with
  | nil => exact failsWith_ok _
  | cons shape rest ih =>
    obtain ⟨hfirst, hrest⟩ := List.forall_mem_cons.mp hemits
    unfold decodersFor
    split
    · refine (onNames_decoder? hfirst functions).bind ?_
      rintro ⟨decoder, claimed⟩ -
      exact (ih hrest claimed).bind fun _ _ ↦ failsWith_ok _
    · exact ih hrest functions

/-! ## Entry points -/

theorem onNames_inputDecl (ctx : Context) (op : Operation) (input : String) (functions : Claims) :
    OnNames (ctx.inputDecl op input functions) := by
  unfold inputDecl
  refine (ctx.onNames_structNamed op input).bind fun shape _ ↦ ?_
  exact (functions.onNames_claim _ _).bind fun claimed _ ↦ failsWith_ok _

theorem onNames_outputDecl (ctx : Context) (op : Operation) (output : String)
    (functions : Claims) : OnNames (ctx.outputDecl op output functions) := by
  unfold outputDecl
  refine (ctx.onNames_structNamed op output).bind fun shape _ ↦ ?_
  exact (functions.onNames_claim _ _).bind fun claimed _ ↦ failsWith_ok _

theorem onNames_failureDecl (ctx : Context) (op : Operation) (functions : Claims) :
    OnNames (ctx.failureDecl op functions) := by
  unfold failureDecl
  refine (functions.onNames_claim _ _).bind fun claimed _ ↦ ?_
  exact (ctx.onNames_errorShapes op).bind fun shapes _ ↦ failsWith_ok _

theorem onNames_optional {α : Type} (part : Option String)
    {declare : String → Claims → Except GenerateError (α × Claims)}
    (hdeclare : ∀ name functions, OnNames (declare name functions)) (functions : Claims) :
    OnNames (optional part declare functions) := by
  cases part with
  | none => exact failsWith_ok _
  | some name => exact (hdeclare name functions).map _

theorem onNames_operationsFor (ctx : Context) (ops : List Operation) (functions : Claims) :
    OnNames (ctx.operationsFor functions ops) := by
  induction ops generalizing functions with
  | nil => exact failsWith_ok _
  | cons op rest ih =>
    have hop : OnNames (ctx.operationDecl op functions) := by
      unfold operationDecl
      refine (onNames_optional op.input (ctx.onNames_inputDecl op) functions).bind ?_
      rintro ⟨input, first⟩ -
      refine (onNames_optional op.output (ctx.onNames_outputDecl op) first).bind ?_
      rintro ⟨output, second⟩ -
      exact (ctx.onNames_failureDecl op second).bind fun _ _ ↦ failsWith_ok _
    unfold operationsFor
    refine hop.bind ?_
    rintro ⟨decl, claimed⟩ -
    exact (ih claimed).bind fun decls _ ↦ failsWith_ok _

/-! ## All declarations -/

theorem Resolved.onNames_declarations (h : ctx.Resolved) : OnNames ctx.declarations := by
  have hlooks : ∀ shape ∈ ctx.model.shapes.values, ctx.LooksUp shape := fun _ hshape ↦
    h.looksUp hshape
  unfold declarations declarationsFor
  refine ctx.onNames_claimTypes.bind fun _ _ ↦ ?_
  refine (failsWith_filterMapM fun shape hshape ↦ onNames_typeDecl? hlooks hshape).bind
    fun types htypes ↦ ?_
  refine (failsWith_mapM fun op _ ↦ ctx.onNames_operationErrorDecl op).bind fun errors _ ↦ ?_
  -- Only here, with the types declared, is it known that members have different names.
  have hemits : ∀ shape ∈ ctx.model.shapes.values, ctx.Emits shape := fun shape hshape ↦
    h.emits hshape (members_nodup_of_types htypes hshape)
  refine (onNames_decodersFor _ hemits _).bind ?_
  rintro ⟨decoders, functions⟩ -
  exact (ctx.onNames_operationsFor _ functions).bind fun operations _ ↦ failsWith_ok _

end Context

/-- Once the symbols and bindings of a model are resolved, only names can still be refused.  Every
shape has its type, and every reference of it leads to a shape and has a type.  When decoders are
made, which is after the types, every member is given the binding that was resolved for it, and no
structure, union, list or map is without the decoder that is asked for. -/
theorem refused_for_names_alone {m : Model} {defaults : Defaults} {ctx : Context}
    (hkeyed : m.Keyed) (h : m.breakCycles.resolved defaults = .ok ctx) :
    (∀ e, m.bindings defaults = .error e → e.OfNames) ∧
      (∀ shape ∈ ctx.model.shapes.values, ctx.LooksUp shape) ∧
      ∀ types, ctx.model.shapes.values.filterMapM ctx.typeDecl? = .ok types →
        ∀ shape ∈ ctx.model.shapes.values, ctx.Emits shape := by
  have hresolved := Context.resolved_of_ok hkeyed.breakCycles h
  refine ⟨fun e herror ↦ ?_, fun _ hshape ↦ hresolved.looksUp hshape, ?_⟩
  · rw [Model.bindings, h] at herror
    exact hresolved.onNames_declarations e herror
  · intro types htypes shape hshape
    exact hresolved.emits hshape (Context.members_nodup_of_types htypes hshape)

/-- A parcel with an attribute, flattened members, and a way back to itself through a union that
gathers. -/
def parcelModel : Model := .ofShapes [
  { name := "Parcel", form := .struct [
    { name := "grade", target := .to "Grade", isAttribute := true },
    { name := "labels", target := .to "Labels", flattened := true },
    { name := "sizes", target := .to "Sizes", flattened := true },
    { name := "content", target := .to "Content" }] },
  { name := "Grade", form := .enum [{ name := "plain" }] },
  { name := "Labels", form := .list { target := .to "String" } },
  { name := "Sizes", form := .map { target := .to "Grade" } { target := .to "Integer" } },
  { name := "Content", form := .union [
    { name := "note", target := .to "String" },
    { name := "parcels", target := .to "Parcels", flattened := true }] },
  { name := "Parcels", form := .list { target := .to "Parcel" } }] []

/-- The parcel is resolved and its types are declared, so all its decoders are made. -/
theorem parcel_decoders_made : parcelModel.Keyed ∧
    ∃ ctx types, parcelModel.breakCycles.resolved {} = .ok ctx ∧
      ctx.model.shapes.values.filterMapM ctx.typeDecl? = .ok types ∧
      ∀ shape ∈ ctx.model.shapes.values, ctx.LooksUp shape ∧ ctx.Emits shape := by
  have hkeyed : parcelModel.Keyed := by decide +kernel
  have hmade : (parcelModel.breakCycles.resolved {} >>= fun ctx ↦
      ctx.model.shapes.values.filterMapM ctx.typeDecl?).toOption.isSome = true := by
    decide +kernel
  obtain ⟨types, htypes⟩ := Option.isSome_iff_exists.mp hmade
  obtain ⟨ctx, hctx, htypes⟩ := bind_eq_ok.mp (toOption_eq_some.mp htypes)
  obtain ⟨-, hlooks, hemits⟩ := refused_for_names_alone hkeyed hctx
  exact ⟨hkeyed, ctx, types, hctx, htypes, fun shape hshape ↦
    ⟨hlooks shape hshape, hemits types htypes shape hshape⟩⟩

/-- A structure with an attribute and a child under one name. -/
def twins : Shape := {
  name := "Twins"
  form := .struct [
    { name := "tag", target := .to "String", isAttribute := true },
    { name := "tag", target := .to "String" }] }

-- The attribute is given the binding of the child, but no decoder is made: the fields clash.
example :
    ((Model.ofShapes [twins] []).breakCycles.resolved {}).toOption.map (fun ctx ↦
      twins.members.map fun member ↦ (ctx.binding twins member).toOption.map Binding.placement) =
        some [some .element, some .element] ∧
    (Model.ofShapes [twins] []).bindings {} =
      .error (.duplicateIdent "Twins" "tag" "tag" "tag") := by
  decide +kernel

end Bindings

end WireShapes
