import WireShapes.Proofs.ClosedCode
import WireShapes.Proofs.Reachable

/-!
# Decoders refer to what generated code defines

A decoder calls the decoders of shapes that its own shape refers to, the methods of the builder that
it fills, and variants of the type that it makes.  All of these are known where the code has the
types of all shapes, and the decoders of some that no reference leads away from.
-/

namespace WireShapes.Bindings

open Code (Ident Ty Expr Decl Part Mention typeNames functionNames variantNames implementedNames)

/-- What decoders rely on: the types of all shapes, and decoders of those that are reached. -/
structure Provides (ctx : Context) (reached : List String) (code : List Decl) : Prop where
  type : ∀ shape ∈ ctx.model.shapes.values, shape.form.hasType →
    (Code.camelIdent shape.name).toText ∈ typeNames code
  builder : ∀ shape ∈ ctx.model.shapes.values, ∀ members, shape.form = .struct members →
    (Code.builderTypeIdent shape.name).toText ∈ typeNames code ∧
      ((Code.camelIdent shape.name).toText, "builder") ∈ implementedNames code
  setter : ∀ shape ∈ ctx.model.shapes.values, ∀ members, shape.form = .struct members →
    ∀ member ∈ members, ((Code.builderTypeIdent shape.name).toText,
      (Code.functionIdent "set_" member.name "").toText) ∈ implementedNames code
  adder : ∀ shape ∈ ctx.model.shapes.values, ∀ members, shape.form = .struct members →
    ∀ member ∈ members, ∀ target, ctx.model.shape? member.target.target = some target →
      ((∃ item, target.form = .list item) → ((Code.builderTypeIdent shape.name).toText,
        (Code.functionIdent "push_" member.name "").toText) ∈ implementedNames code) ∧
      ((∃ key value, target.form = .map key value) → ((Code.builderTypeIdent shape.name).toText,
        (Code.functionIdent "insert_" member.name "").toText) ∈ implementedNames code)
  fromText : ∀ shape ∈ ctx.model.shapes.values, ∀ values, shape.form = .enum values →
    ((Code.camelIdent shape.name).toText, "from") ∈ implementedNames code
  variant : ∀ shape ∈ ctx.model.shapes.values, ∀ members, shape.form = .union members →
    ((Code.camelIdent shape.name).toText, "Unknown") ∈ variantNames code ∧
      ∀ member ∈ members, ((Code.camelIdent shape.name).toText,
        (Code.camelIdent member.name).toText) ∈ variantNames code
  decoder : ∀ shape ∈ ctx.model.shapes.values, shape.name ∈ reached →
    ∀ ident ∈ decoderFunctions shape, ident.toText ∈ functionNames code

variable {ctx : Context} {reached : List String} {code : List Decl}
  {receivers : List (String × String)}

/-! ## Values -/

/-- Only the builder is looked up. -/
def Lookups (receivers : List (String × String)) : Prop :=
  ∀ entry ∈ receivers, entry.1 = "builder"

theorem Lookups.known (h : Lookups receivers) {receiver name : String}
    (hreceiver : receiver ≠ "builder") : Mention.Known code receivers (.method receiver name) :=
  fun owner hmem ↦ absurd (h (receiver, owner) hmem) hreceiver

/-- The text of a reached shape is read by what is known. -/
theorem known_text (hprovides : Provides ctx reached code) (hlookups : Lookups receivers)
    {target : Shape} (htarget : target ∈ ctx.model.shapes.values) {source : TextSource}
    (h : SourceOf target (.text source)) :
    (∀ mention ∈ source.ofElement.mentions, Mention.Known code receivers mention) ∧
      ∀ mention ∈ source.ofAttribute.mentions, Mention.Known code receivers mention := by
  have hlocal {receiver name : String} (hne : receiver ≠ "builder") :
      Mention.Known code receivers (.method receiver name) := hlookups.known hne
  cases source with
  | string => simp [TextSource.ofElement, TextSource.ofAttribute, tagText, hlocal]
  | scalar kind =>
    have hclosed : Ty.Closed code (kindType kind) := closed_kindType kind
    have hkind := hclosed.known receivers
    constructor
    · simpa [TextSource.ofElement, readScalar, tagText, or_imp, forall_and, hlocal] using hkind
    · simpa [TextSource.ofAttribute, readScalar] using hkind
  | enum type =>
    obtain ⟨⟨values, hform⟩, rfl⟩ := h
    have hfrom : Mention.Known code receivers
        (.member (Code.camelIdent target.name).toText "from") :=
      .inr (.inr (hprovides.fromText target htarget values hform))
    simp [TextSource.ofElement, TextSource.ofAttribute, tagText, hlocal, hfrom]

/-- A reached shape is read by what is known. -/
theorem known_source (hprovides : Provides ctx reached code) (hlookups : Lookups receivers)
    {target : Shape} (htarget : target ∈ ctx.model.shapes.values) (hreached : target.name ∈ reached)
    {source : Source} (h : SourceOf target source) :
    ∀ mention ∈ source.ofElement.mentions, Mention.Known code receivers mention := by
  have hcall (ident : Ident) (hident : ident ∈ decoderFunctions target) :
      Mention.Known code receivers (.function ident.toText) :=
    .inr (hprovides.decoder target htarget hreached ident hident)
  cases source with
  | text source => exact (known_text hprovides hlookups htarget h).1
  | struct decoder type =>
    obtain ⟨⟨members, hform⟩, rfl, rfl⟩ := h
    have hdecoder := hcall (decoderIdent target.name) (by simp [decoderFunctions, hform])
    have hfresh : Mention.Known code receivers
        (.member (Code.camelIdent target.name).toText "builder") :=
      .inr (.inr (hprovides.builder target htarget members hform).2)
    simp [Source.ofElement, fillStruct, freshBuilder, tagArgument, hdecoder, hfresh]
  | shape decoder =>
    obtain ⟨rfl, hform⟩ := h
    have hmem : decoderIdent target.name ∈ decoderFunctions target := by
      rcases hform with ⟨members, hform⟩ | ⟨item, hform⟩ | ⟨key, value, hform⟩ <;>
        simp [decoderFunctions, hform]
    simp [Source.ofElement, tagArgument, hcall _ hmem]

theorem known_inBox {σ : Type} {boxing : Boxing σ} {value : σ → Expr}
    (h : ∀ mention ∈ (value boxing.source).mentions, Mention.Known code receivers mention) :
    ∀ mention ∈ (inBox boxing value).mentions, Mention.Known code receivers mention := by
  unfold inBox
  split
  · simpa [std] using h
  · exact h

/-! ## Statements -/

/-- What each element of a list mentions is known. -/
theorem known_arms {arms : List Code.Arm}
    (h : ∀ arm ∈ arms, ∀ mention ∈ arm.mentions, Mention.Known code receivers mention) :
    ∀ mention ∈ Code.Arm.mentionsIn arms, Mention.Known code receivers mention := by
  rw [Code.Arm.mentionsIn_eq]
  intro mention hmention
  obtain ⟨arm, harm, hmem⟩ := List.mem_flatMap.mp hmention
  exact h arm harm mention hmem

theorem known_statements {statements : List Code.Stmt}
    (h : ∀ statement ∈ statements, ∀ mention ∈ statement.mentions,
      Mention.Known code receivers mention) :
    ∀ mention ∈ Code.Stmt.mentionsIn statements, Mention.Known code receivers mention := by
  rw [Code.Stmt.mentionsIn_eq]
  intro mention hmention
  obtain ⟨statement, hstatement, hmem⟩ := List.mem_flatMap.mp hmention
  exact h statement hstatement mention hmem

theorem known_matchingArm (hlookups : Lookups receivers) {pattern : String}
    {body : List Code.Stmt}
    (h : ∀ mention ∈ Code.Stmt.mentionsIn body, Mention.Known code receivers mention) :
    ∀ mention ∈ (matchingArm pattern body).mentions, Mention.Known code receivers mention := by
  have hmatches : Mention.Known code receivers (.method "s" "matches") := hlookups.known (by decide)
  simpa [matchingArm, hmatches] using h

theorem known_walk (hlookups : Lookups receivers) {arms : List Code.Arm}
    (h : ∀ arm ∈ arms, ∀ mention ∈ arm.mentions, Mention.Known code receivers mention) :
    ∀ mention ∈ (walk arms).mentions, Mention.Known code receivers mention := by
  have hlocal {receiver name : String} (hne : receiver ≠ "builder") :
      Mention.Known code receivers (.method receiver name) := hlookups.known hne
  have hlast : ∀ mention ∈ Code.Arm.mentionsIn (arms ++ [.mk (.name "_") none (.block [])]),
      Mention.Known code receivers mention := by
    apply known_arms
    intro arm harm
    rcases List.mem_append.mp harm with hmem | hmem
    · exact h arm hmem
    · obtain rfl := List.mem_singleton.mp hmem
      simp
  simpa [walk, or_imp, forall_and, hlocal] using hlast

theorem known_walkOrSkip (hlookups : Lookups receivers) {arms : List Code.Arm}
    (h : ∀ arm ∈ arms, ∀ mention ∈ arm.mentions, Mention.Known code receivers mention) :
    ∀ mention ∈ (walkOrSkip arms).mentions, Mention.Known code receivers mention := by
  have hskip : Mention.Known code receivers (.method "decoder" "skip") := hlookups.known (by decide)
  unfold walkOrSkip
  split
  · simp [hskip]
  · exact known_walk hlookups h

/-- The entry at hand is taken apart by a decoder that is known. -/
theorem known_bindEntry (hprovides : Provides ctx reached code) {target : Shape}
    (htarget : target ∈ ctx.model.shapes.values) (hreached : target.name ∈ reached)
    {key value : Item} (hform : target.form = .map key value)
    (receivers : List (String × String)) :
    ∀ mention ∈ (bindEntry (entryIdent target.name)).mentions,
      Mention.Known code receivers mention := by
  have hentry : Mention.Known code receivers (.function (entryIdent target.name).toText) :=
    .inr (hprovides.decoder target htarget hreached _ (by simp [decoderFunctions, hform]))
  simp [bindEntry, tagArgument, hentry]

/-! ## Decoders -/

/-- References of reached shapes lead to reached ones. -/
def Reaches (m : Model) (reached : List String) : Prop :=
  ∀ shape ∈ m.shapes.values, shape.name ∈ reached →
    ∀ slot ref, (slot, ref) ∈ shape.refs → ref.target ∈ reached

theorem Reaches.member {m : Model} {shape : Shape} {member : Member} (h : Reaches m reached)
    (hshape : shape ∈ m.shapes.values) (hreached : shape.name ∈ reached)
    (hmember : member ∈ shape.members) : member.target.target ∈ reached := by
  obtain ⟨slot, hslot⟩ := Shape.exists_slot_of_mem_members hmember
  exact h shape hshape hreached slot _ hslot

theorem closed_decoderFn {heading : Code.Heading} {name : Ident} {parameters : List Code.Parameter}
    {result : Ty} {body : List Code.Stmt}
    (hreceivers : parameters.filterMap Code.Parameter.receiver? = receivers)
    (hparameters : ∀ parameter ∈ parameters, ∀ mention ∈ parameter.mentions,
      Mention.Known code receivers mention)
    (hresult : Ty.Closed code result)
    (hbody : ∀ statement ∈ body, ∀ mention ∈ statement.mentions,
      Mention.Known code receivers mention) :
    Decl.Closed code (decoderFn heading name parameters result body) := by
  have hstatements := known_statements hbody
  have htype := hresult.known receivers
  have hdecoder : decoderParameter.mentions = [] := by simp [decoderParameter, wire]
  have hall (fn : Code.Fn) (hfn : fn.parameters = decoderParameter :: parameters) :
      fn.receivers none = receivers := by
    simp [Code.Fn.receivers, hfn, decoderParameter, List.filterMap_cons, Code.Parameter.receiver?,
      hreceivers]
  intro mention hmention
  rw [hall _ rfl]
  simp only [Code.Fn.mentions, List.flatMap_cons, hdecoder, List.nil_append, List.mem_append,
    List.mem_flatMap] at hmention
  rcases hmention with (⟨parameter, hparameter, hmem⟩ | hmem) | hmem
  · exact hparameters parameter hparameter mention hmem
  · exact htype mention (by simpa [decoded, resultOf, std, wire] using hmem)
  · exact hstatements mention hmem

section

variable {shape : Shape} (hkeyed : ctx.model.Keyed) (hprovides : Provides ctx reached code)

include hkeyed hprovides

theorem known_reads (hlookups : Lookups receivers) {ref : Reference} (href : ref.target ∈ reached)
    {value : Boxing Source} (h : Reads ctx ref value) :
    ∀ mention ∈ value.source.ofElement.mentions, Mention.Known code receivers mention := by
  obtain ⟨-, target, htarget, hsource⟩ := h
  have hname : target.name ∈ reached := hkeyed.name_of_shape? htarget ▸ href
  exact known_source hprovides hlookups (Model.mem_values_of_shape? htarget) hname hsource

/-- What a flattened collection's items are read with is known, as what its entries are. -/
theorem known_item (hreaches : Reaches ctx.model reached) (hlookups : Lookups receivers)
    {ref : Reference} (href : ref.target ∈ reached) {target : Shape}
    (htarget : ctx.model.shape? ref.target = some target) {item : Item}
    (hform : target.form = .list item) {value : Boxing Source} (h : Reads ctx item.target value) :
    ∀ mention ∈ value.source.ofElement.mentions, Mention.Known code receivers mention := by
  have hname : target.name ∈ reached := hkeyed.name_of_shape? htarget ▸ href
  have hitem := hreaches target (Model.mem_values_of_shape? htarget) hname .item item.target
    (Shape.item_mem_refs hform)
  exact known_reads hkeyed hprovides hlookups hitem h

/-! ### Structures -/

/-- What is done to a builder is known, where the builder has the methods of its members. -/
theorem known_action (hreaches : Reaches ctx.model reached)
    (hshape : shape ∈ ctx.model.shapes.values) {members : List Member}
    (hform : shape.form = .struct members) {member : Member} (hmember : member ∈ members)
    (href : member.target.target ∈ reached) {action : StructAction}
    (h : ActionOf ctx member action) :
    ∀ mention ∈ Code.Stmt.mentionsIn action.code,
      Mention.Known code [("builder", (Code.builderTypeIdent shape.name).toText)] mention := by
  have hlookups : Lookups [("builder", (Code.builderTypeIdent shape.name).toText)] := by
    simp [Lookups]
  have hmethod (ident : Ident) (hident : ((Code.builderTypeIdent shape.name).toText, ident.toText) ∈
      implementedNames code) :
      Mention.Known code [("builder", (Code.builderTypeIdent shape.name).toText)]
        (.method "builder" ident.toText) := by
    simpa [Mention.Known] using hident
  cases action with
  | set setter value =>
    obtain ⟨rfl, hreads⟩ := h
    have hset := hmethod _ (hprovides.setter shape hshape members hform member hmember)
    have hvalue := known_inBox (known_reads hkeyed hprovides hlookups href hreads)
    simpa [StructAction.code, changeBuilder, assign, or_imp, forall_and, hset] using hvalue
  | push method item =>
    obtain ⟨rfl, target, listItem, htarget, hlist, hreads⟩ := h
    have hpush := hmethod _
      ((hprovides.adder shape hshape members hform member hmember target htarget).1 ⟨_, hlist⟩)
    have hvalue := known_inBox
      (known_item hkeyed hprovides hreaches hlookups href htarget hlist hreads)
    simpa [StructAction.code, changeBuilder, assign, or_imp, forall_and, hpush] using hvalue
  | insert method entry =>
    obtain ⟨rfl, target, key, value, htarget, hmap, rfl⟩ := h
    have hinsert := hmethod _
      ((hprovides.adder shape hshape members hform member hmember target htarget).2 ⟨_, _, hmap⟩)
    have hname : target.name ∈ reached := hkeyed.name_of_shape? htarget ▸ href
    have hentry := known_bindEntry hprovides (Model.mem_values_of_shape? htarget) hname hmap
      [("builder", (Code.builderTypeIdent shape.name).toText)]
    simpa [StructAction.code, changeBuilder, assign, or_imp, forall_and, hinsert] using hentry

theorem closed_structDecoder (hreaches : Reaches ctx.model reached)
    (hshape : shape ∈ ctx.model.shapes.values) (hreached : shape.name ∈ reached)
    {members : List Member} (hform : shape.form = .struct members) {decl : StructDecoder}
    (h : StructDecoderOf ctx shape members decl) : ∀ part ∈ decl.code, Decl.Closed code part := by
  have hbuilderType : Ty.Closed code (.named decl.builder.toText) :=
    closed_named (h.builder_eq ▸ (hprovides.builder shape hshape members hform).1)
  have hlookups : Lookups [("builder", decl.builder.toText)] := by simp [Lookups]
  have hlocal {receiver name : String} (hne : receiver ≠ "builder") :
      Mention.Known code [("builder", decl.builder.toText)] (.method receiver name) :=
    hlookups.known hne
  have hmembers := Shape.members_of_struct hform
  intro part hpart
  obtain rfl := List.mem_singleton.mp hpart
  have hreceivers : [Code.Parameter.typed true "builder" (.named decl.builder.toText)].filterMap
      Code.Parameter.receiver? = [("builder", decl.builder.toText)] := rfl
  apply closed_decoderFn hreceivers
  · simpa using hbuilderType.known _
  · exact hbuilderType
  · intro statement hstatement
    rcases List.mem_append.mp hstatement with hmem | hmem
    · obtain ⟨arm, harm, rfl⟩ := List.mem_map.mp hmem
      obtain ⟨member, hmem, -, hsetter, -, target, htarget, hsource⟩ := h.attributes arm harm
      have hvalue := known_inBox
        (known_text hprovides hlookups (Model.mem_values_of_shape? htarget) hsource).2
      have hset : Mention.Known code [("builder", decl.builder.toText)]
          (.method "builder" arm.setter.toText) := by
        simpa [Mention.Known, hsetter, h.builder_eq] using
          hprovides.setter shape hshape members hform member hmem
      simpa [AttributeArm.code, changeBuilder, assign, or_imp, forall_and, hlocal, hset] using
        hvalue
    · simp only [List.mem_cons, List.not_mem_nil, or_false] at hmem
      rcases hmem with rfl | rfl
      · apply known_walkOrSkip hlookups
        intro codeArm hcodeArm
        obtain ⟨arm, harm, rfl⟩ := List.mem_map.mp hcodeArm
        obtain ⟨member, hmem, -, haction⟩ := h.arms arm harm
        apply known_matchingArm hlookups
        have href := hreaches.member hshape hreached (hmembers ▸ hmem)
        rw [h.builder_eq]
        exact known_action hkeyed hprovides hreaches hshape hform hmem href haction
      · simp

/-! ### Unions -/

theorem known_unionAction (hreaches : Reaches ctx.model reached)
    (hshape : shape ∈ ctx.model.shapes.values) {members : List Member}
    (hform : shape.form = .union members) {member : Member} (hmember : member ∈ members)
    (href : member.target.target ∈ reached) {action : UnionAction}
    (h : UnionActionOf ctx member action) :
    ∀ mention ∈ Code.Stmt.mentionsIn (action.code (.member (Code.camelIdent shape.name).toText
      (Code.camelIdent member.name).toText)), Mention.Known code [] mention := by
  have hlookups : Lookups [] := by simp [Lookups]
  have hvariant := (hprovides.variant shape hshape members hform).2 member hmember
  have hmatch : Mention.Known code [] (.variant (Code.camelIdent shape.name).toText
      (Code.camelIdent member.name).toText) := hvariant
  have hmake : Mention.Known code [] (.member (Code.camelIdent shape.name).toText
      (Code.camelIdent member.name).toText) := .inr (.inl hvariant)
  have hlocal (receiver name : String) : Mention.Known code [] (.method receiver name) :=
    fun _ hmem ↦ absurd hmem List.not_mem_nil
  cases action with
  | set value =>
    have hvalue := known_inBox (known_reads hkeyed hprovides hlookups href h)
    simpa [UnionAction.code, putVariant, assign, or_imp, forall_and, hmake] using hvalue
  | push item =>
    obtain ⟨target, listItem, htarget, hlist, hreads⟩ := h
    have hvalue := known_inBox
      (known_item hkeyed hprovides hreaches hlookups href htarget hlist hreads)
    simpa [UnionAction.code, takeGathered, addGathered, putVariant, assign, std, or_imp, forall_and,
      hmake, hmatch, hlocal] using hvalue
  | insert entry =>
    obtain ⟨target, key, value, htarget, hmap, rfl⟩ := h
    have hname : target.name ∈ reached := hkeyed.name_of_shape? htarget ▸ href
    have hentry := known_bindEntry hprovides (Model.mem_values_of_shape? htarget) hname hmap []
    simpa [UnionAction.code, takeGathered, addGathered, putVariant, assign, std, or_imp, forall_and,
      hmake, hmatch, hlocal] using hentry

theorem closed_unionDecoder (hreaches : Reaches ctx.model reached)
    (hshape : shape ∈ ctx.model.shapes.values) (hreached : shape.name ∈ reached)
    {members : List Member} (hform : shape.form = .union members) {decl : UnionDecoder}
    (h : UnionDecoderOf ctx shape members decl) : ∀ part ∈ decl.code, Decl.Closed code part := by
  have hlookups : Lookups [] := by simp [Lookups]
  have hmembers := Shape.members_of_union hform
  have hknown : decl.type.toText ∈ typeNames code :=
    h.type_eq ▸ hprovides.type shape hshape (by rw [hform]; rfl)
  have hunknown : Mention.Known code [] (.member decl.type.toText "Unknown") :=
    .inr (.inl (h.type_eq ▸ (hprovides.variant shape hshape members hform).1))
  have hlocal (receiver name : String) : Mention.Known code [] (.method receiver name) :=
    fun _ hmem ↦ absurd hmem List.not_mem_nil
  intro part hpart
  obtain rfl := List.mem_singleton.mp hpart
  apply closed_decoderFn rfl (by simp) (closed_named hknown)
  intro statement hstatement
  simp only [List.mem_cons, List.not_mem_nil, or_false] at hstatement
  rcases hstatement with rfl | rfl | rfl
  · have hoption : Ty.Closed code (optionOf (.named decl.type.toText)) :=
      closed_optionOf (closed_named hknown)
    simpa using hoption.known []
  · apply known_walkOrSkip hlookups
    intro codeArm hcodeArm
    obtain ⟨arm, harm, rfl⟩ := List.mem_map.mp hcodeArm
    obtain ⟨member, hmem, -, hvariant, haction⟩ := h.arms arm harm
    have href := hreaches.member hshape hreached (hmembers ▸ hmem)
    apply known_matchingArm hlookups
    rw [h.type_eq, hvariant]
    exact known_unionAction hkeyed hprovides hreaches hshape hform hmem href haction
  · simp [hunknown, hlocal]

/-! ### Lists and maps -/

theorem closed_listDecoder (hreaches : Reaches ctx.model reached)
    (hshape : shape ∈ ctx.model.shapes.values) (hreached : shape.name ∈ reached) {item : Item}
    (hform : shape.form = .list item) {decl : ListDecoder} (htype : Ty.Closed code decl.type.tree)
    (h : ListDecoderOf ctx shape item decl) : ∀ part ∈ decl.code, Decl.Closed code part := by
  have hlookups : Lookups [] := by simp [Lookups]
  have href := hreaches shape hshape hreached .item item.target (Shape.item_mem_refs hform)
  have hlocal (receiver name : String) : Mention.Known code [] (.method receiver name) :=
    fun _ hmem ↦ absurd hmem List.not_mem_nil
  intro part hpart
  obtain rfl := List.mem_singleton.mp hpart
  apply closed_decoderFn rfl (by simp) htype
  intro statement hstatement
  simp only [List.mem_cons, List.not_mem_nil, or_false] at hstatement
  rcases hstatement with rfl | rfl | rfl
  · simp [bindEmpty, std]
  · apply known_walk hlookups
    intro codeArm hcodeArm
    obtain rfl := List.mem_singleton.mp hcodeArm
    apply known_matchingArm hlookups
    have hvalue := known_inBox (known_reads hkeyed hprovides hlookups href h.item)
    simpa [or_imp, forall_and, hlocal] using hvalue
  · simp

theorem closed_mapDecoder (hreaches : Reaches ctx.model reached)
    (hshape : shape ∈ ctx.model.shapes.values) (hreached : shape.name ∈ reached)
    {key value : Item} (hform : shape.form = .map key value) {decl : MapDecoder}
    (htype : Ty.Closed code decl.type.tree) (hkeyType : Ty.Closed code decl.keyType.tree)
    (hvalueType : Ty.Closed code decl.valueType.tree)
    (h : MapDecoderOf ctx shape key value decl) : ∀ part ∈ decl.code, Decl.Closed code part := by
  have hlookups : Lookups [] := by simp [Lookups]
  have href := hreaches shape hshape hreached .value value.target (Shape.value_mem_refs hform)
  have hlocal (receiver name : String) : Mention.Known code [] (.method receiver name) :=
    fun _ hmem ↦ absurd hmem List.not_mem_nil
  intro part hpart
  simp only [MapDecoder.code, List.mem_cons, List.not_mem_nil, or_false] at hpart
  rcases hpart with rfl | rfl
  · apply closed_decoderFn rfl (by simp) htype
    intro statement hstatement
    simp only [List.mem_cons, List.not_mem_nil, or_false] at hstatement
    rcases hstatement with rfl | rfl | rfl
    · simp [bindEmpty, std]
    · apply known_walk hlookups
      intro codeArm hcodeArm
      obtain rfl := List.mem_singleton.mp hcodeArm
      apply known_matchingArm hlookups
      have hentry := known_bindEntry hprovides hshape hreached hform []
      rw [← h.entry_eq] at hentry
      simpa [or_imp, forall_and, hlocal] using hentry
    · simp
  · have hpair : Ty.Closed code (.tuple [decl.keyType.tree, decl.valueType.tree]) := by
      simpa [Ty.Closed, or_imp, forall_and] using ⟨hkeyType, hvalueType⟩
    apply closed_decoderFn rfl (by simp) hpair
    intro statement hstatement
    simp only [List.mem_cons, List.not_mem_nil, or_false] at hstatement
    rcases hstatement with rfl | rfl | rfl | rfl
    · simp
    · simp
    · apply known_walk hlookups
      simp only [List.mem_cons, List.not_mem_nil, or_false, forall_eq_or_imp, forall_eq]
      constructor
      · apply known_matchingArm hlookups
        obtain ⟨-, target, htarget, hsource⟩ := h.key
        have hkey := known_inBox
          (known_text hprovides hlookups (Model.mem_values_of_shape? htarget) hsource).1
        simpa [assign] using hkey
      · apply known_matchingArm hlookups
        have hvalue := known_inBox (known_reads hkeyed hprovides hlookups href h.value)
        simpa [assign] using hvalue
    · simp [MapDecoder.entryOfParts, MapDecoder.incomplete, wire, hlocal, or_imp, forall_and]

/-! ### Entry points -/

/-- A structure that an entry point decodes has a decoder, a type and a builder. -/
theorem known_decodes {named : Option String} (hnamed : ∀ name ∈ named, name ∈ reached)
    {decoder type : Ident} (h : Decodes ctx named decoder type) :
    Mention.Known code [] (.function decoder.toText) ∧
      Mention.Known code [] (.member type.toText "builder") ∧ type.toText ∈ typeNames code := by
  obtain ⟨name, hname, target, htarget, ⟨members, hform⟩, rfl, rfl⟩ := h
  have hvalues := Model.mem_values_of_shape? htarget
  have hreached : target.name ∈ reached := hkeyed.name_of_shape? htarget ▸ hnamed name hname
  have hdecoder := hprovides.decoder target hvalues hreached (decoderIdent target.name)
    (by simp [decoderFunctions, hform])
  exact ⟨.inr hdecoder, .inr (.inr (hprovides.builder target hvalues members hform).2),
    hprovides.type target hvalues (by rw [hform]; rfl)⟩

omit hkeyed hprovides in
theorem closed_entryPoint {name result : Ident} {body : List Code.Stmt}
    (hresult : result.toText ∈ typeNames code)
    (hbody : ∀ mention ∈ Code.Stmt.mentionsIn body, Mention.Known code [] mention) :
    Decl.Closed code (entryPoint name result body) := by
  have htype : Mention.Known code [] (.type result.toText) := .inr hresult
  have hreceivers (fn : Code.Fn)
      (hfn : fn.parameters = [.typed false "input" (.to (.slice (.named "u8")))]) :
      fn.receivers none = [] := by
    simp [Code.Fn.receivers, hfn, List.filterMap_cons, Code.Parameter.receiver?]
  intro mention hmention
  rw [hreceivers _ rfl]
  simp only [Code.Fn.mentions, List.mem_append] at hmention
  rcases hmention with (hmem | hmem) | hmem
  · obtain rfl : mention = .type "u8" := by simpa using hmem
    exact Mention.known_u8 code []
  · obtain rfl : mention = .type result.toText := by
      simpa [decoded, resultOf, std, wire] using hmem
    exact htype
  · exact hbody mention hmem

omit hkeyed hprovides in
theorem known_method (receiver name : String) : Mention.Known code [] (.method receiver name) :=
  fun _ hmem ↦ absurd hmem List.not_mem_nil

omit hkeyed hprovides in
theorem known_decodeRootStruct {pattern : String} {decoder type : Ident}
    (hdecoder : Mention.Known code [] (.function decoder.toText))
    (hfresh : Mention.Known code [] (.member type.toText "builder")) :
    ∀ mention ∈ Code.Stmt.mentionsIn (openRoot ++ decodeRootStruct pattern decoder type),
      Mention.Known code [] mention := by
  simp [openRoot, decodeRootStruct, expectRoot, builtStruct, fillStruct, freshBuilder, wire,
    or_imp, forall_and, known_method, hdecoder, hfresh]

omit hkeyed hprovides in
theorem known_decodeResult {response result : String} {decoder type : Ident}
    (hdecoder : Mention.Known code [] (.function decoder.toText))
    (hfresh : Mention.Known code [] (.member type.toText "builder")) :
    ∀ mention ∈ Code.Stmt.mentionsIn (openRoot ++ decodeResult response result decoder type),
      Mention.Known code [] mention := by
  simp [openRoot, decodeResult, expectRoot, builtStruct, assign, tagArgument, fillStruct,
    freshBuilder, wire, std, or_imp, forall_and, known_method, hdecoder, hfresh]

theorem closed_operation {op : Operation} (hroots : ∀ root ∈ op.roots, root ∈ reached)
    (hfailure : (Code.errorTypeIdent op.name).toText ∈ typeNames code ∧
      ((Code.errorTypeIdent op.name).toText, "Unhandled") ∈ variantNames code)
    (hcases : ∀ shapes, ctx.errorShapes op = .ok shapes → ∀ shape ∈ shapes,
      ((Code.errorTypeIdent op.name).toText, (Code.camelIdent shape.name).toText) ∈
        variantNames code)
    {decl : OperationDecl} (h : OperationOf ctx op decl) :
    ∀ part ∈ decl.code, Decl.Closed code part := by
  have hinput : ∀ name ∈ op.input, name ∈ reached := fun name hname ↦
    hroots name (by simp [Operation.roots, Option.mem_def.mp hname])
  have houtput : ∀ name ∈ op.output, name ∈ reached := fun name hname ↦
    hroots name (by simp [Operation.roots, Option.mem_def.mp hname])
  intro part hpart
  simp only [OperationDecl.code, List.mem_append, List.mem_map, Option.mem_toList,
    List.mem_singleton] at hpart
  rcases hpart with (⟨made, hmade, rfl⟩ | ⟨made, hmade, rfl⟩) | rfl
  · obtain ⟨hdecoder, hfresh, htype⟩ := known_decodes hkeyed hprovides hinput (h.input made hmade)
    exact closed_entryPoint htype (known_decodeRootStruct hdecoder hfresh)
  · obtain ⟨hdecoder, hfresh, htype⟩ :=
      known_decodes hkeyed hprovides houtput (h.output made hmade)
    apply closed_entryPoint htype
    cases made.place with
    | root pattern => exact known_decodeRootStruct hdecoder hfresh
    | result response result => exact known_decodeResult hdecoder hfresh
  · obtain ⟨shapes, hshapes, hall⟩ := h.failure.cases
    have htype : decl.failure.type.toText ∈ typeNames code := by
      rw [h.failure.type_eq]
      exact hfailure.1
    have hunhandled : Mention.Known code [] (.member decl.failure.type.toText "Unhandled") := by
      rw [h.failure.type_eq]
      exact .inr (.inl hfailure.2)
    have hstr : Mention.Known code [] (.member "str" "to_owned") := .inl (by decide)
    have harms : ∀ arm ∈ decl.failure.cases.map decl.failure.arm, ∀ mention ∈ arm.mentions,
        Mention.Known code [] mention := by
      intro arm harm
      rw [hall, List.map_map] at harm
      obtain ⟨shape, hshape, rfl⟩ := List.mem_map.mp harm
      obtain ⟨name, hname, hfound, hform⟩ := Context.errorShapes_ok hshapes hshape
      have hnamed : ∀ other ∈ some name, other ∈ reached := by
        intro other hother
        obtain rfl := Option.some.inj hother
        exact hroots name (List.mem_append_right _ hname)
      obtain ⟨hdecoder, hfresh, -⟩ := known_decodes hkeyed hprovides hnamed
        ⟨name, rfl, shape, hfound, hform, rfl, rfl⟩
      have hvariant : Mention.Known code []
          (.member decl.failure.type.toText (Code.camelIdent shape.name).toText) := by
        rw [h.failure.type_eq]
        exact .inr (.inl (hcases shapes hshapes shape hshape))
      simp [FailureDecl.arm, Context.codeCase, builtStruct, fillStruct, freshBuilder, wire, or_imp,
        forall_and, known_method, hdecoder, hfresh, hvariant]
    have hlast := known_arms harms
    rw [Code.Arm.mentionsIn_eq] at hlast
    apply closed_entryPoint htype
    simpa [FailureDecl.code, Code.Arm.mentionsIn_eq, wire, or_imp, forall_and, known_method, hstr,
      hunhandled] using hlast

end

end WireShapes.Bindings
