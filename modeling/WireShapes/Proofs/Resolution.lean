import WireShapes.Proofs.GeneratedCode
import WireShapes.Proofs.Readers

/-!
# Generated decoders find what they call

Decoders look one another up, and the types that they build, by their identifiers.  In generated
bindings no two decoders share one, so a shape's decoder is found by the identifier made for the
shape, and what a decoder calls is there: decoding fails on values alone (`Bindings.fails_on_values`).
-/

namespace WireShapes

namespace Wire.DecodeError

/-- What is wrong is a value: a text that is none of its kind, an entry without a part, or a required
member that was never set. -/
def OfValue : DecodeError → Prop
  | .scalar _ _ | .incompleteEntry _ _ | .missingMember _ _ => True
  | _ => False

end Wire.DecodeError

namespace Bindings

open Wire (DecodeError)
open Code (Ident)

variable {ctx : Context} {reached : List String} {b : Bindings} {shape other : Shape}
  {allows : DecodeError → Prop}

theorem DecoderDecl.ident_mem (decl : DecoderDecl) : decl.ident ∈ decl.functionIdents := by
  cases decl <;> simp [functionIdents, ident]

theorem DecoderOf.ident_eq {decl : DecoderDecl} (h : DecoderOf ctx shape decl) :
    decl.ident = decoderIdent shape.name := by
  cases decl with
  | struct decl =>
    obtain ⟨_, -, hof⟩ := h
    exact hof.ident_eq
  | union decl =>
    obtain ⟨_, -, hof⟩ := h
    exact hof.ident_eq
  | list decl =>
    obtain ⟨_, -, hof⟩ := h
    exact hof.ident_eq
  | map decl =>
    obtain ⟨_, _, -, hof⟩ := h
    exact hof.ident_eq

/-! ## Types -/

section Types

variable (h : ctx.declarationsFor reached = .ok b) (hshape : shape ∈ ctx.model.shapes.values)

include h hshape

theorem structDecl?_isSome {members : List Member} (hform : shape.form = .struct members) :
    (b.structDecl? (Code.camelIdent shape.name)).isSome := by
  obtain ⟨decl, hdecl, hof⟩ := exists_struct h hshape hform
  exact List.findSome?_isSome_iff.mpr ⟨_, hdecl, by simp [hof.ident_eq]⟩

theorem resolves_text {source : TextSource} (hsource : SourceOf shape (.text source)) :
    source.Resolves b allows := by
  cases source with
  | enum type =>
    obtain ⟨⟨values, hform⟩, rfl⟩ := hsource
    obtain ⟨decl, hdecl, hof⟩ := exists_enum h hshape hform
    exact .inl (List.findSome?_isSome_iff.mpr ⟨_, hdecl, by simp [hof.ident_eq]⟩)
  | _ => exact trivial

end Types

/-! ## Decoders -/

section Decoders

variable (hkeyed : ctx.model.Keyed)
  (hbindings : BindingMap.ofModel ctx.model ctx.defaults = .ok ctx.bindings)
  (h : ctx.declarationsFor reached = .ok b)

include hkeyed hbindings h

/-- No two shapes share a function that decodes them. -/
theorem eq_of_mem_decoderFunctions (hshape : shape ∈ ctx.model.shapes.values)
    (hreached : shape.name ∈ reached) (hother : other ∈ ctx.model.shapes.values)
    (hreached' : other.name ∈ reached) {ident : Ident} (hident : ident ∈ decoderFunctions shape)
    (hident' : ident ∈ decoderFunctions other) : shape = other := by
  obtain ⟨-, -, -, functions, hdecoders, -⟩ := Context.declarationsFor_ok h
  obtain ⟨-, hidents, hadds⟩ :=
    Context.decodersFor_ok hkeyed hbindings (fun _ hmem ↦ hmem) hdecoders
  have hnodup := hadds.nodup_map.of_map
  rw [hidents] at hnodup
  exact eq_of_nodup_flatMap hnodup (List.mem_filter.mpr ⟨hshape, by simpa using hreached⟩)
    (List.mem_filter.mpr ⟨hother, by simpa using hreached'⟩) hident hident'

theorem exists_shape_of_mem_decoders {decl : DecoderDecl} (hdecl : decl ∈ b.decoders) :
    ∃ shape ∈ ctx.model.shapes.values, shape.name ∈ reached ∧ DecoderOf ctx shape decl := by
  obtain ⟨-, -, -, functions, hdecoders, -⟩ := Context.declarationsFor_ok h
  exact (Context.decodersFor_ok hkeyed hbindings (fun _ hmem ↦ hmem) hdecoders).1 decl hdecl

/-- No two decoders share a function. -/
theorem eq_of_mem_functionIdents {decl made : DecoderDecl} (hdecl : decl ∈ b.decoders)
    (hmade : made ∈ b.decoders) {ident : Ident} (hident : ident ∈ decl.functionIdents)
    (hident' : ident ∈ made.functionIdents) : decl = made := by
  obtain ⟨-, -, -, functions, hdecoders, -⟩ := Context.declarationsFor_ok h
  obtain ⟨-, -, hadds⟩ := Context.decodersFor_ok hkeyed hbindings (fun _ hmem ↦ hmem) hdecoders
  exact eq_of_nodup_flatMap hadds.nodup_map.of_map hdecl hmade hident hident'

/-- A decoder is found by its identifier. -/
theorem decoder?_ident {decl : DecoderDecl} (hdecl : decl ∈ b.decoders) :
    b.decoder? decl.ident = some decl := by
  have hsome : (b.decoder? decl.ident).isSome := List.find?_isSome.mpr ⟨decl, hdecl, by simp⟩
  obtain ⟨made, hmade⟩ := Option.isSome_iff_exists.mp hsome
  have hident : made.ident = decl.ident := by simpa using List.find?_some hmade
  rw [hmade, eq_of_mem_functionIdents hkeyed hbindings h hdecl (List.mem_of_find?_eq_some hmade)
    decl.ident_mem (hident ▸ made.ident_mem)]

/-- The decoder of a map is found by the identifier of its entry decoder. -/
theorem entryDecoder?_entryIdent {d : MapDecoder} (hd : .map d ∈ b.decoders) :
    b.entryDecoder? d.entryIdent = some d := by
  have hsome : (b.entryDecoder? d.entryIdent).isSome :=
    List.findSome?_isSome_iff.mpr ⟨_, hd, by simp⟩
  obtain ⟨made, hmade⟩ := Option.isSome_iff_exists.mp hsome
  obtain ⟨decl, hdecl, htake⟩ := List.exists_of_findSome?_eq_some hmade
  cases decl with
  | map other =>
    obtain ⟨hident, rfl⟩ : other.entryIdent = d.entryIdent ∧ other = made := by simpa using htake
    have hsame : DecoderDecl.map d = .map other :=
      eq_of_mem_functionIdents hkeyed hbindings h hd hdecl
        (show d.entryIdent ∈ _ by simp [DecoderDecl.functionIdents])
        (by simp [DecoderDecl.functionIdents, hident])
    rw [hmade, DecoderDecl.map.inj hsame]
  | _ => simp at htake

/-- No two members of a structure that attributes or children give have one name. -/
theorem structDecoder_members_nodup {d : StructDecoder} (hd : .struct d ∈ b.decoders) :
    (d.attributes.map AttributeArm.member ++ d.arms.map StructArm.member).Nodup := by
  obtain ⟨shape, hshape, -, members, hform, hof⟩ :=
    exists_shape_of_mem_decoders hkeyed hbindings h hd
  obtain ⟨decl, -, hdecl⟩ := exists_struct h hshape hform
  exact hof.members.nodup_iff.mpr hdecl.members_nodup

/-- A shape is decoded by the decoder that has one of its functions. -/
theorem decoderOf_of_mem_functionIdents (hshape : shape ∈ ctx.model.shapes.values)
    (hreached : shape.name ∈ reached) {ident : Ident} (hident : ident ∈ decoderFunctions shape)
    {decl : DecoderDecl} (hdecl : decl ∈ b.decoders) (hmem : ident ∈ decl.functionIdents) :
    DecoderOf ctx shape decl := by
  obtain ⟨other, hother, hreached', hof⟩ := exists_shape_of_mem_decoders hkeyed hbindings h hdecl
  rw [hof.functionIdents_eq] at hmem
  obtain rfl := eq_of_mem_decoderFunctions hkeyed hbindings h hshape hreached hother hreached'
    hident hmem
  exact hof

variable (hshape : shape ∈ ctx.model.shapes.values) (hreached : shape.name ∈ reached)

include hshape hreached

theorem exists_decoder {ident : Ident} (hident : ident ∈ decoderFunctions shape) :
    ∃ decl ∈ b.decoders, DecoderOf ctx shape decl := by
  have hmem : ident ∈ b.decoders.flatMap DecoderDecl.functionIdents := by
    rw [decoderIdents_eq hkeyed hbindings h]
    exact List.mem_flatMap.mpr
      ⟨shape, List.mem_filter.mpr ⟨hshape, by simpa using hreached⟩, hident⟩
  obtain ⟨decl, hdecl, hfunction⟩ := List.mem_flatMap.mp hmem
  exact ⟨decl, hdecl, decoderOf_of_mem_functionIdents hkeyed hbindings h hshape hreached hident
    hdecl hfunction⟩

/-- The decoder of a shape is found by the identifier made for the shape. -/
theorem exists_decoder?_eq (hform : decoderIdent shape.name ∈ decoderFunctions shape) :
    ∃ decl, b.decoder? (decoderIdent shape.name) = some decl ∧ DecoderOf ctx shape decl := by
  obtain ⟨made, hmade, hof⟩ := exists_decoder hkeyed hbindings h hshape hreached hform
  have hsome : (b.decoder? (decoderIdent shape.name)).isSome :=
    List.find?_isSome.mpr ⟨made, hmade, by simp [hof.ident_eq]⟩
  obtain ⟨decl, hdecl⟩ := Option.isSome_iff_exists.mp hsome
  have hident : decl.ident = decoderIdent shape.name := by
    simpa using List.find?_some hdecl
  refine ⟨decl, hdecl, decoderOf_of_mem_functionIdents hkeyed hbindings h hshape hreached hform
    (List.mem_of_find?_eq_some hdecl) ?_⟩
  rw [← hident]
  exact decl.ident_mem

theorem entryDecoder?_isSome {key value : Item} (hform : shape.form = .map key value) :
    (b.entryDecoder? (entryIdent shape.name)).isSome := by
  have hident : decoderIdent shape.name ∈ decoderFunctions shape := by
    simp [decoderFunctions, hform]
  obtain ⟨decl, hdecl, hof⟩ := exists_decoder hkeyed hbindings h hshape hreached hident
  cases decl with
  | map d =>
    obtain ⟨_, _, -, hof⟩ := hof
    exact List.findSome?_isSome_iff.mpr ⟨_, hdecl, by simp [hof.entry_eq]⟩
  | _ => simp [DecoderOf, hform] at hof

theorem structResolves {members : List Member} (hform : shape.form = .struct members) :
    StructResolves b allows (decoderIdent shape.name) (Code.camelIdent shape.name) := by
  obtain ⟨decl, hdecl, hof⟩ := exists_decoder?_eq hkeyed hbindings h hshape hreached
    (by simp [decoderFunctions, hform])
  refine ⟨.inl ?_, .inl (structDecl?_isSome h hshape hform)⟩
  cases decl with
  | struct d => exact ⟨d, hdecl⟩
  | _ => simp [DecoderOf, hform] at hof

/-- A shape that is reached is read by what the bindings declare. -/
theorem resolves_source {source : Source} (hsource : SourceOf shape source) :
    source.Resolves b allows := by
  cases source with
  | text source => exact resolves_text h hshape hsource
  | struct decoder type =>
    obtain ⟨⟨members, hform⟩, rfl, rfl⟩ := hsource
    exact structResolves hkeyed hbindings h hshape hreached hform
  | shape decoder =>
    obtain ⟨rfl, hform⟩ := hsource
    have hmem : decoderIdent shape.name ∈ decoderFunctions shape := by
      rcases hform with ⟨members, hform⟩ | ⟨item, hform⟩ | ⟨key, value, hform⟩ <;>
        simp [decoderFunctions, hform]
    obtain ⟨decl, hdecl, hof⟩ := exists_decoder?_eq hkeyed hbindings h hshape hreached hmem
    refine .inl ⟨decl, hdecl, ?_⟩
    rintro d rfl
    obtain ⟨members, hstruct, -⟩ := hof
    rcases hform with ⟨_, hform⟩ | ⟨_, hform⟩ | ⟨_, _, hform⟩ <;> simp [hstruct] at hform

end Decoders

/-! ## What decoders call -/

section Calls

variable (hkeyed : ctx.model.Keyed)
  (hbindings : BindingMap.ofModel ctx.model ctx.defaults = .ok ctx.bindings)
  (h : ctx.declarationsFor reached = .ok b) (hreaches : Reaches ctx.model reached)

include hkeyed hbindings h

theorem resolves_reads {ref : Reference} (href : ref.target ∈ reached) {value : Boxing Source}
    (hreads : Reads ctx ref value) : value.source.Resolves b allows := by
  obtain ⟨-, target, htarget, hsource⟩ := hreads
  exact resolves_source hkeyed hbindings h (Model.mem_values_of_shape? htarget)
    (hkeyed.name_of_shape? htarget ▸ href) hsource

theorem resolves_entry {ref : Reference} (href : ref.target ∈ reached) {target : Shape}
    (htarget : ctx.model.shape? ref.target = some target) {key value : Item}
    (hform : target.form = .map key value) : EntryResolves b allows (entryIdent target.name) :=
  .inl (entryDecoder?_isSome hkeyed hbindings h (Model.mem_values_of_shape? htarget)
    (hkeyed.name_of_shape? htarget ▸ href) hform)

include hreaches

theorem resolves_item {ref : Reference} (href : ref.target ∈ reached) {target : Shape}
    (htarget : ctx.model.shape? ref.target = some target) {item : Item}
    (hform : target.form = .list item) {value : Boxing Source}
    (hreads : Reads ctx item.target value) : value.source.Resolves b allows := by
  have hname : target.name ∈ reached := hkeyed.name_of_shape? htarget ▸ href
  exact resolves_reads hkeyed hbindings h (hreaches target (Model.mem_values_of_shape? htarget)
    hname .item item.target (Shape.item_mem_refs hform)) hreads

theorem resolves_structAction {member : Member} (href : member.target.target ∈ reached)
    {action : StructAction} (haction : ActionOf ctx member action) : action.Resolves b allows := by
  cases action with
  | set setter value => exact resolves_reads hkeyed hbindings h href haction.2
  | push method item =>
    obtain ⟨-, target, listItem, htarget, hform, hreads⟩ := haction
    exact resolves_item hkeyed hbindings h hreaches href htarget hform hreads
  | insert method entry =>
    obtain ⟨-, target, key, value, htarget, hform, rfl⟩ := haction
    exact resolves_entry hkeyed hbindings h href htarget hform

theorem resolves_unionAction {member : Member} (href : member.target.target ∈ reached)
    {action : UnionAction} (haction : UnionActionOf ctx member action) :
    action.Resolves b allows := by
  cases action with
  | set value => exact resolves_reads hkeyed hbindings h href haction
  | push item =>
    obtain ⟨target, listItem, htarget, hform, hreads⟩ := haction
    exact resolves_item hkeyed hbindings h hreaches href htarget hform hreads
  | insert entry =>
    obtain ⟨target, key, value, htarget, hform, rfl⟩ := haction
    exact resolves_entry hkeyed hbindings h href htarget hform

/-- Whatever a decoder calls is declared. -/
theorem resolves_decoder {decl : DecoderDecl} (hdecl : decl ∈ b.decoders) :
    decl.Resolves b allows := by
  obtain ⟨shape, hshape, hreached, hof⟩ := exists_shape_of_mem_decoders hkeyed hbindings h hdecl
  have hmember {member : Member} (hmem : member ∈ shape.members) :
      member.target.target ∈ reached := hreaches.member hshape hreached hmem
  cases decl with
  | struct d =>
    obtain ⟨members, hform, hof⟩ := hof
    refine ⟨fun arm harm ↦ ?_, fun arm harm ↦ ?_⟩
    · obtain ⟨member, -, -, -, -, target, htarget, hsource⟩ := hof.attributes arm harm
      exact resolves_text h (Model.mem_values_of_shape? htarget) hsource
    · obtain ⟨member, hmem, -, haction⟩ := hof.arms arm harm
      exact resolves_structAction hkeyed hbindings h hreaches
        (hmember (by simpa [Shape.members, hform] using hmem)) haction
  | union d =>
    obtain ⟨members, hform, hof⟩ := hof
    intro arm harm
    obtain ⟨member, hmem, -, -, haction⟩ := hof.arms arm harm
    exact resolves_unionAction hkeyed hbindings h hreaches
      (hmember (by simpa [Shape.members, hform] using hmem)) haction
  | list d =>
    obtain ⟨item, hform, hof⟩ := hof
    exact resolves_reads hkeyed hbindings h
      (hreaches shape hshape hreached .item item.target (Shape.item_mem_refs hform)) hof.item
  | map d =>
    obtain ⟨key, value, hform, hof⟩ := hof
    obtain ⟨-, target, htarget, hsource⟩ := hof.key
    refine ⟨resolves_text h (Model.mem_values_of_shape? htarget) hsource,
      resolves_reads hkeyed hbindings h (hreaches shape hshape hreached .value value.target
        (Shape.value_mem_refs hform)) hof.value, .inl ?_⟩
    rw [hof.entry_eq]
    exact entryDecoder?_isSome hkeyed hbindings h hshape hreached hform

/-- The decoders of generated bindings fail on values alone. -/
theorem fails_on_values : b.Fails DecodeError.OfValue where
  scalar _ _ := trivial
  incompleteEntry _ _ := trivial
  missingMember _ _ := trivial
  resolves _ hdecl := resolves_decoder hkeyed hbindings h hreaches hdecl

end Calls

/-- What an entry point decodes is declared. -/
theorem resolves_decodes (hkeyed : ctx.model.Keyed)
    (hbindings : BindingMap.ofModel ctx.model ctx.defaults = .ok ctx.bindings)
    (h : ctx.declarationsFor reached = .ok b) {named : Option String}
    (hnamed : ∀ name ∈ named, name ∈ reached) {decoder type : Ident}
    (hdecodes : Decodes ctx named decoder type) : StructResolves b allows decoder type := by
  obtain ⟨name, hname, target, htarget, ⟨members, hform⟩, rfl, rfl⟩ := hdecodes
  exact structResolves hkeyed hbindings h (Model.mem_values_of_shape? htarget)
    (hkeyed.name_of_shape? htarget ▸ hnamed name hname) hform

/-- The decoders of a model's bindings fail on values alone, and the structures that the errors of
its operations stand for are declared. -/
theorem fails_of_bindings {m : Model} {defaults : Defaults} (hkeyed : m.Keyed)
    (h : m.bindings defaults = .ok b) :
    b.Fails DecodeError.OfValue ∧ ∀ op ∈ b.operations, ∀ case ∈ op.failure.cases,
      StructResolves b DecodeError.OfValue case.decoder case.type := by
  obtain ⟨ctx, hmodel, hdefaults, hsymbols, hbindings, hmade⟩ := exists_of_bindings h
  have hbroken : ctx.model.Keyed := hmodel ▸ hkeyed.breakCycles
  rw [← hdefaults] at hbindings
  refine ⟨fails_on_values hbroken hbindings hmade (reaches_reachable hbroken hsymbols),
    fun made hmade' case hcase ↦ ?_⟩
  obtain ⟨-, -, -, functions, -, hoperations⟩ := Context.declarationsFor_ok hmade
  obtain ⟨hall, -⟩ := Context.operationsFor_ok hoperations
  obtain ⟨op, hop, hof⟩ := Failing.exists_of_mem_right hall hmade'
  obtain ⟨shapes, hshapes, hcases⟩ := hof.failure.cases
  rw [hcases] at hcase
  obtain ⟨shape, hshape, rfl⟩ := List.mem_map.mp hcase
  obtain ⟨name, hname, hfound, hform⟩ := Context.errorShapes_ok hshapes hshape
  have hreached : ∀ other ∈ some name, other ∈ reachable ctx.model := by
    intro other hother
    obtain rfl := Option.some.inj hother
    exact roots_reachable hop (List.mem_append_right _ hname)
  exact resolves_decodes hbroken hbindings hmade hreached
    ⟨name, rfl, shape, hfound, hform, rfl, rfl⟩

end Bindings

end WireShapes
