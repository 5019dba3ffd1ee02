import WireShapes.Proofs.Arms
import WireShapes.Proofs.Decoding
import WireShapes.Proofs.Reachable
import WireShapes.Samples.Flavors

/-!
# The decoders of the showcase

What was proved of decoders in general holds of those of the showcase under both of its protocols:
their bindings are made, every structure has a decoder whose arms are for the members of the
structure, and no name is for two of them.  These facts are about two fixed models, and are
computed.
-/

namespace WireShapes

namespace Bindings

open Wire (Document Element Place)
open Code (Ident)

/-! ## Decoders that fit their shapes -/

section

variable (m : Model) (defaults : Defaults) (shape : Shape)

/-- Members are looked for by the names that the model binds them to, in order. -/
def Sought (inAttributes : Bool) (patterns : List (String × String)) : Prop :=
  patterns = (m.soughtNames defaults shape inAttributes).map fun entry ↦ (entry.1, entry.2.toText)

/-- Children are read and put together as the targets of their members ask for, in order. -/
def ReadAsTargets (gatherings : List Gathering) : Prop :=
  ∀ pair ∈ gatherings.zip (shape.members.filter fun member ↦ !member.isAttribute),
    ∃ target ∈ m.shape? pair.2.target.target, pair.1.suits m pair.2.flattened target

/-- A structure's decoder looks for its members, and reads them as their targets ask for. -/
def StructDecoder.Fits (d : StructDecoder) : Prop :=
  Sought m defaults shape true (d.attributes.map fun arm ↦ (arm.member, arm.pattern)) ∧
    Sought m defaults shape false (d.arms.map fun arm ↦ (arm.member, arm.pattern)) ∧
    (d.attributes.map fun arm ↦ some (.text arm.value.source)) =
      ((shape.members.filter Member.isAttribute).map fun member ↦ sourceAt? m member.target) ∧
    ReadAsTargets m shape (d.arms.map fun arm ↦ arm.action.gathering)

/-- A structure's type has its members. -/
def StructDecl.Fits (decl : StructDecl) : Prop :=
  (decl.fields.map fun field ↦ (field.member, field.required)) =
    shape.members.map fun member ↦ (member.name, member.required)

instance (inAttributes : Bool) (patterns : List (String × String)) :
    Decidable (Sought m defaults shape inAttributes patterns) := by
  unfold Sought
  infer_instance

instance (gatherings : List Gathering) : Decidable (ReadAsTargets m shape gatherings) := by
  unfold ReadAsTargets
  infer_instance

instance (d : StructDecoder) : Decidable (d.Fits m defaults shape) := by
  unfold StructDecoder.Fits
  infer_instance

instance (decl : StructDecl) : Decidable (decl.Fits shape) := by
  unfold StructDecl.Fits
  infer_instance

/-- Whether the decoder of a union, list or map looks for what is inside, and reads it as the
targets ask for. -/
def DecoderDecl.fits (decl : DecoderDecl) : Bool :=
  match decl, shape.form with
  | .union d, .union _ =>
    Sought m defaults shape false (d.arms.map fun arm ↦ (arm.member, arm.pattern)) ∧
      ReadAsTargets m shape (d.arms.map fun arm ↦ arm.action.gathering)
  | .list d, .list item =>
    innerPatterns shape defaults = [d.pattern] ∧ sourceAt? m item.target = some d.item.source
  | .map d, .map key value =>
    innerPatterns shape defaults = [d.entryPattern, d.keyPattern, d.valuePattern] ∧
      d.entryIdent = entryIdent shape.name ∧
      sourceAt? m key.target = some (.text d.key.source) ∧
      sourceAt? m value.target = some d.value.source
  | _, _ => false

/-- A structure of a model has a decoder and a type that fit it. -/
def declares (b : Bindings) : Bool :=
  match b.decoder? (decoderIdent shape.name), b.structDecl? (Code.camelIdent shape.name) with
  | some (.struct d), some decl => d.Fits m defaults shape ∧ decl.Fits shape
  | _, _ => false

end

theorem exists_fits_of_declares {b : Bindings} {m : Model} {defaults : Defaults} {shape : Shape}
    (h : declares m defaults shape b = true) :
    ∃ d decl, b.decoder? (decoderIdent shape.name) = some (.struct d) ∧
      b.structDecl? (Code.camelIdent shape.name) = some decl ∧
      d.Fits m defaults shape ∧ decl.Fits shape := by
  unfold declares at h
  split at h
  · rename_i d decl hd hdecl
    exact ⟨d, decl, hd, hdecl, of_decide_eq_true h⟩
  · exact absurd h (by decide)

end Bindings

namespace Samples

open Bindings

/-- The structures of the showcase. -/
def Showcase.structures : List Shape :=
  [top, nested, tagged, chain, node, getTopInput, notFound, throttled]

/-- The unions, lists and maps that members of the showcase are read as. -/
def Showcase.collections : List Shape :=
  [choice, stringList, choiceMap, countMap, nodeList]

/-- The shapes that operations of the showcase reach, each before one that refers to it. -/
def Showcase.reached : List String :=
  ["Short", "Blob", "Timestamp", "Boolean", "Double", "Float", "Byte", "Long", "Integer", "String",
    "Nested", "FooEnum", "Choice", "ChoiceMap", "StringList", "CountMap", "Tagged", "Chain",
    "NodeList", "GetTopInput", "Top", "NotFound", "Throttled", "Node"]

theorem Showcase.exhausts_reached : Exhausts Showcase.model.breakCycles Showcase.reached where
  operations := by decide +kernel
  roots := by decide +kernel
  closed := by decide +kernel
  derived := by decide +kernel

/-- Bindings of the showcase whose decoders are distinct and fit its shapes. -/
def Showcase.Sound (defaults : Defaults) (b : Bindings) : Prop :=
  b.Distinct ∧ (∀ shape ∈ Showcase.structures, declares Showcase.model defaults shape b = true) ∧
    ∀ shape ∈ Showcase.collections, ∃ decl ∈ b.decoder? (decoderIdent shape.name),
      decl.fits Showcase.model defaults shape = true

instance (defaults : Defaults) (b : Bindings) : Decidable (Showcase.Sound defaults b) := by
  unfold Showcase.Sound
  infer_instance

/-- What holds of the bindings of the listed shapes holds of those of the showcase. -/
theorem Showcase.exists_bindings (defaults : Defaults) (accept : Bindings → Bool)
    (h : ((Showcase.model.breakCycles.resolved defaults >>= fun ctx ↦
      ctx.declarationsFor Showcase.reached).toOption.any accept) = true) :
    ∃ b, Showcase.model.bindings defaults = .ok b ∧ accept b = true :=
  Showcase.exhausts_reached.exists_bindings defaults accept h

theorem Showcase.exists_sound {defaults : Defaults}
    (h : ((Showcase.model.breakCycles.resolved defaults >>= fun ctx ↦
      ctx.declarationsFor Showcase.reached).toOption.any (Showcase.Sound defaults)) = true) :
    ∃ b, Showcase.model.bindings defaults = .ok b ∧ Showcase.Sound defaults b := by
  simpa using Showcase.exists_bindings defaults _ h

theorem exists_sound_rest :
    ∃ b, rest = .ok b ∧ Showcase.Sound { errorWrapping := false } b :=
  Showcase.exists_sound (by decide +kernel)

theorem exists_sound_query :
    ∃ b, query = .ok b ∧ Showcase.Sound { envelope := .wrapped } b :=
  Showcase.exists_sound (by decide +kernel)

/-- The decoders of all structures of the showcase read an element as what its tree means: each
member by its own attribute or its own children alone. -/
def Showcase.Decodes (defaults : Defaults) (b : Bindings) : Prop :=
  (∀ shape ∈ Showcase.structures, ∃ d decl,
    d.Fits Showcase.model defaults shape ∧ decl.Fits shape ∧
      b.DecodesAs (decoderIdent shape.name) (Code.camelIdent shape.name) d decl) ∧
    ∀ shape ∈ Showcase.collections, ∃ decl ∈ b.decoder? (decoderIdent shape.name),
      decl.fits Showcase.model defaults shape = true

theorem Showcase.Sound.decodes {defaults : Defaults} {b : Bindings}
    (h : Showcase.Sound defaults b) : Showcase.Decodes defaults b := by
  obtain ⟨hdistinct, hstructures, hcollections⟩ := h
  refine ⟨fun shape hshape ↦ ?_, hcollections⟩
  obtain ⟨d, decl, hd, hdecl, hfits, htyped⟩ := exists_fits_of_declares (hstructures shape hshape)
  exact ⟨d, decl, hfits, htyped, Bindings.decodesAs hdistinct hd hdecl⟩

/-- The bindings of the showcase are made under either protocol, and decode as the trees of elements
mean. -/
theorem showcase_decodesAs :
    (∃ b, rest = .ok b ∧ Showcase.Decodes { errorWrapping := false } b) ∧
      ∃ b, query = .ok b ∧ Showcase.Decodes { envelope := .wrapped } b := by
  obtain ⟨b, hb, hsound⟩ := exists_sound_rest
  obtain ⟨b', hb', hsound'⟩ := exists_sound_query
  exact ⟨⟨b, hb, hsound.decodes⟩, b', hb', hsound'.decodes⟩

end Samples

end WireShapes
