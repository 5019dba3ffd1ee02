import Mathlib.Data.List.Nodup
import Mathlib.Data.List.Pairwise
import WireShapes.Bindings.Types
import WireShapes.Proofs.Failing

/-!
# Claimed identifiers

A scope lets no printed identifier be claimed twice, so what was claimed one by one is pairwise
distinct as printed.  For the types of a model this means that a printed name belongs to one
structure, builder, union, enumeration or operation.
-/

namespace WireShapes.Bindings

open Code (Ident)

/-- Where nothing belongs to two things, things that share something are one. -/
theorem eq_of_nodup_flatMap {α β : Type} {xs : List α} {f : α → List β}
    (h : (xs.flatMap f).Nodup) {x y : α} (hx : x ∈ xs) (hy : y ∈ xs) {z : β} (hz : z ∈ f x)
    (hz' : z ∈ f y) : x = y := by
  have hsymm : Std.Symm (Function.onFun List.Disjoint f) :=
    ⟨fun _ _ hdisjoint _ hmem hmem' ↦ hdisjoint hmem' hmem⟩
  by_contra hne
  exact (List.nodup_flatMap.mp h).2.forall hx hy hne hz hz'

namespace Claims

/-- The identifiers of a scope as printed, the latest first. -/
def names (claims : Claims) : List String :=
  claims.taken.map Prod.fst

/-- Identifiers were claimed one after the other. -/
structure Adds (before : Claims) (idents : List Ident) (after : Claims) : Prop where
  names_eq : after.names = (idents.map Ident.toText).reverse ++ before.names
  nodup : before.names.Nodup → after.names.Nodup

variable {a b c : Claims} {ident : Ident} {idents more : List Ident} {owner : String}

theorem Adds.refl (a : Claims) : a.Adds [] a where
  names_eq := by simp
  nodup h := h

theorem Adds.trans (h : a.Adds idents b) (h' : b.Adds more c) : a.Adds (idents ++ more) c where
  names_eq := by simp [h'.names_eq, h.names_eq]
  nodup hnodup := h'.nodup (h.nodup hnodup)

theorem claim_adds (h : a.claim ident owner = .ok b) : a.Adds [ident] b := by
  unfold claim at h
  cases hlookup : a.taken.lookup ident.toText with
  | some other =>
    rw [hlookup] at h
    cases h
  | none =>
    rw [hlookup] at h
    obtain rfl := Except.ok.inj h
    refine ⟨by simp [names], fun hnodup ↦ List.nodup_cons.mpr ⟨?_, hnodup⟩⟩
    intro hmem
    obtain ⟨entry, hentry, htext⟩ := List.mem_map.mp hmem
    have hnone := List.lookup_eq_none_iff.mp hlookup entry hentry
    simp [htext] at hnone

theorem claimAll_adds (h : a.claimAll idents owner = .ok b) : a.Adds idents b := by
  unfold claimAll at h
  induction idents generalizing a with
  | nil =>
    obtain rfl := Except.ok.inj h
    exact .refl a
  | cons ident rest ih =>
    rw [List.foldlM_cons] at h
    obtain ⟨next, hfirst, hrest⟩ := Failing.bind_eq_ok.mp h
    exact (claim_adds hfirst).trans (ih hrest)

/-- A step that claims the identifiers of each thing, made for a list of things. -/
theorem foldlM_adds {α : Type} {step : Claims → α → Except GenerateError Claims}
    {identsOf : α → List Ident}
    (hstep : ∀ x before after, step before x = .ok after → before.Adds (identsOf x) after)
    {xs : List α} (h : xs.foldlM step a = .ok b) : a.Adds (xs.flatMap identsOf) b := by
  induction xs generalizing a with
  | nil =>
    obtain rfl := Except.ok.inj h
    exact .refl a
  | cons x rest ih =>
    rw [List.foldlM_cons] at h
    obtain ⟨next, hfirst, hrest⟩ := Failing.bind_eq_ok.mp h
    exact (hstep x _ _ hfirst).trans (ih hrest)

/-- In a scope that starts empty all claimed identifiers are distinct as printed. -/
theorem Adds.nodup_map (h : (none owner).Adds idents b) : (idents.map Ident.toText).Nodup := by
  have hnodup := h.nodup List.nodup_nil
  rw [h.names_eq] at hnodup
  simpa [names, none] using hnodup

end Claims

/-! ## Types of a model -/

/-- What a type of generated code is made for. -/
inductive TypeRole
  | type (shape : String)
  | builder (shape : String)
  | failure (operation : String)
deriving DecidableEq

/-- The types for a shape, with their identifiers. -/
def shapeTypes (shape : Shape) : List (Ident × TypeRole) :=
  match shape.form with
  | .struct _ => [(Code.camelIdent shape.name, .type shape.name),
      (Code.builderTypeIdent shape.name, .builder shape.name)]
  | .union _ | .enum _ => [(Code.camelIdent shape.name, .type shape.name)]
  | _ => []

/-- The types for a model, with their identifiers. -/
def modelTypes (m : Model) : List (Ident × TypeRole) :=
  m.shapes.values.flatMap shapeTypes ++
    m.operations.map fun op ↦ (Code.errorTypeIdent op.name, .failure op.name)

/-- Printed type names are distinct once they are claimed. -/
theorem Context.claimTypes_nodup {ctx : Context} (h : ctx.claimTypes = .ok ()) :
    ((modelTypes ctx.model).map fun entry ↦ entry.1.toText).Nodup := by
  unfold claimTypes at h
  obtain ⟨shapes, hshapes, hrest⟩ := Failing.bind_eq_ok.mp h
  obtain ⟨all, hall, -⟩ := Failing.bind_eq_ok.mp hrest
  have hfirst : (Claims.none "model").Adds
      (ctx.model.shapes.values.flatMap fun shape ↦ (shapeTypes shape).map Prod.fst) shapes := by
    refine Claims.foldlM_adds (fun shape before after hstep ↦ ?_) hshapes
    unfold shapeTypes
    cases hform : shape.form with
    | struct members =>
      simp only [hform] at hstep
      exact Claims.claimAll_adds hstep
    | union members | enum values =>
      simp only [hform] at hstep
      exact Claims.claim_adds hstep
    | scalar kind | list item | map key value =>
      simp only [hform] at hstep
      obtain rfl := Except.ok.inj hstep
      exact .refl _
  have hsecond : shapes.Adds
      (ctx.model.operations.map fun op ↦ Code.errorTypeIdent op.name) all := by
    rw [List.map_eq_flatMap]
    exact Claims.foldlM_adds (fun op before after hstep ↦ Claims.claim_adds hstep) hall
  have hidents : (modelTypes ctx.model).map Prod.fst =
      (ctx.model.shapes.values.flatMap fun shape ↦ (shapeTypes shape).map Prod.fst) ++
        ctx.model.operations.map fun op ↦ Code.errorTypeIdent op.name := by
    simp [modelTypes, List.map_flatMap]
  have hnodup := (hfirst.trans hsecond).nodup_map
  rwa [← hidents, List.map_map] at hnodup

/-- A printed type name says what the type is made for. -/
theorem Context.role_unique {ctx : Context} (h : ctx.claimTypes = .ok ())
    {ident ident' : Ident} {role role' : TypeRole} (hrole : (ident, role) ∈ modelTypes ctx.model)
    (hrole' : (ident', role') ∈ modelTypes ctx.model) (htext : ident.toText = ident'.toText) :
    role = role' := by
  have heq := List.inj_on_of_nodup_map (claimTypes_nodup h) hrole hrole' htext
  exact congrArg Prod.snd heq

end WireShapes.Bindings
