import WireShapes.Proofs.Cycles
import WireShapes.Proofs.Loading

/-!
# Shapes under their names

In a model that is put together by inserting, merging and loading, every shape stands under its own
name and no name occurs twice.  Breaking cycles keeps that, and changes nothing of a shape but the
marks of its references.
-/

namespace WireShapes

/-! ## Tables -/

namespace Table

variable {κ α : Type} [DecidableEq κ] {entries : List (κ × α)} {key : κ} {value : α}

theorem nodup_put (h : (entries.map Prod.fst).Nodup) :
    ((put key value entries).map Prod.fst).Nodup := by
  induction entries with
  | nil => simp [put]
  | cons first rest ih =>
    obtain ⟨k, v⟩ := first
    obtain ⟨hfresh, hrest⟩ := List.nodup_cons.mp h
    unfold put
    split
    case isTrue heq =>
      subst heq
      exact h
    case isFalse hne =>
      refine List.nodup_cons.mpr ⟨fun hmem ↦ ?_, ih hrest⟩
      obtain ⟨entry, hentry, hkey⟩ := List.mem_map.mp hmem
      rcases mem_put hentry with rfl | hentry
      · exact hne hkey.symm
      · exact hfresh (List.mem_map.mpr ⟨entry, hentry, hkey⟩)

end Table

/-! ## Names -/

namespace Model

/-- Every shape stands under its own name, and no name occurs twice. -/
structure Keyed (m : Model) : Prop where
  nodup : m.shapes.keys.Nodup
  named : ∀ entry ∈ m.shapes.entries, entry.2.name = entry.1

instance (m : Model) : Decidable m.Keyed :=
  decidable_of_iff
    (m.shapes.keys.Nodup ∧ ∀ entry ∈ m.shapes.entries, entry.2.name = entry.1)
    ⟨fun h ↦ ⟨h.1, h.2⟩, fun h ↦ ⟨h.nodup, h.named⟩⟩

variable {m other : Model} {shape : Shape} {name : String}

theorem keyed_fresh : fresh.Keyed := by decide

theorem Keyed.insert (h : m.Keyed) (shape : Shape) : (m.insert shape).Keyed where
  nodup := Table.nodup_put h.nodup
  named entry hentry := by
    rcases Table.mem_put hentry with rfl | hentry
    · rfl
    · exact h.named entry hentry

theorem Keyed.addOperation (h : m.Keyed) (op : Operation) : (m.addOperation op).Keyed :=
  ⟨h.nodup, h.named⟩

theorem Keyed.absorb {entries : List (String × Shape)} (h : m.Keyed)
    (hentries : ∀ entry ∈ entries, entry.2.name = entry.1) : (m.absorb entries).1.Keyed := by
  induction entries generalizing m with
  | nil => exact h
  | cons entry rest ih =>
    obtain ⟨name, shape⟩ := entry
    have hrest : ∀ entry ∈ rest, entry.2.name = entry.1 := by
      intro entry hentry
      exact hentries entry (List.mem_cons_of_mem _ hentry)
    have hname : shape.name = name := hentries _ List.mem_cons_self
    subst hname
    unfold Model.absorb
    split
    · exact ih h hrest
    · split
      · exact h
      · exact ih (h.insert shape) hrest

/-- Merging keeps shapes under their names, also where it stops at a conflict. -/
theorem Keyed.merge (h : m.Keyed) (hother : other.Keyed) : (m.merge other).1.Keyed := by
  have habsorbed := h.absorb hother.named
  unfold Model.merge
  split
  next heq =>
    rw [heq] at habsorbed
    exact ⟨habsorbed.nodup, habsorbed.named⟩
  next heq =>
    rw [heq] at habsorbed
    exact habsorbed

theorem keyed_ofShapes (shapes : List Shape) (operations : List Operation) :
    (ofShapes shapes operations).Keyed := by
  have hinserted : (shapes.foldl Model.insert fresh).Keyed := by
    induction shapes using List.reverseRecOn with
    | nil => exact keyed_fresh
    | append_singleton shapes shape ih =>
      rw [List.foldl_append]
      exact ih.insert shape
  exact ⟨hinserted.nodup, hinserted.named⟩

theorem keyed_ofDeclared (items : List Declared) : (ofDeclared items).Keyed := by
  induction items using List.reverseRecOn with
  | nil => exact keyed_fresh
  | append_singleton items item ih =>
    rw [ofDeclared, List.foldl_append]
    cases item with
    | shape s => exact Keyed.insert ih s
    | operation op => exact Keyed.addOperation ih op

theorem keyed_ofBytes {bytes : List UInt8} (h : ofBytes bytes = .ok m) : m.Keyed := by
  obtain ⟨items, -, rfl⟩ := exists_declared_of_ofBytes h
  exact keyed_ofDeclared items

theorem mem_values_of_shape? (h : m.shape? name = some shape) : shape ∈ m.shapes.values := by
  obtain ⟨before, after, hentries, -⟩ := List.lookup_eq_some_iff.mp h
  simp [Table.values, hentries]

theorem Keyed.shape?_eq_some (h : m.Keyed) (hshape : shape ∈ m.shapes.values) :
    m.shape? shape.name = some shape := by
  obtain ⟨entry, hentry, rfl⟩ := List.mem_map.mp hshape
  exact (Table.lookup_eq_some_iff_mem h.nodup).mpr (h.named entry hentry ▸ hentry)

theorem Keyed.name_of_shape? (h : m.Keyed) (hshape : m.shape? name = some shape) :
    shape.name = name :=
  h.named _ ((Table.lookup_eq_some_iff_mem h.nodup).mp hshape)

theorem Keyed.values_nodup (h : m.Keyed) : (m.shapes.values.map Shape.name).Nodup := by
  have hnames : m.shapes.values.map Shape.name = m.shapes.keys := by
    simp only [Table.values, Table.keys, List.map_map]
    exact List.map_congr_left h.named
  rw [hnames]
  exact h.nodup

end Model

/-! ## Marks aside -/

/-- An item with its reference unmarked. -/
def Item.unmarked (item : Item) : Item :=
  { item with target := { item.target with indirect := false } }

/-- A member with its reference unmarked. -/
def Member.unmarked (member : Member) : Member :=
  { member with target := { member.target with indirect := false } }

/-- A form with all its references unmarked. -/
def Form.unmarked : Form → Form
  | .scalar kind => .scalar kind
  | .list item => .list item.unmarked
  | .map key value => .map key.unmarked value.unmarked
  | .struct members => .struct (members.map Member.unmarked)
  | .union members => .union (members.map Member.unmarked)
  | .enum values => .enum values

/-- A shape with all its references unmarked. -/
def Shape.unmarked (shape : Shape) : Shape :=
  { shape with form := shape.form.unmarked }

/-- Unmarking is clearing every reference. -/
theorem Shape.unmarked_eq_mapRefs (shape : Shape) :
    shape.unmarked = shape.mapRefs fun _ ↦ Model.setIndirect false := by
  have hmembers (members : List Member) :
      members.map Member.unmarked =
        members.mapIdx fun _ ↦ Form.onTarget (Model.setIndirect false) := by
    refine List.ext_getElem? fun index ↦ ?_
    rw [List.getElem?_map, List.getElem?_mapIdx]
    rfl
  obtain ⟨name, form, xmlName, xmlNamespace, isError, doc⟩ := shape
  cases form with
  | scalar kind | enum values | list item | map key value => rfl
  | struct members | union members =>
    rw [unmarked, Form.unmarked, hmembers]
    rfl

namespace Model

/-- The entries of a model, marks aside. -/
def outline (m : Model) : List (String × Shape) :=
  m.shapes.entries.map fun entry ↦ (entry.1, entry.2.unmarked)

/-- Breaking cycles changes nothing but marks. -/
theorem outline_breakCycles (m : Model) : m.breakCycles.outline = m.outline := by
  rw [breakCycles_eq_mapRefs, outline, outline, mapRefs, List.map_map]
  refine List.map_congr_left fun entry _ ↦ Prod.ext rfl ?_
  simp only [Function.comp_apply, Shape.unmarked_eq_mapRefs, Shape.mapRefs_mapRefs]
  rfl

theorem operations_breakCycles (m : Model) : m.breakCycles.operations = m.operations := by
  rw [breakCycles_eq_mapRefs, mapRefs]

variable {m : Model}

/-- What a shape gives whatever its marks, the model gives with its cycles broken. -/
theorem map_values_breakCycles {α : Type} {f : Shape → α} (hf : ∀ shape, f shape.unmarked = f shape)
    (m : Model) : m.breakCycles.shapes.values.map f = m.shapes.values.map f := by
  have houtline := congrArg (List.map fun entry ↦ f entry.2) (outline_breakCycles m)
  simpa [outline, Table.values, Function.comp_def, hf] using houtline

theorem map_shape?_breakCycles {α : Type} {f : Shape → α} (hf : ∀ shape, f shape.unmarked = f shape)
    (m : Model) (name : String) : (m.breakCycles.shape? name).map f = (m.shape? name).map f := by
  have houtline (m : Model) : m.outline.lookup name = (m.shape? name).map Shape.unmarked :=
    Table.get?_mapValues Shape.unmarked m.shapes name
  have hsame := congrArg (List.lookup name) (outline_breakCycles m)
  rw [houtline, houtline] at hsame
  simpa [Function.comp_def, hf] using congrArg (Option.map f) hsame

theorem keys_breakCycles (m : Model) : m.breakCycles.shapes.keys = m.shapes.keys := by
  simpa [outline, Table.keys, Function.comp_def] using
    congrArg (List.map Prod.fst) (outline_breakCycles m)

theorem Keyed.breakCycles (h : m.Keyed) : m.breakCycles.Keyed := by
  have houtline := outline_breakCycles m
  refine ⟨?_, fun entry hentry ↦ ?_⟩
  · rw [keys_breakCycles]
    exact h.nodup
  · have hmem : (entry.1, entry.2.unmarked) ∈ m.outline := by
      rw [← houtline]
      exact List.mem_map_of_mem hentry
    obtain ⟨old, hold, heq⟩ := List.mem_map.mp hmem
    obtain ⟨hkey, hshape⟩ := Prod.ext_iff.mp heq
    have hname : old.2.unmarked.name = entry.2.unmarked.name := congrArg Shape.name hshape
    change old.2.name = entry.2.name at hname
    rw [← hname, h.named old hold]
    exact hkey

end Model

end WireShapes
