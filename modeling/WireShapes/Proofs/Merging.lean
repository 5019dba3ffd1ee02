import WireShapes.Proofs.Loading
import WireShapes.Proofs.Table

/-!
# Merging models

A model to which nothing was declared under the name of one of its shapes, unless it was that very
shape, keeps its entries and gets the others behind them.  Merging such a model into another that
starts with the same prelude is the same as declaring the rest there; a shape that stands under one
name in both, and is not the same in both, stops the merge.
-/

namespace WireShapes

open Scalar (Kind)

namespace Table

variable {κ α : Type} [DecidableEq κ] {entries : List (κ × α)} {key : κ} {value : α}

theorem put_of_lookup_eq_some (h : entries.lookup key = some value) :
    put key value entries = entries := by
  induction entries with
  | nil => cases h
  | cons entry rest ih =>
    obtain ⟨first, old⟩ := entry
    rw [List.lookup_cons] at h
    unfold put
    by_cases hfirst : first = key
    · subst hfirst
      have hold : old = value := by simpa using h
      rw [if_pos rfl, hold]
    · have hne : (key == first) = false := beq_eq_false_iff_ne.mpr fun heq ↦ hfirst heq.symm
      rw [if_neg hfirst, ih (by simpa [hne] using h)]

theorem put_of_lookup_eq_none (h : entries.lookup key = none) :
    put key value entries = entries ++ [(key, value)] := by
  induction entries with
  | nil => rfl
  | cons entry rest ih =>
    obtain ⟨first, old⟩ := entry
    rw [List.lookup_cons] at h
    unfold put
    by_cases hfirst : first = key
    · simp [hfirst] at h
    · have hne : (key == first) = false := beq_eq_false_iff_ne.mpr fun heq ↦ hfirst heq.symm
      rw [if_neg hfirst, ih (by simpa [hne] using h), List.cons_append]

end Table

/-! ## Declaring -/

namespace Model

variable {m : Model} {items : List Declared} {s : Shape} {name : String}

@[simp]
theorem shape?_insert (m : Model) (s : Shape) (name : String) :
    (m.insert s).shape? name = if name = s.name then some s else m.shape? name :=
  Table.get?_insert _ _ _ _

/-- The shapes of which a model has none of the name, with their names. -/
def newEntries (m : Model) (items : List Declared) : List (String × Shape) :=
  ((Declared.shapes items).filter fun s ↦ (m.shape? s.name).isNone).map fun s ↦ (s.name, s)

/-- What is declared under the name of a shape is that shape. -/
def Agrees (m : Model) (items : List Declared) : Prop :=
  ∀ s ∈ Declared.shapes items, ∀ old, m.shape? s.name = some old → old = s

instance (m : Model) (items : List Declared) : Decidable (m.Agrees items) :=
  decidable_of_iff
    (∀ s ∈ Declared.shapes items, m.shape? s.name = none ∨ m.shape? s.name = some s) <| by
    refine forall₂_congr fun s _ ↦ ?_
    cases m.shape? s.name <;> simp

theorem shape?_foldl_add_of_notMem (h : name ∉ Declared.names items) :
    (items.foldl add m).shape? name = m.shape? name := by
  induction items generalizing m with
  | nil => rfl
  | cons item rest ih =>
    rw [Declared.names_cons, List.mem_append, not_or] at h
    rw [List.foldl_cons, ih h.2]
    cases item with
    | operation op => rfl
    | shape s =>
      have hne : name ≠ s.name := by simpa [Declared.shape?] using h.1
      rw [add, shape?_insert, if_neg hne]

/-- A shape that is declared once is found under its name. -/
theorem shape?_foldl_add (hnodup : (Declared.names items).Nodup) (h : s ∈ Declared.shapes items) :
    (items.foldl add m).shape? s.name = some s := by
  induction items generalizing m with
  | nil => cases h
  | cons item rest ih =>
    rw [Declared.names_cons] at hnodup
    rw [List.foldl_cons]
    cases item with
    | operation op => exact ih hnodup h
    | shape first =>
      obtain ⟨hfresh, hrest⟩ := List.nodup_cons.mp hnodup
      rcases List.mem_cons.mp h with rfl | h
      · rw [shape?_foldl_add_of_notMem hfresh, add, shape?_insert, if_pos rfl]
      · exact ih hrest h

theorem newEntries_congr {m' : Model} (h : ∀ name ∈ Declared.names items,
    m.shape? name = m'.shape? name) : m.newEntries items = m'.newEntries items := by
  unfold newEntries
  congr 1
  apply List.filter_congr
  intro s hs
  rw [h s.name (List.mem_map_of_mem hs)]

/-- Declaring agrees with what is there, and puts what is new behind it. -/
theorem entries_foldl_add (hnodup : (Declared.names items).Nodup) (h : m.Agrees items) :
    (items.foldl add m).shapes.entries = m.shapes.entries ++ m.newEntries items := by
  induction items generalizing m with
  | nil => simp [newEntries, Declared.shapes]
  | cons item rest ih =>
    rw [Declared.names_cons] at hnodup
    rw [List.foldl_cons]
    cases item with
    | operation op => exact ih hnodup h
    | shape s =>
      obtain ⟨hfresh, hrest⟩ := List.nodup_cons.mp hnodup
      have hsame : ∀ name ∈ Declared.names rest, (m.insert s).shape? name = m.shape? name := by
        intro name hname
        have hne : name ≠ s.name := by
          rintro rfl
          exact hfresh hname
        rw [shape?_insert, if_neg hne]
      have hagrees : (m.insert s).Agrees rest := by
        intro s' hs' old hold
        rw [hsame _ (List.mem_map_of_mem hs')] at hold
        exact h s' (List.mem_cons_of_mem _ hs') old hold
      rw [add, ih hrest hagrees, newEntries_congr hsame]
      cases hold : m.shape? s.name with
      | some old =>
        obtain rfl : old = s := h s List.mem_cons_self old hold
        have hput : (m.insert old).shapes.entries = m.shapes.entries :=
          Table.put_of_lookup_eq_some hold
        simp [hput, newEntries, Declared.shapes, Declared.shape?, hold]
      | none =>
        have hput : (m.insert s).shapes.entries = m.shapes.entries ++ [(s.name, s)] :=
          Table.put_of_lookup_eq_none hold
        simp [hput, newEntries, Declared.shapes, Declared.shape?, hold]

/-- The operations among what is declared. -/
def operationsOf (items : List Declared) : List Operation :=
  items.filterMap fun
    | .shape _ => none
    | .operation op => some op

theorem operations_foldl_add : (items.foldl add m).operations =
    m.operations ++ operationsOf items := by
  induction items generalizing m with
  | nil => simp [operationsOf]
  | cons item rest ih =>
    rw [List.foldl_cons, ih]
    cases item <;> simp [add, insert, addOperation, operationsOf]

theorem foldl_add_eq (hnodup : (Declared.names items).Nodup) (h : m.Agrees items) :
    items.foldl add m =
      ⟨⟨m.shapes.entries ++ m.newEntries items⟩, m.operations ++ operationsOf items⟩ := by
  rw [← entries_foldl_add hnodup h, ← operations_foldl_add]

/-! ## Absorbing -/

/-- Shapes of which the prelude ones are there, and the others have new names, are absorbed. -/
theorem absorb_eq {entries : List (String × Shape)} (hnodup : (entries.map Prod.fst).Nodup)
    (h : ∀ entry ∈ entries, m.shape? entry.1 = none ∨
      inPrelude entry.1 ∧ m.shape? entry.1 = some entry.2) :
    m.absorb entries =
      ({ m with shapes :=
        ⟨m.shapes.entries ++ entries.filter fun entry ↦ (m.shape? entry.1).isNone⟩ }, none) := by
  induction entries generalizing m with
  | nil => simp [absorb]
  | cons entry rest ih =>
    obtain ⟨name, s⟩ := entry
    obtain ⟨hfresh, hrest⟩ := List.nodup_cons.mp hnodup
    rcases h (name, s) List.mem_cons_self with hnone | ⟨hprelude, hsome⟩
    · have hget : m.shapes.get? name = none := hnone
      let m' : Model := { m with shapes := m.shapes.insert name s }
      have hsame : ∀ entry ∈ rest, m'.shape? entry.1 = m.shape? entry.1 := by
        intro entry hentry
        have hne : entry.1 ≠ name := by
          rintro rfl
          exact hfresh (List.mem_map.mpr ⟨entry, hentry, rfl⟩)
        exact (Table.get?_insert _ _ _ _).trans (if_neg hne)
      have hput : m'.shapes.entries = m.shapes.entries ++ [(name, s)] :=
        Table.put_of_lookup_eq_none hnone
      have hfilter : rest.filter (fun entry ↦ (m'.shape? entry.1).isNone) =
          rest.filter fun entry ↦ (m.shape? entry.1).isNone := by
        apply List.filter_congr
        intro entry hentry
        rw [hsame entry hentry]
      have hih : m'.absorb rest = _ := ih hrest fun entry hentry ↦ by
        rw [hsame entry hentry]
        exact h entry (List.mem_cons_of_mem _ hentry)
      rw [absorb, if_neg (by simp [hget]), if_neg (by simp [hget])]
      rw [show absorb _ rest = m'.absorb rest from rfl, hih, hfilter, hput]
      simp [hnone, m']
    · have hget : m.shapes.get? name = some s := hsome
      rw [absorb, if_pos ⟨hprelude, hget⟩, ih hrest fun entry hentry ↦
        h entry (List.mem_cons_of_mem _ hentry)]
      simp [hsome]

/-- What is absorbed agrees with the shapes that were there. -/
theorem agrees_of_absorb {entries : List (String × Shape)} (h : (m.absorb entries).2 = none)
    {entry : String × Shape} (hentry : entry ∈ entries) {old : Shape}
    (hold : m.shape? entry.1 = some old) : old = entry.2 := by
  induction entries generalizing m with
  | nil => cases hentry
  | cons first rest ih =>
    obtain ⟨name, s⟩ := first
    rw [absorb] at h
    split at h
    case isTrue hshared =>
      rcases List.mem_cons.mp hentry with rfl | hentry
      · exact Option.some.inj (hold.symm.trans hshared.2)
      · exact ih h hentry hold
    case isFalse =>
      split at h
      · cases h
      · rename_i hnone
        have hget : m.shapes.get? name = none := by simpa using hnone
        have hne : entry.1 ≠ name := by
          rintro rfl
          exact absurd (hold.symm.trans hget) (Option.some_ne_none _)
        rcases List.mem_cons.mp hentry with rfl | hentry
        · exact absurd rfl hne
        · exact ih h hentry ((Table.get?_insert _ _ _ _).trans ((if_neg hne).trans hold))

/-! ## Merging -/

theorem mem_keys_fresh {name : String} : name ∈ fresh.shapes.keys ↔ inPrelude name = true := by
  have hkeys : fresh.shapes.keys = Kind.all.map Kind.name := rfl
  unfold inPrelude Kind.ofName?
  rw [hkeys, List.find?_isSome, List.mem_map]
  simp

theorem nodup_keys_fresh : fresh.shapes.keys.Nodup := by decide

/-- What is declared leaves the prelude as it is. -/
theorem shape?_ofDeclared (hnodup : (Declared.names items).Nodup) (h : fresh.Agrees items)
    (hname : name ∉ Declared.names items ∨ (fresh.shape? name).isSome) :
    (ofDeclared items).shape? name = fresh.shape? name := by
  rcases hname with hname | hsome
  · exact shape?_foldl_add_of_notMem hname
  · obtain ⟨s, hs⟩ := Option.isSome_iff_exists.mp hsome
    have hlookup : fresh.shapes.entries.lookup name = some s := hs
    rw [hs, shape?, Table.get?, ofDeclared, entries_foldl_add hnodup h, List.lookup_append, hlookup]
    rfl

/-- Declaring in one model and then, in another, what agrees with the prelude comes to declaring all
in one. -/
theorem merge_ofDeclared {more : List Declared}
    (hnodup : (Declared.names (items ++ more)).Nodup) (hitems : fresh.Agrees items)
    (hmore : fresh.Agrees more) :
    (ofDeclared items).merge (ofDeclared more) = (ofDeclared (items ++ more), none) := by
  rw [Declared.names_append] at hnodup
  obtain ⟨hnodupItems, hnodupMore, hdisjoint⟩ := List.nodup_append'.mp hnodup
  have hsame : ∀ name ∈ Declared.names more,
      (ofDeclared items).shape? name = fresh.shape? name := by
    intro name hname
    exact shape?_foldl_add_of_notMem fun hmem ↦ hdisjoint hmem hname
  have hagrees : (ofDeclared items).Agrees more := by
    intro s hs old hold
    rw [hsame s.name (List.mem_map_of_mem hs)] at hold
    exact hmore s hs old hold
  have hentries : (ofDeclared more).shapes.entries =
      fresh.shapes.entries ++ fresh.newEntries more := entries_foldl_add hnodupMore hmore
  have hnew : ∀ entry ∈ fresh.newEntries more,
      entry.1 ∈ Declared.names more ∧ fresh.shape? entry.1 = none := by
    intro entry hentry
    obtain ⟨s, hs, rfl⟩ := List.mem_map.mp hentry
    obtain ⟨hs, hnone⟩ := List.mem_filter.mp hs
    exact ⟨List.mem_map_of_mem hs, Option.isNone_iff_eq_none.mp hnone⟩
  have hold : ∀ entry ∈ fresh.shapes.entries, (ofDeclared items).shape? entry.1 = some entry.2 := by
    intro entry hentry
    have hfind : fresh.shape? entry.1 = some entry.2 :=
      (Table.lookup_eq_some_iff_mem nodup_keys_fresh).mpr hentry
    rw [shape?_ofDeclared hnodupItems hitems (.inr (Option.isSome_of_eq_some hfind)), hfind]
  have hkeys : ((ofDeclared more).shapes.entries.map Prod.fst).Nodup := by
    rw [hentries, List.map_append]
    refine List.nodup_append'.mpr ⟨nodup_keys_fresh, ?_, ?_⟩
    · have hnames : (fresh.newEntries more).map Prod.fst = ((Declared.shapes more).filter
          fun s ↦ (fresh.shape? s.name).isNone).map Shape.name := by
        simp [newEntries, Function.comp_def]
      rw [hnames]
      exact hnodupMore.sublist (List.filter_sublist.map _)
    · intro name hfresh hname
      obtain ⟨entry, hentry, rfl⟩ := List.mem_map.mp hname
      have hsome := Table.get?_isSome_iff.mpr hfresh
      rw [show fresh.shapes.get? entry.1 = none from (hnew entry hentry).2] at hsome
      cases hsome
  have habsorb := absorb_eq (m := ofDeclared items) hkeys fun entry hentry ↦ by
    rw [hentries] at hentry
    rcases List.mem_append.mp hentry with hentry | hentry
    · exact .inr ⟨mem_keys_fresh.mp (List.mem_map_of_mem hentry), hold entry hentry⟩
    · exact .inl ((hsame _ (hnew entry hentry).1).trans (hnew entry hentry).2)
  have hfilter : (ofDeclared more).shapes.entries.filter
      (fun entry ↦ ((ofDeclared items).shape? entry.1).isNone) = fresh.newEntries more := by
    rw [hentries, List.filter_append, List.filter_eq_nil_iff.mpr, List.filter_eq_self.mpr]
    · rfl
    · intro entry hentry
      rw [hsame _ (hnew entry hentry).1, (hnew entry hentry).2]
      rfl
    · intro entry hentry
      rw [hold entry hentry]
      exact Bool.false_ne_true
  have hall : ofDeclared (items ++ more) =
      ⟨⟨(ofDeclared items).shapes.entries ++ fresh.newEntries more⟩,
        (ofDeclared items).operations ++ operationsOf more⟩ := by
    rw [← newEntries_congr hsame, ← foldl_add_eq hnodupMore hagrees]
    exact List.foldl_append
  have hoperations : (ofDeclared more).operations = operationsOf more :=
    operations_foldl_add.trans (List.nil_append _)
  rw [merge, habsorb, hfilter, hall, hoperations]

/-- A changed prelude shape stops the merge. -/
theorem merge_ofDeclared_isSome {more : List Declared}
    (hnodup : (Declared.names items).Nodup) (hitems : fresh.Agrees items)
    (hnodupMore : (Declared.names more).Nodup) (hmore : ¬ fresh.Agrees more) :
    ((ofDeclared items).merge (ofDeclared more)).2.isSome := by
  by_contra hnone
  apply hmore
  intro s hs old hold
  have hmem : (s.name, s) ∈ (ofDeclared more).shapes.entries := by
    have hfind : (ofDeclared more).shapes.get? s.name = some s := shape?_foldl_add hnodupMore hs
    obtain ⟨before, after, hentries, -⟩ := List.lookup_eq_some_iff.mp hfind
    rw [hentries]
    exact List.mem_append_right _ List.mem_cons_self
  have hthere : (ofDeclared items).shape? s.name = some old := by
    rw [shape?_ofDeclared hnodup hitems (.inr (Option.isSome_of_eq_some hold)), hold]
  refine agrees_of_absorb ?_ hmem hthere
  unfold merge at hnone
  split at hnone
  case h_1 heq => rw [heq]
  case h_2 heq => simp at hnone

end Model

end WireShapes
