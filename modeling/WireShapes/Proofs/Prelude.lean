import WireShapes.Proofs.Keyed

/-!
# The prelude in front

`Model.Built` holds of the models that are put together from a fresh or a loaded one by adding
shapes and operations, by merging, and by breaking cycles.  None of these takes a name away or moves
one: the names that were there stand in front, and new ones come behind them.  So the ten names of
the prelude stay the first ten, whatever shapes have come to stand under them.  Besides that, every
shape stands under its own name and no name is there twice, and no more can be said: a model of
which all this holds can be put together.
-/

namespace WireShapes

open Scalar (Kind)

/-! ## Names in tables -/

namespace Table

variable {κ α : Type} [DecidableEq κ] {before later entries : List (κ × α)} {key : κ}
  {value : α}

theorem keys_prefix_put (key : κ) (value : α) (entries : List (κ × α)) :
    entries.map Prod.fst <+: (put key value entries).map Prod.fst := by
  induction entries with
  | nil => exact List.nil_prefix
  | cons entry rest ih =>
    obtain ⟨first, old⟩ := entry
    unfold put
    split
    next hfirst => rw [List.map_cons, List.map_cons, hfirst]
    next => exact (List.prefix_cons_inj first).mpr ih

theorem put_append_of_notMem (h : key ∉ before.map Prod.fst) :
    put key value (before ++ later) = before ++ put key value later := by
  induction before with
  | nil => rfl
  | cons entry rest ih =>
    obtain ⟨first, old⟩ := entry
    rw [List.map_cons, List.mem_cons, not_or] at h
    rw [List.cons_append, put, if_neg (Ne.symm h.1), ih h.2, List.cons_append]

/-- Entries that are put into a table in the order of its keys replace what is there, one after the
other, and come behind when there is no more. -/
theorem foldl_put_of_prefix (before : List (κ × α))
    (hnodup : ((before ++ entries).map Prod.fst).Nodup)
    (hkeys : later.map Prod.fst <+: entries.map Prod.fst) :
    entries.foldl (fun table entry ↦ put entry.1 entry.2 table) (before ++ later) =
      before ++ entries := by
  induction entries generalizing before later with
  | nil =>
    rw [List.map_nil, List.prefix_nil, List.map_eq_nil_iff] at hkeys
    rw [hkeys, List.foldl_nil]
  | cons entry rest ih =>
    have hfresh : entry.1 ∉ before.map Prod.fst := by
      rw [List.map_append, List.map_cons] at hnodup
      exact fun hmem ↦ List.disjoint_of_nodup_append hnodup hmem List.mem_cons_self
    have hput : ∃ left, put entry.1 entry.2 later = entry :: left ∧
        left.map Prod.fst <+: rest.map Prod.fst := by
      cases later with
      | nil => exact ⟨[], rfl, List.nil_prefix⟩
      | cons old left =>
        obtain ⟨hsame, hleft⟩ := List.cons_prefix_cons.mp hkeys
        exact ⟨left, by rw [put, if_pos hsame], hleft⟩
    obtain ⟨left, hput, hleft⟩ := hput
    rw [List.append_cons] at hnodup
    rw [List.foldl_cons, put_append_of_notMem hfresh, hput, List.append_cons before entry left,
      ih (before ++ [entry]) hnodup hleft, ← List.append_cons]

end Table

/-! ## Names in models -/

namespace Model

variable {m other : Model}

theorem keys_prefix_insert (m : Model) (shape : Shape) :
    m.shapes.keys <+: (m.insert shape).shapes.keys :=
  Table.keys_prefix_put _ _ _

theorem keys_prefix_absorb (m : Model) (entries : List (String × Shape)) :
    m.shapes.keys <+: (m.absorb entries).1.shapes.keys := by
  induction entries generalizing m with
  | nil => exact List.prefix_rfl
  | cons entry rest ih =>
    obtain ⟨name, shape⟩ := entry
    unfold absorb
    split
    · exact ih m
    · split
      · exact List.prefix_rfl
      · have hput : m.shapes.keys <+: (m.shapes.insert name shape).keys :=
          Table.keys_prefix_put name shape _
        exact hput.trans (ih { m with shapes := m.shapes.insert name shape })

/-- A merge leaves the names in front, also where it stops at a conflict. -/
theorem keys_prefix_merge (m other : Model) :
    m.shapes.keys <+: (m.merge other).1.shapes.keys := by
  have habsorbed := m.keys_prefix_absorb other.shapes.entries
  unfold merge
  split
  next heq => rwa [heq] at habsorbed
  next heq => rwa [heq] at habsorbed

theorem keys_prefix_ofDeclared (items : List Declared) :
    fresh.shapes.keys <+: (ofDeclared items).shapes.keys := by
  induction items using List.reverseRecOn with
  | nil => exact List.prefix_rfl
  | append_singleton items item ih =>
    rw [ofDeclared, List.foldl_append]
    cases item with
    | shape s => exact ih.trans (keys_prefix_insert _ s)
    | operation op => exact ih

/-! ## Models that are put together -/

/-- The models that are put together from fresh and loaded ones.  A merge counts whether or not it
stops at a conflict. -/
inductive Built : Model → Prop
  | fresh : Built .fresh
  | loaded {m : Model} {bytes : List UInt8} (h : ofBytes bytes = .ok m) : Built m
  | insert {m : Model} (h : Built m) (shape : Shape) : Built (m.insert shape)
  | addOperation {m : Model} (h : Built m) (op : Operation) : Built (m.addOperation op)
  | merge {m other : Model} (h : Built m) (hother : Built other) : Built (m.merge other).1
  | breakCycles {m : Model} (h : Built m) : Built m.breakCycles

theorem Built.keyed (h : m.Built) : m.Keyed := by
  induction h with
  | fresh => exact keyed_fresh
  | loaded h => exact keyed_ofBytes h
  | insert _ shape ih => exact ih.insert shape
  | addOperation _ op ih => exact ih.addOperation op
  | merge _ _ ih ihother => exact ih.merge ihother
  | breakCycles _ ih => exact ih.breakCycles

/-- The names of the prelude stay in front. -/
theorem Built.prelude_prefix_keys (h : m.Built) : Model.fresh.shapes.keys <+: m.shapes.keys := by
  induction h with
  | fresh => exact List.prefix_rfl
  | loaded h =>
    obtain ⟨items, -, rfl⟩ := exists_declared_of_ofBytes h
    exact keys_prefix_ofDeclared items
  | insert _ shape ih => exact ih.trans (keys_prefix_insert _ shape)
  | addOperation _ op ih => exact ih
  | merge _ _ ih _ => exact ih.trans (keys_prefix_merge _ _)
  | breakCycles _ ih => rwa [keys_breakCycles]

theorem operations_foldl_insert (shapes : List Shape) (m : Model) :
    (shapes.foldl insert m).operations = m.operations := by
  induction shapes generalizing m with
  | nil => rfl
  | cons shape rest ih => rw [List.foldl_cons, ih, insert]

theorem built_ofShapes (shapes : List Shape) (operations : List Operation) :
    (ofShapes shapes operations).Built := by
  have hinserted : (shapes.foldl insert fresh).Built := by
    induction shapes using List.reverseRecOn with
    | nil => exact .fresh
    | append_singleton shapes shape ih =>
      rw [List.foldl_append]
      exact ih.insert shape
  induction operations using List.reverseRecOn with
  | nil =>
    have hnone : (shapes.foldl insert fresh).operations = [] := operations_foldl_insert shapes fresh
    rw [ofShapes, ← hnone]
    exact hinserted
  | append_singleton operations op ih => exact ih.addOperation op

/-- Putting its shapes into a fresh model gives a model back. -/
theorem Keyed.ofShapes_values (h : m.Keyed) (hfront : fresh.shapes.keys <+: m.shapes.keys) :
    ofShapes m.shapes.values m.operations = m := by
  have hentries : (m.shapes.values.foldl Model.insert fresh).shapes.entries = m.shapes.entries := by
    calc (m.shapes.values.foldl Model.insert fresh).shapes.entries
      _ = m.shapes.values.foldl (fun table shape ↦ Table.put shape.name shape table)
          fresh.shapes.entries :=
        (List.foldl_hom (fun m : Model ↦ m.shapes.entries) fun _ _ ↦ rfl).symm
      _ = m.shapes.entries.foldl (fun table entry ↦ Table.put entry.1 entry.2 table)
          fresh.shapes.entries := by
        rw [Table.values, List.foldl_map]
        exact List.foldl_ext _ _ _ fun table entry hentry ↦ by rw [h.named entry hentry]
      _ = m.shapes.entries := Table.foldl_put_of_prefix [] h.nodup hfront
  exact congrArg (fun entries ↦ (⟨⟨entries⟩, m.operations⟩ : Model)) hentries

/-- The models that are put together from fresh and loaded ones are those in which every shape
stands under its own name, no name is there twice, and the first ten names are the prelude's in
their order. -/
theorem built_iff : m.Built ↔
    (∀ entry ∈ m.shapes.entries, entry.2.name = entry.1) ∧ m.shapes.keys.Nodup ∧
      m.shapes.keys.take 10 = Kind.all.map Kind.name := by
  have hfirst : m.shapes.keys.take 10 = Kind.all.map Kind.name ↔
      fresh.shapes.keys <+: m.shapes.keys := by
    rw [List.prefix_iff_eq_take, eq_comm]
    rfl
  rw [hfirst]
  constructor
  · intro h
    exact ⟨h.keyed.named, h.keyed.nodup, h.prelude_prefix_keys⟩
  · rintro ⟨hnamed, hnodup, hfront⟩
    rw [← Keyed.ofShapes_values ⟨hnodup, hnamed⟩ hfront]
    exact built_ofShapes _ _

/-- A scalar that was replaced keeps its place, also where it stops a merge half-way. -/
example :
    let wide : Model := fresh.insert { name := "Byte", form := .scalar .long }
    let desk : Model := fresh.insert { name := "Desk", form := .struct [] }
    (desk.merge wide).2 = some "Byte" ∧ (wide.merge desk).2 = some "Byte" ∧
      (wide.merge desk).1.shapes.keys = Kind.all.map Kind.name ∧
      (wide.merge desk).1.shape? "Byte" = some { name := "Byte", form := .scalar .long } := by
  decide

end Model

end WireShapes
