import WireShapes.Proofs.Walk

/-!
# Broken cycles

What `Model.breakCycles` is for.  Its marks are the back edges of the walk, each listed once.  Every
cycle of references has a marked one, since references that are not marked lead only to shapes left
behind earlier.  And no mark can be spared: with a back edge goes a path, back from its target, of
references that are not marked.

The marks are written by slots, in two passes.  The passes are stated for any change in the place of
clearing and marking, so that a reference that is reached twice, or not at all, could be told.
-/

namespace WireShapes.Model

/-! ## Paths and cycles -/

/-- Edges that follow one another from a shape to a shape. -/
inductive Path (m : Model) : List Edge → String → String → Prop
  | nil (name : String) : Path m [] name name
  | cons {edge : Edge} {edges : List Edge} {target last : String} :
      m.target? edge = some target → Path m edges target last →
      Path m (edge :: edges) edge.shape last

/-- Edges that lead from a shape back to it. -/
def Cycle (m : Model) (edges : List Edge) : Prop :=
  edges ≠ [] ∧ ∃ name, m.Path edges name name

/-- An edge whose reference is marked as indirect. -/
def Indirect (m : Model) (edge : Edge) : Prop :=
  ∃ ref, m.refAt? edge = some ref ∧ ref.indirect = true

variable {m other : Model} {edge : Edge} {edges : List Edge} {first last target : String}

theorem known_of_target? (h : m.target? edge = some target) : m.Known edge.shape := by
  unfold target? refAt? at h
  cases hshape : m.shape? edge.shape with
  | none => simp [hshape] at h
  | some shape => simp [Known, hshape]

/-- Only where references lead decides what is a path. -/
theorem Path.congr (h : m.target? = other.target?) (hpath : m.Path edges first last) :
    other.Path edges first last := by
  induction hpath with
  | nil name => exact .nil name
  | cons htarget _ ih => exact .cons (h ▸ htarget) ih

theorem Cycle.congr (h : m.target? = other.target?) (hcycle : m.Cycle edges) :
    other.Cycle edges := by
  obtain ⟨hne, name, hpath⟩ := hcycle
  exact ⟨hne, name, hpath.congr h⟩

/-! ## Direct references lead down -/

/-- A reference that is no back edge leads to a shape left behind before its own. -/
theorem Settled.idxOf_lt {walk : Traversal} (h : m.Settled walk) {slot : Slot}
    (hfinished : first ∈ walk.finished) (htarget : m.target? ⟨first, slot⟩ = some target)
    (hdirect : (⟨first, slot⟩ : Edge) ∉ walk.edges) (hknown : m.Known target) :
    walk.finished.idxOf first < walk.finished.idxOf target := by
  obtain ⟨newer, older, hsplit⟩ := List.append_of_mem hfinished
  have holder : target ∈ older :=
    (h.ordered newer first older hsplit slot target htarget hknown).resolve_left hdirect
  have hnodup := h.finished_nodup
  rw [hsplit] at hnodup
  obtain ⟨-, hrest, hapart⟩ := List.nodup_append.mp hnodup
  have hfirst : first ∉ newer := by
    intro hmem
    exact hapart first hmem first List.mem_cons_self rfl
  have htargetNewer : target ∉ newer := by
    intro hmem
    exact hapart target hmem target (List.mem_cons_of_mem _ holder) rfl
  have hne : first ≠ target := by
    intro heq
    exact (List.nodup_cons.mp hrest).1 (heq ▸ holder)
  rw [hsplit, List.idxOf_append_of_notMem hfirst, List.idxOf_append_of_notMem htargetNewer,
    List.idxOf_cons_self, List.idxOf_cons_ne _ hne]
  omega

/-- A path without back edges leads down the list of shapes left behind. -/
theorem Walked.descends {walk : Traversal} (h : m.Walked m.shapes.keys walk)
    (hpath : m.Path edges first last) (hdirect : ∀ edge ∈ edges, edge ∉ walk.edges)
    (hlast : m.Known last) :
    walk.finished.idxOf first ≤ walk.finished.idxOf last ∧
      (edges ≠ [] → walk.finished.idxOf first < walk.finished.idxOf last) := by
  induction hpath with
  | nil name => simp
  | @cons edge rest target last htarget hrest ih =>
    have hbelow := (ih (fun e he ↦ hdirect e (List.mem_cons_of_mem _ he)) hlast).1
    have hfinished : edge.shape ∈ walk.finished :=
      h.left_behind _ (known_iff.mp (known_of_target? htarget))
    have htargetKnown : m.Known target := by
      cases hrest with
      | nil => exact hlast
      | cons hnext _ => exact known_of_target? hnext
    have hstep := h.settled.idxOf_lt hfinished htarget (hdirect edge List.mem_cons_self)
      htargetKnown
    omega

/-- Every cycle has a back edge. -/
theorem Cycle.exists_backEdge (hcycle : m.Cycle edges) : ∃ edge ∈ edges, edge ∈ m.backEdges := by
  obtain ⟨walk, hwalk, h⟩ := m.exists_walk
  obtain ⟨hne, name, hpath⟩ := hcycle
  have hknown : m.Known name := by
    cases hpath with
    | nil => exact absurd rfl hne
    | cons htarget _ => exact known_of_target? htarget
  by_contra hnone
  have hdirect : ∀ edge ∈ edges, edge ∉ walk.edges := by
    intro edge hmem hedge
    exact hnone ⟨edge, hmem, hwalk ▸ hedge⟩
  exact Nat.lt_irrefl _ ((h.descends hpath hdirect hknown).2 hne)

/-! ## Back edges close cycles -/

theorem Reaches.exists_path {walk : Traversal} (h : m.Reaches walk first last) :
    ∃ edges, m.Path edges first last ∧ ∀ edge ∈ edges, edge ∉ walk.edges := by
  induction h using Relation.ReflTransGen.head_induction_on with
  | refl => exact ⟨[], .nil last, by simp⟩
  | head hstep _ ih =>
    obtain ⟨-, slot, htarget, hdirect⟩ := hstep
    obtain ⟨rest, hpath, hrest⟩ := ih
    refine ⟨⟨_, slot⟩ :: rest, .cons htarget hpath, fun edge hmem ↦ ?_⟩
    rcases List.mem_cons.mp hmem with rfl | hmem
    · exact hdirect
    · exact hrest edge hmem

/-- Every back edge lies on a cycle that has no other. -/
theorem exists_cycle_of_backEdge (h : edge ∈ m.backEdges) :
    ∃ rest, m.Cycle (edge :: rest) ∧ ∀ other ∈ rest, other ∉ m.backEdges := by
  obtain ⟨walk, hwalk, hwalked⟩ := m.exists_walk
  rw [hwalk] at h ⊢
  obtain ⟨-, target, htarget, hreaches⟩ := hwalked.closes edge h
  obtain ⟨rest, hpath, hrest⟩ := hreaches.exists_path
  exact ⟨rest, ⟨List.cons_ne_nil _ _, edge.shape, .cons htarget hpath⟩, hrest⟩

theorem backEdges_nodup (m : Model) : m.backEdges.Nodup := by
  obtain ⟨walk, hwalk, hwalked⟩ := m.exists_walk
  exact hwalk ▸ hwalked.settled.edges_nodup

/-- A back edge is a reference of the model. -/
theorem exists_refAt?_of_backEdge (h : edge ∈ m.backEdges) : ∃ ref, m.refAt? edge = some ref := by
  obtain ⟨walk, hwalk, hwalked⟩ := m.exists_walk
  obtain ⟨-, target, htarget, -⟩ := hwalked.closes edge (hwalk ▸ h)
  obtain ⟨ref, href, -⟩ := Option.map_eq_some_iff.mp htarget
  exact ⟨ref, href⟩

/-! ## The marks -/

/-- Breaking cycles is clearing at all that is listed, and then marking at the back edges. -/
theorem breakCycles_eq_passes (m : Model) :
    m.breakCycles =
      (m.modifyListed (setIndirect false)).modifyEach m.backEdges (setIndirect true) := by
  rw [breakCycles, backEdges_clearIndirect, clearIndirect_eq_modifyListed, modifyEach]

/-- Whatever is written in the two passes, the first writes once at every reference, and the second
once more at the back edges. -/
theorem passes_eq_mapRefs (f g : Reference → Reference) (m : Model) :
    (m.modifyListed f).modifyEach m.backEdges g =
      m.mapRefs fun edge ref ↦ if edge ∈ m.backEdges then g (f ref) else f ref := by
  rw [modifyListed_eq_mapRefs, modifyEach_eq_mapRefs m.backEdges_nodup, mapRefs_mapRefs]

/-- Breaking cycles sets the mark of every reference, by whether its edge is a back edge. -/
theorem breakCycles_eq_mapRefs (m : Model) :
    m.breakCycles = m.mapRefs fun edge ↦ setIndirect (decide (edge ∈ m.backEdges)) := by
  rw [breakCycles_eq_passes, passes_eq_mapRefs]
  refine mapRefs_congr fun edge ref ↦ ?_
  by_cases h : edge ∈ m.backEdges
  · simp [h, setIndirect]
  · simp [h, setIndirect]

/-- The reference at an edge after breaking cycles: as before, but for the mark. -/
theorem refAt?_breakCycles_backEdges (m : Model) (edge : Edge) :
    m.breakCycles.refAt? edge =
      (m.refAt? edge).map (setIndirect (decide (edge ∈ m.backEdges))) := by
  rw [breakCycles_eq_mapRefs, refAt?_mapRefs]

theorem target?_modifyRef_setIndirect (m : Model) (edge : Edge) (indirect : Bool) :
    (m.modifyRef edge (setIndirect indirect)).target? = m.target? := by
  funext other
  unfold target?
  rw [refAt?_modifyRef]
  by_cases h : other = edge
  · rw [if_pos h, Option.map_map]
    rfl
  · rw [if_neg h]

theorem target?_breakCycles (m : Model) : m.breakCycles.target? = m.target? := by
  funext edge
  unfold target?
  rw [refAt?_breakCycles_backEdges, Option.map_map]
  rfl

/-- Marked are the back edges, and nothing else. -/
theorem indirect_breakCycles_iff : m.breakCycles.Indirect edge ↔ edge ∈ m.backEdges := by
  unfold Indirect
  rw [refAt?_breakCycles_backEdges]
  constructor
  · rintro ⟨ref, href, hindirect⟩
    obtain ⟨old, -, rfl⟩ := Option.map_eq_some_iff.mp href
    simpa [setIndirect] using hindirect
  · intro h
    obtain ⟨ref, href⟩ := exists_refAt?_of_backEdge h
    exact ⟨setIndirect true ref, by simp [href, h], rfl⟩

/-- Clearing a mark leaves the other marks. -/
theorem indirect_unmark_iff {edge' : Edge} :
    (other.modifyRef edge (setIndirect false)).Indirect edge' ↔
      edge' ≠ edge ∧ other.Indirect edge' := by
  unfold Indirect
  rw [refAt?_modifyRef]
  by_cases h : edge' = edge
  · simp [h, setIndirect]
  · simp [h]

/-- Breaking cycles marks each back edge, listed once, and changes nothing else; every cycle then
has a marked reference; and every marked reference is the only one on some cycle, so that no mark
can be cleared. -/
theorem breakCycles_marks (m : Model) :
    m.backEdges.Nodup ∧
    (∀ edge, m.breakCycles.refAt? edge =
      (m.refAt? edge).map fun ref ↦ { ref with indirect := decide (edge ∈ m.backEdges) }) ∧
    (∀ edge, m.breakCycles.Indirect edge ↔ edge ∈ m.backEdges) ∧
    (∀ edges, m.breakCycles.Cycle edges → ∃ edge ∈ edges, m.breakCycles.Indirect edge) ∧
    (∀ edge, m.breakCycles.Indirect edge →
      ∃ rest, m.breakCycles.Cycle (edge :: rest) ∧
        (∀ other ∈ rest, ¬ m.breakCycles.Indirect other) ∧
        (m.breakCycles.modifyRef edge (setIndirect false)).Cycle (edge :: rest) ∧
        ∀ other ∈ edge :: rest,
          ¬ (m.breakCycles.modifyRef edge (setIndirect false)).Indirect other) := by
  refine ⟨m.backEdges_nodup, m.refAt?_breakCycles_backEdges,
    fun edge ↦ indirect_breakCycles_iff, ?_, ?_⟩
  · intro edges hcycle
    obtain ⟨edge, hmem, hedge⟩ := (hcycle.congr m.target?_breakCycles).exists_backEdge
    exact ⟨edge, hmem, indirect_breakCycles_iff.mpr hedge⟩
  · intro edge hedge
    obtain ⟨rest, hcycle, hrest⟩ := exists_cycle_of_backEdge (indirect_breakCycles_iff.mp hedge)
    have hbroken : m.breakCycles.Cycle (edge :: rest) := hcycle.congr m.target?_breakCycles.symm
    have hdirect : ∀ other ∈ rest, ¬ m.breakCycles.Indirect other := by
      intro other hmem hother
      exact hrest other hmem (indirect_breakCycles_iff.mp hother)
    refine ⟨rest, hbroken, hdirect,
      hbroken.congr (target?_modifyRef_setIndirect _ edge false).symm, fun other hmem hother ↦ ?_⟩
    obtain ⟨hne, hother⟩ := indirect_unmark_iff.mp hother
    exact hdirect other ((List.mem_cons.mp hmem).resolve_left hne) hother

/-- A back edge has a slot of its shape. -/
theorem slot_of_backEdge (h : edge ∈ m.backEdges) :
    ∃ shape, m.shape? edge.shape = some shape ∧ edge.slot ∈ shape.refs.map Prod.fst := by
  obtain ⟨ref, href⟩ := exists_refAt?_of_backEdge h
  obtain ⟨shape, hshape, href⟩ := Option.bind_eq_some_iff.mp href
  exact ⟨shape, hshape, List.mem_map_of_mem (Shape.mem_refs_iff.mpr href)⟩

/-- The list of references of a shape has exactly the references that stand in it, each under its
own slot, in declaration order.  A slot finds a reference just if it is listed, and then the listed
one; writing there changes that reference and nothing else.  Breaking cycles writes by slots in two
passes; every back edge has a slot, and whatever the passes write (`f`, then `g`), the first writes
once at each reference of the model, and the second once more at each back edge. -/
theorem slots_address_references :
    (∀ shape : Shape,
      (∀ slot ref, (slot, ref) ∈ shape.refs ↔ shape.form.Holds slot ref) ∧
      (shape.refs.map Prod.fst).Nodup ∧ (shape.refs.map Prod.fst).Pairwise Slot.Before ∧
      (∀ slot f, (shape.modifyRef? slot f).isSome ↔ slot ∈ shape.refs.map Prod.fst) ∧
      ∀ slot ref, (slot, ref) ∈ shape.refs → ∀ f, shape.modifyRef? slot f =
        some (shape.mapRefs fun other old ↦ if other = slot then f ref else old)) ∧
    ∀ m : Model,
      m.breakCycles =
        (m.modifyListed (setIndirect false)).modifyEach m.backEdges (setIndirect true) ∧
      (∀ edge ∈ m.backEdges, ∃ shape, m.shape? edge.shape = some shape ∧
        edge.slot ∈ shape.refs.map Prod.fst) ∧
      ∀ f g, (m.modifyListed f).modifyEach m.backEdges g =
        m.mapRefs fun edge ref ↦ if edge ∈ m.backEdges then g (f ref) else f ref := by
  constructor
  · intro shape
    exact ⟨fun slot ref ↦ Shape.mem_refs_iff_holds, shape.refs_nodup, shape.refs_ordered,
      fun slot f ↦ Shape.isSome_modifyRef?_iff f,
      fun slot ref href f ↦ Shape.modifyRef?_of_mem_refs href f⟩
  · intro m
    exact ⟨m.breakCycles_eq_passes, fun edge hedge ↦ slot_of_backEdge hedge,
      fun f g ↦ passes_eq_mapRefs f g m⟩

end WireShapes.Model
