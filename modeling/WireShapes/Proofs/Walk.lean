import Mathlib.Logic.Relation
import WireShapes.Proofs.References

/-!
# The depth-first walk over references

What the walk of `Model.backEdges` keeps true.  Shapes are left behind in an order in which every
reference of a shape leads to one left behind earlier, unless it is a back edge; and whenever a
back edge is met, its target reaches the shape it comes from by references that are not.  Both are
statements about a finished visit (`Visited`), proved from what following one reference preserves
(`Following`).

The marks of an earlier run play no part: the walk of a model with its marks cleared is the walk of
the model.
-/

namespace WireShapes

/-! ## Arrows -/

/-- The references of a shape without their marks. -/
def Shape.arrows (shape : Shape) : List (Slot × String) :=
  shape.refs.map fun ref ↦ (ref.1, ref.2.target)

theorem Shape.arrows_nodup (shape : Shape) : (shape.arrows.map Prod.fst).Nodup := by
  unfold arrows
  rw [List.map_map]
  exact shape.refs_nodup

theorem Shape.arrows_clearShape (shape : Shape) :
    (Model.clearShape shape).arrows = shape.arrows := by
  unfold arrows
  rw [Model.refs_clearShape, List.map_map]
  rfl

namespace Model

/-- Where the reference at an edge leads. -/
def target? (m : Model) (edge : Edge) : Option String :=
  (m.refAt? edge).map Reference.target

/-- A shape of the model. -/
def Known (m : Model) (name : String) : Prop :=
  (m.shape? name).isSome = true

theorem known_iff {m : Model} {name : String} : m.Known name ↔ name ∈ m.shapes.keys :=
  Table.get?_isSome_iff

theorem target?_eq_some_iff {m : Model} {name : String} {shape : Shape}
    (hshape : m.shape? name = some shape) {slot : Slot} {target : String} :
    m.target? ⟨name, slot⟩ = some target ↔ (slot, target) ∈ shape.arrows := by
  unfold target? refAt? Shape.arrows
  simp only [hshape, Option.bind_some, Option.map_eq_some_iff, List.mem_map, Prod.mk.injEq]
  constructor
  · rintro ⟨ref, href, rfl⟩
    exact ⟨(slot, ref), Shape.mem_refs_iff.mpr href, rfl, rfl⟩
  · rintro ⟨⟨slot', ref⟩, hmem, rfl, rfl⟩
    exact ⟨ref, Shape.mem_refs_iff.mp hmem, rfl⟩

theorem explore_unknown {m : Model} {name : String} (h : ¬ m.Known name) (room : Nat)
    (path : List String) (walk : Traversal) : m.explore room path name walk = walk := by
  have hnone : m.shape? name = none := by
    simpa [Known] using h
  cases room <;> simp [explore, hnone]

theorem explore_known {m : Model} {name : String} {shape : Shape}
    (h : m.shape? name = some shape) (room : Nat) (path : List String) (walk : Traversal) :
    m.explore (room + 1) path name walk =
      (shape.arrows.foldl (fun walk arrow ↦
        walk.follow (m.explore room (name :: path)) path name arrow.1 arrow.2)
          walk).finish name := by
  simp [explore, h, Shape.arrows, List.foldl_map]

/-! ## Marks are not seen -/

theorem shape?_clearIndirect (m : Model) (name : String) :
    m.clearIndirect.shape? name = (m.shape? name).map clearShape := by
  unfold shape? clearIndirect
  rw [Table.get?_mapValues]

theorem explore_clearIndirect (m : Model) (room : Nat) :
    m.clearIndirect.explore room = m.explore room := by
  induction room with
  | zero => rfl
  | succ room ih =>
    funext path name walk
    cases h : m.shape? name with
    | none =>
      have hunknown : ¬ m.Known name := by simp [Known, h]
      have hunknown' : ¬ m.clearIndirect.Known name := by simp [Known, shape?_clearIndirect, h]
      rw [explore_unknown hunknown, explore_unknown hunknown']
    | some shape =>
      have hclear : m.clearIndirect.shape? name = some (clearShape shape) := by
        rw [shape?_clearIndirect, h]
        rfl
      rw [explore_known h, explore_known hclear, Shape.arrows_clearShape, ih]

/-- The walk does not see marks. -/
theorem backEdges_clearIndirect (m : Model) : m.clearIndirect.backEdges = m.backEdges := by
  unfold backEdges
  have hkeys : m.clearIndirect.shapes.keys = m.shapes.keys := Table.keys_mapValues _ _
  have hsize : m.clearIndirect.shapes.size = m.shapes.size := by
    calc
      m.clearIndirect.shapes.size = m.clearIndirect.shapes.keys.length :=
        (Table.length_keys _).symm
      _ = m.shapes.keys.length := by rw [hkeys]
      _ = m.shapes.size := Table.length_keys _
  rw [hkeys, hsize, explore_clearIndirect]

end Model

/-! ## What a walk keeps -/

/-- What came of a walk that went on: shapes were left behind, edges were met, and no edge of a
shape left behind before. -/
structure Traversal.Extends (before after : Traversal) : Prop where
  finished : before.finished <:+ after.finished
  edges : before.edges <+: after.edges
  fresh : ∀ edge ∈ after.edges, edge ∉ before.edges → edge.shape ∉ before.finished

namespace Traversal.Extends

theorem refl (walk : Traversal) : Extends walk walk where
  finished := List.suffix_refl _
  edges := List.prefix_refl _
  fresh _ hedge hnew := absurd hedge hnew

theorem trans {a b c : Traversal} (hab : Extends a b) (hbc : Extends b c) : Extends a c where
  finished := hab.finished.trans hbc.finished
  edges := hab.edges.trans hbc.edges
  fresh edge hedge hnew := by
    by_cases h : edge ∈ b.edges
    · exact hab.fresh edge h hnew
    · exact fun hmem ↦ hbc.fresh edge hedge h (hab.finished.subset hmem)

end Traversal.Extends

namespace Model

/-- A reference of a shape left behind that is no back edge. -/
def Direct (m : Model) (walk : Traversal) (a b : String) : Prop :=
  a ∈ walk.finished ∧ ∃ slot, m.target? ⟨a, slot⟩ = some b ∧ (⟨a, slot⟩ : Edge) ∉ walk.edges

/-- One shape leads to another by such references. -/
def Reaches (m : Model) (walk : Traversal) : String → String → Prop :=
  Relation.ReflTransGen (m.Direct walk)

theorem Direct.mono {m : Model} {before after : Traversal} (h : before.Extends after)
    {a b : String} (hdirect : m.Direct before a b) : m.Direct after a b := by
  obtain ⟨hfinished, slot, htarget, hnew⟩ := hdirect
  refine ⟨h.finished.subset hfinished, slot, htarget, fun hedge ↦ ?_⟩
  exact h.fresh ⟨a, slot⟩ hedge hnew hfinished

theorem Reaches.mono {m : Model} {before after : Traversal} (h : before.Extends after)
    {a b : String} (hreaches : m.Reaches before a b) : m.Reaches after a b :=
  Relation.ReflTransGen.mono (fun _ _ hdirect ↦ hdirect.mono h) _ _ hreaches

/-- What is true of a walk between any two steps: every reference of a shape left behind is a back
edge, or leads to a shape left behind earlier. -/
structure Settled (m : Model) (walk : Traversal) : Prop where
  finished_nodup : walk.finished.Nodup
  edges_nodup : walk.edges.Nodup
  known : ∀ name ∈ walk.finished, m.Known name
  ordered : ∀ newer name older, walk.finished = newer ++ name :: older →
    ∀ slot target, m.target? ⟨name, slot⟩ = some target → m.Known target →
      (⟨name, slot⟩ : Edge) ∈ walk.edges ∨ target ∈ older

/-- A back edge met below a shape: that shape leads to it, and its target is an ancestor on the
path or leads to it as well. -/
def Closes (m : Model) (path : List String) (walk : Traversal) (name : String) (edge : Edge) :
    Prop :=
  edge.shape ∈ walk.finished ∧ m.Reaches walk name edge.shape ∧
    ∃ target, m.target? edge = some target ∧ (target ∈ path ∨ m.Reaches walk target edge.shape)

theorem Closes.mono {m : Model} {path : List String} {before after : Traversal}
    (h : before.Extends after) {name : String} {edge : Edge}
    (hcloses : m.Closes path before name edge) : m.Closes path after name edge := by
  obtain ⟨hfinished, hreaches, target, htarget, hback⟩ := hcloses
  exact ⟨h.finished.subset hfinished, hreaches.mono h, target, htarget, hback.imp_right (.mono h)⟩

/-- What a finished visit of a shape has done. -/
structure Visited (m : Model) (path : List String) (name : String) (before after : Traversal) :
    Prop where
  extends_before : before.Extends after
  settled : m.Settled after
  left_behind : name ∈ after.finished
  apart : ∀ ancestor ∈ path, ancestor ∉ after.finished
  closes : ∀ edge ∈ after.edges, edge ∉ before.edges → m.Closes path after name edge

/-- What is true of a visit of a shape after some of its references were followed. -/
structure Following (m : Model) (path : List String) (name : String)
    (followed : List (Slot × String)) (before walk : Traversal) : Prop where
  extends_before : before.Extends walk
  settled : m.Settled walk
  apart : ∀ ancestor ∈ name :: path, ancestor ∉ walk.finished
  answered : ∀ arrow ∈ followed, m.Known arrow.2 →
    (⟨name, arrow.1⟩ : Edge) ∈ walk.edges ∨ arrow.2 ∈ walk.finished
  own : ∀ slot, (⟨name, slot⟩ : Edge) ∈ walk.edges → slot ∈ followed.map Prod.fst
  closes : ∀ edge ∈ walk.edges, edge ∉ before.edges →
    (edge.shape = name ∧ ∃ target, m.target? edge = some target ∧ target ∈ name :: path) ∨
    ∃ arrow ∈ followed, (⟨name, arrow.1⟩ : Edge) ∉ walk.edges ∧
      m.Closes (name :: path) walk arrow.2 edge

/-- What a visit of a shape may rely on: the shape and its ancestors are distinct shapes of the
model, none of them left behind, and edges were met only at the ancestors and behind. -/
structure Ready (m : Model) (path : List String) (name : String) (before : Traversal) : Prop where
  settled : m.Settled before
  path_nodup : (name :: path).Nodup
  path_known : ∀ ancestor ∈ name :: path, m.Known ancestor
  apart : ∀ ancestor ∈ name :: path, ancestor ∉ before.finished
  open_edges : ∀ edge ∈ before.edges, edge.shape ∈ before.finished ∨ edge.shape ∈ path

variable {m : Model} {path : List String} {name : String} {before walk after : Traversal}
  {followed : List (Slot × String)} {slot : Slot} {target : String}

/-! ### Following one reference -/

theorem Ready.following (h : m.Ready path name before) :
    m.Following path name [] before before where
  extends_before := .refl before
  settled := h.settled
  apart := h.apart
  answered := by simp
  own slot hedge := by
    rcases h.open_edges _ hedge with hfinished | hpath
    · exact absurd hfinished (h.apart name List.mem_cons_self)
    · exact absurd hpath (List.nodup_cons.mp h.path_nodup).1
  closes _ hedge hnew := absurd hedge hnew

theorem Following.extends_edge (h : m.Following path name followed before walk) :
    walk.Extends { walk with edges := walk.edges ++ [⟨name, slot⟩] } where
  finished := List.suffix_refl _
  edges := List.prefix_append _ _
  fresh edge hedge hnew := by
    rcases List.mem_append.mp hedge with hedge | hedge
    · exact absurd hedge hnew
    · obtain rfl := List.mem_singleton.mp hedge
      exact h.apart name List.mem_cons_self

/-- A reference to a shape on the path is met as a back edge. -/
theorem Following.back_edge (h : m.Following path name followed before walk)
    (hslot : slot ∉ followed.map Prod.fst) (htarget : m.target? ⟨name, slot⟩ = some target)
    (hpath : target ∈ name :: path) :
    m.Following path name (followed ++ [(slot, target)]) before
      { walk with edges := walk.edges ++ [⟨name, slot⟩] } where
  extends_before := h.extends_before.trans h.extends_edge
  settled := {
    finished_nodup := h.settled.finished_nodup
    edges_nodup := by
      have hnew : (⟨name, slot⟩ : Edge) ∉ walk.edges := by
        intro hedge
        exact hslot (h.own slot hedge)
      exact List.nodup_append.mpr ⟨h.settled.edges_nodup, List.nodup_singleton _,
        fun edge hedge other hother heq ↦ hnew (List.mem_singleton.mp hother ▸ heq ▸ hedge)⟩
    known := h.settled.known
    ordered := fun newer shape older hsplit slot target htarget hknown ↦
      (h.settled.ordered newer shape older hsplit slot target htarget hknown).imp_left
        fun hedge ↦ List.mem_append_left _ hedge }
  apart := h.apart
  answered arrow harrow hknown := by
    rcases List.mem_append.mp harrow with harrow | harrow
    · exact (h.answered arrow harrow hknown).imp_left fun hedge ↦ List.mem_append_left _ hedge
    · obtain rfl := List.mem_singleton.mp harrow
      exact .inl (by simp)
  own other hedge := by
    rcases List.mem_append.mp hedge with hedge | hedge
    · simp [h.own other hedge]
    · simp_all
  closes edge hedge hnew := by
    rcases List.mem_append.mp hedge with hedge | hedge
    · rcases h.closes edge hedge hnew with hself | ⟨arrow, harrow, hdirect, hcloses⟩
      · exact .inl hself
      · refine .inr ⟨arrow, List.mem_append_left _ harrow, fun hmem ↦ ?_,
          hcloses.mono h.extends_edge⟩
        rcases List.mem_append.mp hmem with hmem | hmem
        · exact hdirect hmem
        · have heq : arrow.1 = slot := by simpa using hmem
          exact hslot (heq ▸ List.mem_map_of_mem harrow)
    · obtain rfl := List.mem_singleton.mp hedge
      exact .inl ⟨rfl, target, htarget, hpath⟩

/-- A reference that nothing is done for: its target was left behind, or is no shape. -/
theorem Following.skip (h : m.Following path name followed before walk)
    (hskip : target ∈ walk.finished ∨ ¬ m.Known target) :
    m.Following path name (followed ++ [(slot, target)]) before walk where
  extends_before := h.extends_before
  settled := h.settled
  apart := h.apart
  answered arrow harrow hknown := by
    rcases List.mem_append.mp harrow with harrow | harrow
    · exact h.answered arrow harrow hknown
    · obtain rfl := List.mem_singleton.mp harrow
      exact .inr (hskip.resolve_right (not_not.mpr hknown))
  own other hedge := by simp [h.own other hedge]
  closes edge hedge hnew := by
    rcases h.closes edge hedge hnew with hself | ⟨arrow, harrow, hdirect⟩
    · exact .inl hself
    · exact .inr ⟨arrow, List.mem_append_left _ harrow, hdirect⟩

/-- A visit of a target meets no edge of a shape on the path. -/
theorem Visited.old_edge (h : m.Visited (name :: path) target walk after)
    (hedge : (⟨name, slot⟩ : Edge) ∈ after.edges) : (⟨name, slot⟩ : Edge) ∈ walk.edges := by
  by_contra hnew
  exact h.apart name List.mem_cons_self (h.closes _ hedge hnew).1

/-- A reference to a shape that is visited for it. -/
theorem Following.visit (h : m.Following path name followed before walk)
    (hslot : slot ∉ followed.map Prod.fst) (hvisit : m.Visited (name :: path) target walk after) :
    m.Following path name (followed ++ [(slot, target)]) before after where
  extends_before := h.extends_before.trans hvisit.extends_before
  settled := hvisit.settled
  apart := hvisit.apart
  answered arrow harrow hknown := by
    rcases List.mem_append.mp harrow with harrow | harrow
    · exact (h.answered arrow harrow hknown).imp
        (fun hedge ↦ hvisit.extends_before.edges.subset hedge)
        (fun hfinished ↦ hvisit.extends_before.finished.subset hfinished)
    · obtain rfl := List.mem_singleton.mp harrow
      exact .inr hvisit.left_behind
  own other hedge := by simp [h.own other (hvisit.old_edge hedge)]
  closes edge hedge hnew := by
    by_cases hwalk : edge ∈ walk.edges
    · rcases h.closes edge hwalk hnew with hself | ⟨arrow, harrow, hdirect, hcloses⟩
      · exact .inl hself
      · exact .inr ⟨arrow, List.mem_append_left _ harrow,
          fun hmem ↦ hdirect (hvisit.old_edge hmem), hcloses.mono hvisit.extends_before⟩
    · exact .inr ⟨(slot, target), by simp,
        fun hmem ↦ hslot (h.own slot (hvisit.old_edge hmem)), hvisit.closes edge hedge hwalk⟩

/-- A target that is neither on the path nor left behind can be visited. -/
theorem Following.ready (hready : m.Ready path name before)
    (h : m.Following path name followed before walk) (hpath : target ∉ name :: path)
    (hfinished : target ∉ walk.finished) (hknown : m.Known target) :
    m.Ready (name :: path) target walk where
  settled := h.settled
  path_nodup := List.nodup_cons.mpr ⟨hpath, hready.path_nodup⟩
  path_known ancestor hmem := by
    rcases List.mem_cons.mp hmem with rfl | hmem
    · exact hknown
    · exact hready.path_known ancestor hmem
  apart ancestor hmem := by
    rcases List.mem_cons.mp hmem with rfl | hmem
    · exact hfinished
    · exact h.apart ancestor hmem
  open_edges edge hedge := by
    by_cases hold : edge ∈ before.edges
    · exact (hready.open_edges edge hold).imp
        (fun hmem ↦ h.extends_before.finished.subset hmem)
        (fun hmem ↦ List.mem_cons_of_mem _ hmem)
    · rcases h.closes edge hedge hold with ⟨rfl, -⟩ | ⟨arrow, -, -, hcloses⟩
      · exact .inr List.mem_cons_self
      · exact .inl hcloses.1

/-- Once all references were followed, the shape is left behind and the visit is over. -/
theorem Following.finish {shape : Shape} (hready : m.Ready path name before)
    (hshape : m.shape? name = some shape)
    (h : m.Following path name shape.arrows before walk) :
    m.Visited path name before (walk.finish name) := by
  have hextends : walk.Extends (walk.finish name) := {
    finished := List.suffix_cons _ _
    edges := List.prefix_refl _
    fresh := fun _ hedge hnew ↦ absurd hedge hnew }
  have hname : name ∉ walk.finished := h.apart name List.mem_cons_self
  exact {
    extends_before := h.extends_before.trans hextends
    settled := {
      finished_nodup := List.nodup_cons.mpr ⟨hname, h.settled.finished_nodup⟩
      edges_nodup := h.settled.edges_nodup
      known := by
        intro other hmem
        rcases List.mem_cons.mp hmem with rfl | hmem
        · exact hready.path_known other List.mem_cons_self
        · exact h.settled.known other hmem
      ordered := by
        intro newer other older hsplit slot target htarget hknown
        rcases newer with _ | ⟨first, newer⟩
        · obtain ⟨rfl, rfl⟩ := List.cons.inj hsplit
          exact h.answered (slot, target) ((target?_eq_some_iff hshape).mp htarget) hknown
        · exact h.settled.ordered newer other older (List.cons.inj hsplit).2 slot target htarget
            hknown }
    left_behind := List.mem_cons_self
    apart := by
      intro ancestor hancestor hmem
      rcases List.mem_cons.mp hmem with rfl | hmem
      · exact (List.nodup_cons.mp hready.path_nodup).1 hancestor
      · exact h.apart ancestor (List.mem_cons_of_mem _ hancestor) hmem
    closes := by
      intro edge hedge hnew
      rcases h.closes edge hedge hnew with
        ⟨rfl, target, htarget, hpath⟩ | ⟨arrow, harrow, hdirect, hcloses⟩
      · refine ⟨List.mem_cons_self, .refl, target, htarget, ?_⟩
        rcases List.mem_cons.mp hpath with rfl | hpath
        · exact .inr .refl
        · exact .inl hpath
      · obtain ⟨hfinished, hreaches, target, htarget, hback⟩ := hcloses.mono hextends
        have hstep : m.Direct (walk.finish name) name arrow.2 :=
          ⟨List.mem_cons_self, arrow.1, (target?_eq_some_iff hshape).mpr harrow, hdirect⟩
        have hbelow : m.Reaches (walk.finish name) name edge.shape := .head hstep hreaches
        refine ⟨hfinished, hbelow, target, htarget, ?_⟩
        rcases hback with hpath | hback
        · rcases List.mem_cons.mp hpath with rfl | hpath
          · exact .inr hbelow
          · exact .inl hpath
        · exact .inr hback }

/-! ### A whole visit -/

/-- What holds of the elements passed so far, at the start and after each step, holds of all. -/
theorem foldl_passed {α σ : Type} {step : σ → α → σ} {motive : List α → σ → Prop} (xs : List α)
    {start : σ} (hstart : motive [] start)
    (hstep : ∀ passed x rest s, xs = passed ++ x :: rest → motive passed s →
      motive (passed ++ [x]) (step s x)) : motive xs (xs.foldl step start) := by
  have hrest (rest passed : List α) (s : σ) (hsplit : xs = passed ++ rest)
      (h : motive passed s) : motive xs (rest.foldl step s) := by
    induction rest generalizing passed s with
    | nil => simpa [hsplit] using h
    | cons x rest ih =>
      exact ih (passed ++ [x]) (step s x) (by simp [hsplit]) (hstep passed x rest s hsplit h)
  exact hrest xs [] start rfl hstart

/-- A path of distinct shapes is no longer than the model. -/
theorem Ready.length_lt (h : m.Ready path name before) : path.length < m.shapes.size := by
  have hsubset : (name :: path) ⊆ m.shapes.keys := by
    intro other hmem
    exact known_iff.mp (h.path_known other hmem)
  have hlength := h.path_nodup.length_le_of_subset hsubset
  rw [Table.length_keys, List.length_cons] at hlength
  exact hlength

/-- With room for the shapes that are not on the path, a visit does its work.  The induction is on
the room, and inside it over the references of the shape. -/
theorem explore_visited {room : Nat} (hready : m.Ready path name before)
    (hroom : m.shapes.size ≤ room + path.length) :
    m.Visited path name before (m.explore room path name before) := by
  induction room generalizing path name before with
  | zero =>
    have hlength := hready.length_lt
    omega
  | succ room ih =>
    obtain ⟨shape, hshape⟩ := Option.isSome_iff_exists.mp
      (hready.path_known name List.mem_cons_self)
    rw [explore_known hshape]
    refine Following.finish hready hshape
      (foldl_passed (motive := fun followed walk ↦ m.Following path name followed before walk)
        shape.arrows hready.following ?_)
    intro followed arrow rest walk hsplit h
    obtain ⟨slot, target⟩ := arrow
    have hslot : slot ∉ followed.map Prod.fst := by
      have hnodup := shape.arrows_nodup
      rw [hsplit, List.map_append, List.map_cons] at hnodup
      exact fun hmem ↦ (List.nodup_append.mp hnodup).2.2 slot hmem slot List.mem_cons_self rfl
    have htarget : m.target? ⟨name, slot⟩ = some target :=
      (target?_eq_some_iff hshape).mpr (by simp [hsplit])
    unfold Traversal.follow
    by_cases hpath : target ∈ name :: path
    · rw [if_pos hpath]
      exact h.back_edge hslot htarget hpath
    · rw [if_neg hpath]
      by_cases hfinished : target ∈ walk.finished
      · rw [if_pos hfinished]
        exact h.skip (.inl hfinished)
      · rw [if_neg hfinished]
        by_cases hknown : m.Known target
        · refine h.visit hslot (ih (h.ready hready hpath hfinished hknown) ?_)
          rw [List.length_cons]
          omega
        · rw [explore_unknown hknown]
          exact h.skip (.inr hknown)

/-! ### The walk over a model -/

/-- What is true once some of the model's shapes were started from. -/
structure Walked (m : Model) (started : List String) (walk : Traversal) : Prop where
  settled : m.Settled walk
  left_behind : ∀ name ∈ started, name ∈ walk.finished
  closes : ∀ edge ∈ walk.edges, edge.shape ∈ walk.finished ∧
    ∃ target, m.target? edge = some target ∧ m.Reaches walk target edge.shape

theorem Walked.start {started : List String} (h : m.Walked started walk) (hknown : m.Known name) :
    m.Walked (started ++ [name])
      (if name ∈ walk.finished then walk else m.explore m.shapes.size [] name walk) := by
  by_cases hfinished : name ∈ walk.finished
  · rw [if_pos hfinished]
    refine { h with left_behind := fun other hmem ↦ ?_ }
    rcases List.mem_append.mp hmem with hmem | hmem
    · exact h.left_behind other hmem
    · exact List.mem_singleton.mp hmem ▸ hfinished
  · rw [if_neg hfinished]
    have hready : m.Ready [] name walk := {
      settled := h.settled
      path_nodup := by simp
      path_known := by simpa using hknown
      apart := by simpa using hfinished
      open_edges := fun edge hedge ↦ .inl (h.closes edge hedge).1 }
    have hvisit := explore_visited hready (Nat.le_refl _)
    exact {
      settled := hvisit.settled
      left_behind := by
        intro other hmem
        rcases List.mem_append.mp hmem with hmem | hmem
        · exact hvisit.extends_before.finished.subset (h.left_behind other hmem)
        · exact List.mem_singleton.mp hmem ▸ hvisit.left_behind
      closes := by
        intro edge hedge
        by_cases hold : edge ∈ walk.edges
        · obtain ⟨hshape, target, htarget, hreaches⟩ := h.closes edge hold
          exact ⟨hvisit.extends_before.finished.subset hshape, target, htarget,
            hreaches.mono hvisit.extends_before⟩
        · obtain ⟨hshape, -, target, htarget, hback⟩ := hvisit.closes edge hedge hold
          exact ⟨hshape, target, htarget, hback.resolve_left (by simp)⟩ }

/-- The walk of `backEdges`, from its start to its end. -/
theorem exists_walk (m : Model) :
    ∃ walk, m.backEdges = walk.edges ∧ m.Walked m.shapes.keys walk := by
  refine ⟨_, rfl, foldl_passed (motive := fun started walk ↦ m.Walked started walk)
    m.shapes.keys ?_ ?_⟩
  · exact {
      settled := {
        finished_nodup := by simp
        edges_nodup := by simp
        known := by simp
        ordered := by simp }
      left_behind := by simp
      closes := by simp }
  · intro started name rest walk hsplit h
    exact h.start (known_iff.mpr (by simp [hsplit]))

end Model

end WireShapes
