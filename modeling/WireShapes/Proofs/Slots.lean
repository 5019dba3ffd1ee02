import WireShapes.Model.Cycles

/-!
# Slots and the references they address

The references of a shape are listed with their slots, and a reference is changed by its slot; each
goes through the forms on its own.  `Form.Holds` says which reference stands at which slot of a
form, and `mapRefs` changes all references at once, each by its slot.  The list has exactly the
references that stand in the form, in the order of their slots.  A slot finds a reference just if it
is listed, and then the one that is listed; what is written there changes it and nothing else of the
shape.  Writing at distinct slots, one after the other, comes to one `mapRefs`.

For a model the same is said of the edges of its shapes.
-/

namespace WireShapes

/-- Declaration order: members by their index, a map's key before its value. -/
def Slot.Before : Slot → Slot → Prop
  | .member i, .member j => i < j
  | .key, .value => True
  | _, _ => False

theorem Slot.Before.ne {slot other : Slot} (h : slot.Before other) : slot ≠ other := by
  rintro rfl
  cases slot with
  | member index => exact Nat.lt_irrefl index h
  | item | key | value => exact h

/-! ## Forms -/

namespace Form

/-- The reference stands at the slot. -/
inductive Holds : Form → Slot → Reference → Prop
  | item (item : Item) : Holds (.list item) .item item.target
  | key (key value : Item) : Holds (.map key value) .key key.target
  | value (key value : Item) : Holds (.map key value) .value value.target
  | structMember {members : List Member} {index : Nat} {member : Member}
      (h : members[index]? = some member) : Holds (.struct members) (.member index) member.target
  | unionMember {members : List Member} {index : Nat} {member : Member}
      (h : members[index]? = some member) : Holds (.union members) (.member index) member.target

/-- Changes the reference of a member. -/
def onTarget (f : Reference → Reference) (member : Member) : Member :=
  { member with target := f member.target }

/-- Changes every reference by what its slot says. -/
def mapRefs (f : Slot → Reference → Reference) : Form → Form
  | .scalar kind => .scalar kind
  | .list item => .list (onItem (f .item) item)
  | .map key value => .map (onItem (f .key) key) (onItem (f .value) value)
  | .struct members => .struct (members.mapIdx fun index ↦ onTarget (f (.member index)))
  | .union members => .union (members.mapIdx fun index ↦ onTarget (f (.member index)))
  | .enum values => .enum values

variable {form : Form} {slot : Slot} {ref other : Reference} {f g : Slot → Reference → Reference}

/-- No slot holds two references. -/
theorem Holds.unique (h : form.Holds slot ref) (hother : form.Holds slot other) : ref = other := by
  cases h with
  | item item | key key value | value key value =>
    cases hother
    rfl
  | structMember h =>
    cases hother with
    | structMember hother => rw [Option.some.inj (h.symm.trans hother)]
  | unionMember h =>
    cases hother with
    | unionMember hother => rw [Option.some.inj (h.symm.trans hother)]

/-! ### All references at once -/

theorem mapIdx_onTarget_id (members : List Member) :
    (members.mapIdx fun _ ↦ onTarget fun ref ↦ ref) = members := by
  rw [List.mapIdx_eq_iff]
  intro index
  cases members[index]? <;> rfl

theorem mapIdx_onTarget_congr {members : List Member} {f g : Nat → Reference → Reference}
    (h : ∀ index member, members[index]? = some member →
      f index member.target = g index member.target) :
    (members.mapIdx fun index ↦ onTarget (f index)) =
      members.mapIdx fun index ↦ onTarget (g index) := by
  rw [List.mapIdx_eq_mapIdx_iff]
  intro index hindex
  rw [onTarget, h index _ (List.getElem?_eq_getElem hindex), onTarget]

/-- Only references that stand in the form count. -/
theorem mapRefs_congr (h : ∀ slot ref, form.Holds slot ref → f slot ref = g slot ref) :
    form.mapRefs f = form.mapRefs g := by
  cases form with
  | scalar kind | enum values => rfl
  | list item => rw [mapRefs, onItem, h _ _ (.item item), mapRefs, onItem]
  | map key value =>
    rw [mapRefs, onItem, onItem, h _ _ (.key key value), h _ _ (.value key value), mapRefs, onItem,
      onItem]
  | struct members =>
    exact congrArg struct (mapIdx_onTarget_congr fun _ _ hmember ↦ h _ _ (.structMember hmember))
  | union members =>
    exact congrArg union (mapIdx_onTarget_congr fun _ _ hmember ↦ h _ _ (.unionMember hmember))

theorem mapRefs_id (form : Form) : (form.mapRefs fun _ ref ↦ ref) = form := by
  cases form with
  | scalar kind | enum values | list item | map key value => rfl
  | struct members | union members => rw [mapRefs, mapIdx_onTarget_id]

theorem mapRefs_mapRefs (form : Form) :
    (form.mapRefs f).mapRefs g = form.mapRefs fun slot ref ↦ g slot (f slot ref) := by
  cases form with
  | scalar kind | enum values | list item | map key value => rfl
  | struct members | union members =>
    rw [mapRefs, mapRefs, mapRefs, List.mapIdx_mapIdx]
    rfl

/-! ### One reference -/

theorem onMember?_eq_mapIdx (f : Reference → Reference) {members : List Member} {index : Nat}
    {member : Member} (h : members[index]? = some member) :
    onMember? f members index = some (members.mapIdx fun i ↦
      onTarget fun old ↦ if i = index then f member.target else old) := by
  induction members generalizing index with
  | nil => cases h
  | cons first rest ih =>
    rw [List.mapIdx_cons]
    cases index with
    | zero =>
      obtain rfl : first = member := Option.some.inj h
      simp [onMember?, onTarget, mapIdx_onTarget_id]
    | succ index =>
      rw [onMember?, ih h]
      simp [onTarget]

theorem exists_getElem?_of_onMember? {f : Reference → Reference} {members changed : List Member}
    {index : Nat} (h : onMember? f members index = some changed) :
    ∃ member, members[index]? = some member := by
  induction members generalizing index changed with
  | nil => cases h
  | cons first rest ih =>
    cases index with
    | zero => exact ⟨first, rfl⟩
    | succ index =>
      obtain ⟨tail, htail, -⟩ := Option.map_eq_some_iff.mp h
      exact ih htail

/-- Nothing is found but what stands there. -/
theorem exists_holds_of_modifyRef? {f : Reference → Reference} {changed : Form}
    (h : form.modifyRef? slot f = some changed) : ∃ ref, form.Holds slot ref := by
  unfold Form.modifyRef? at h
  split at h
  · obtain ⟨tail, htail, -⟩ := Option.map_eq_some_iff.mp h
    obtain ⟨member, hmember⟩ := exists_getElem?_of_onMember? htail
    exact ⟨_, .structMember hmember⟩
  · obtain ⟨tail, htail, -⟩ := Option.map_eq_some_iff.mp h
    obtain ⟨member, hmember⟩ := exists_getElem?_of_onMember? htail
    exact ⟨_, .unionMember hmember⟩
  · exact ⟨_, .item _⟩
  · exact ⟨_, .key _ _⟩
  · exact ⟨_, .value _ _⟩
  · cases h

/-- A slot finds the reference that stands there, and writing changes that one alone. -/
theorem Holds.modifyRef? (h : form.Holds slot ref) (f : Reference → Reference) :
    form.modifyRef? slot f =
      some (form.mapRefs fun other old ↦ if other = slot then f ref else old) := by
  cases h with
  | item item | key key value | value key value => rfl
  | structMember h =>
    rw [Form.modifyRef?, onMember?_eq_mapIdx f h]
    simp [mapRefs]
  | unionMember h =>
    rw [Form.modifyRef?, onMember?_eq_mapIdx f h]
    simp [mapRefs]

end Form

/-! ## Shapes -/

namespace Shape

variable {shape : Shape} {slot : Slot} {slots : List Slot} {ref : Reference}
  {f g : Slot → Reference → Reference}

/-- Changes every reference by what its slot says. -/
def mapRefs (f : Slot → Reference → Reference) (shape : Shape) : Shape :=
  { shape with form := shape.form.mapRefs f }

/-- Changes the references at slots, one after the other. -/
def modifyEach (slots : List Slot) (f : Reference → Reference) (shape : Shape) : Shape :=
  slots.foldl (fun shape slot ↦ (shape.modifyRef? slot f).getD shape) shape

theorem memberRefs_eq_mapIdx (index : Nat) (members : List Member) :
    memberRefs index members =
      members.mapIdx fun i member ↦ (.member (index + i), member.target) := by
  induction members generalizing index with
  | nil => rfl
  | cons member rest ih =>
    rw [memberRefs, ih, List.mapIdx_cons]
    simp only [Nat.add_zero, Nat.add_assoc, Nat.add_comm 1]

theorem mem_memberRefs_iff {members : List Member} :
    (slot, ref) ∈ memberRefs 0 members ↔
      ∃ index member, members[index]? = some member ∧ slot = .member index ∧
        ref = member.target := by
  rw [memberRefs_eq_mapIdx, List.mem_mapIdx]
  simp only [Nat.zero_add, Prod.mk.injEq, List.getElem?_eq_some_iff]
  constructor
  · rintro ⟨index, hindex, rfl, rfl⟩
    exact ⟨index, _, ⟨hindex, rfl⟩, rfl, rfl⟩
  · rintro ⟨index, _, ⟨hindex, rfl⟩, rfl, rfl⟩
    exact ⟨index, hindex, rfl, rfl⟩

/-- What is listed is what stands in the form. -/
theorem mem_refs_iff_holds : (slot, ref) ∈ shape.refs ↔ shape.form.Holds slot ref := by
  unfold refs
  cases shape.form with
  | scalar kind | enum values => exact ⟨(nomatch ·), (nomatch ·)⟩
  | list item =>
    constructor
    · intro h
      obtain ⟨rfl, rfl⟩ := Prod.mk.inj (List.mem_singleton.mp h)
      exact .item item
    · intro h
      cases h with
      | item item => exact List.mem_singleton_self _
  | map key value =>
    constructor
    · intro h
      rcases List.mem_cons.mp h with h | h
      · obtain ⟨rfl, rfl⟩ := Prod.mk.inj h
        exact .key key value
      · obtain ⟨rfl, rfl⟩ := Prod.mk.inj (List.mem_singleton.mp h)
        exact .value key value
    · intro h
      cases h with
      | key key value => exact List.mem_cons_self
      | value key value => exact List.mem_cons_of_mem _ (List.mem_singleton_self _)
  | struct members =>
    rw [mem_memberRefs_iff]
    constructor
    · rintro ⟨index, member, hmember, rfl, rfl⟩
      exact .structMember hmember
    · intro h
      cases h with
      | structMember hmember => exact ⟨_, _, hmember, rfl, rfl⟩
  | union members =>
    rw [mem_memberRefs_iff]
    constructor
    · rintro ⟨index, member, hmember, rfl, rfl⟩
      exact .unionMember hmember
    · intro h
      cases h with
      | unionMember hmember => exact ⟨_, _, hmember, rfl, rfl⟩

theorem le_of_mem_memberRefs {index : Nat} {members : List Member} {ref : Slot × Reference}
    (h : ref ∈ memberRefs index members) : ∃ i, index ≤ i ∧ ref.1 = .member i := by
  rw [memberRefs_eq_mapIdx, List.mem_mapIdx] at h
  obtain ⟨i, -, rfl⟩ := h
  exact ⟨index + i, Nat.le_add_right _ _, rfl⟩

theorem memberRefs_ordered (index : Nat) (members : List Member) :
    ((memberRefs index members).map Prod.fst).Pairwise Slot.Before := by
  induction members generalizing index with
  | nil => exact .nil
  | cons member rest ih =>
    refine List.pairwise_cons.mpr ⟨fun slot hslot ↦ ?_, ih (index + 1)⟩
    obtain ⟨ref, href, rfl⟩ := List.mem_map.mp hslot
    obtain ⟨i, hi, hslot⟩ := le_of_mem_memberRefs href
    rw [hslot]
    exact hi

/-- The references are listed in declaration order. -/
theorem refs_ordered (shape : Shape) : (shape.refs.map Prod.fst).Pairwise Slot.Before := by
  unfold refs
  split
  · exact .nil
  · exact .nil
  · exact List.pairwise_singleton _ _
  · simp [Slot.Before]
  · exact memberRefs_ordered 0 _
  · exact memberRefs_ordered 0 _

/-- No slot occurs twice among the references of a shape. -/
theorem refs_nodup (shape : Shape) : (shape.refs.map Prod.fst).Nodup :=
  shape.refs_ordered.imp Slot.Before.ne

/-- A slot finds a reference just if it is listed. -/
theorem isSome_modifyRef?_iff (f : Reference → Reference) :
    (shape.modifyRef? slot f).isSome ↔ slot ∈ shape.refs.map Prod.fst := by
  rw [modifyRef?, Option.isSome_map]
  constructor
  · intro h
    obtain ⟨changed, hchanged⟩ := Option.isSome_iff_exists.mp h
    obtain ⟨ref, href⟩ := Form.exists_holds_of_modifyRef? hchanged
    exact List.mem_map_of_mem (mem_refs_iff_holds.mpr href)
  · intro h
    obtain ⟨⟨_, ref⟩, href, rfl⟩ := List.mem_map.mp h
    rw [(mem_refs_iff_holds.mp href).modifyRef? f]
    rfl

/-- Past the last member, and in a form of another kind, nothing is found. -/
example :
    let pair : Shape := { name := "Pair", form := .struct [{ name := "left", target := .to "A" }] }
    (pair.modifyRef? (.member 0) id).isSome ∧ pair.modifyRef? (.member 1) id = none ∧
      pair.modifyRef? .item id = none := by
  decide

/-- What a slot finds is the reference that is listed there, and writing changes that one alone. -/
theorem modifyRef?_of_mem_refs (h : (slot, ref) ∈ shape.refs) (f : Reference → Reference) :
    shape.modifyRef? slot f =
      some (shape.mapRefs fun other old ↦ if other = slot then f ref else old) := by
  rw [modifyRef?, (mem_refs_iff_holds.mp h).modifyRef? f]
  rfl

theorem refs_mapRefs (f : Slot → Reference → Reference) (shape : Shape) :
    (shape.mapRefs f).refs = shape.refs.map fun ref ↦ (ref.1, f ref.1 ref.2) := by
  unfold mapRefs refs Form.mapRefs
  cases shape.form with
  | scalar kind | enum values | list item | map key value => rfl
  | struct members | union members =>
    simp only [memberRefs_eq_mapIdx, Nat.zero_add]
    refine List.ext_getElem? fun index ↦ ?_
    simp only [List.getElem?_map, List.getElem?_mapIdx]
    cases members[index]? <;> rfl

theorem mapRefs_congr (h : ∀ slot ref, (slot, ref) ∈ shape.refs → f slot ref = g slot ref) :
    shape.mapRefs f = shape.mapRefs g := by
  rw [mapRefs, Form.mapRefs_congr fun slot ref hheld ↦ h slot ref (mem_refs_iff_holds.mpr hheld),
    mapRefs]

theorem mapRefs_id (shape : Shape) : (shape.mapRefs fun _ ref ↦ ref) = shape := by
  rw [mapRefs, Form.mapRefs_id]

theorem mapRefs_mapRefs (shape : Shape) :
    (shape.mapRefs f).mapRefs g = shape.mapRefs fun slot ref ↦ g slot (f slot ref) := by
  rw [mapRefs, mapRefs, Form.mapRefs_mapRefs, mapRefs]

/-- Writing at a slot that finds nothing changes nothing. -/
theorem getD_modifyRef? (shape : Shape) (slot : Slot) (f : Reference → Reference) :
    (shape.modifyRef? slot f).getD shape =
      shape.mapRefs fun other old ↦ if other = slot then f old else old := by
  by_cases hslot : slot ∈ shape.refs.map Prod.fst
  · obtain ⟨⟨_, ref⟩, href, rfl⟩ := List.mem_map.mp hslot
    rw [modifyRef?_of_mem_refs href, Option.getD_some]
    refine mapRefs_congr fun other old hold ↦ ?_
    split
    next heq =>
      subst heq
      rw [(mem_refs_iff_holds.mp hold).unique (mem_refs_iff_holds.mp href)]
    next => rfl
  · have hnone : shape.modifyRef? slot f = none :=
      Option.not_isSome_iff_eq_none.mp (mt (isSome_modifyRef?_iff f).mp hslot)
    rw [hnone, Option.getD_none]
    refine (mapRefs_id shape).symm.trans (mapRefs_congr fun other old hold ↦ ?_)
    rw [if_neg]
    rintro rfl
    exact hslot (List.mem_map_of_mem hold)

/-- Writing at distinct slots writes once at each. -/
theorem modifyEach_eq_mapRefs (hslots : slots.Nodup) (f : Reference → Reference) (shape : Shape) :
    shape.modifyEach slots f =
      shape.mapRefs fun slot ref ↦ if slot ∈ slots then f ref else ref := by
  induction slots generalizing shape with
  | nil =>
    simp only [List.not_mem_nil, if_false, mapRefs_id]
    rfl
  | cons first rest ih =>
    obtain ⟨hfresh, hrest⟩ := List.nodup_cons.mp hslots
    rw [modifyEach, List.foldl_cons, ← modifyEach, ih hrest, getD_modifyRef?, mapRefs_mapRefs]
    refine mapRefs_congr fun slot ref _ ↦ ?_
    by_cases hfirst : slot = first
    · subst hfirst
      simp [hfresh]
    · simp [hfirst]

/-- Writing at every slot that is listed writes once at every reference. -/
theorem modifyEach_refs (f : Reference → Reference) (shape : Shape) :
    shape.modifyEach (shape.refs.map Prod.fst) f = shape.mapRefs fun _ ↦ f := by
  rw [modifyEach_eq_mapRefs shape.refs_nodup]
  exact mapRefs_congr fun slot ref href ↦ if_pos (List.mem_map_of_mem href)

end Shape

/-! ## Models -/

namespace Model

variable {m : Model} {edge : Edge} {edges : List Edge} {f g : Edge → Reference → Reference}

/-- Changes every reference by what its edge says. -/
def mapRefs (f : Edge → Reference → Reference) (m : Model) : Model :=
  { m with shapes := ⟨m.shapes.entries.map fun entry ↦
      (entry.1, entry.2.mapRefs fun slot ↦ f ⟨entry.1, slot⟩)⟩ }

/-- Goes through all shapes and writes at every slot that is listed, as clearing does. -/
def modifyListed (f : Reference → Reference) (m : Model) : Model :=
  { m with shapes := m.shapes.mapValues fun shape ↦
      shape.modifyEach (shape.refs.map Prod.fst) f }

/-- Writes at edges, one after the other, as marking does. -/
def modifyEach (edges : List Edge) (f : Reference → Reference) (m : Model) : Model :=
  edges.foldl (fun m edge ↦ m.modifyRef edge f) m

theorem mapRefs_congr (h : ∀ edge ref, f edge ref = g edge ref) : m.mapRefs f = m.mapRefs g := by
  rw [funext fun edge ↦ funext (h edge)]

theorem mapRefs_id (m : Model) : (m.mapRefs fun _ ref ↦ ref) = m := by
  simp [mapRefs, Shape.mapRefs_id]

theorem mapRefs_mapRefs (m : Model) :
    (m.mapRefs f).mapRefs g = m.mapRefs fun edge ref ↦ g edge (f edge ref) := by
  simp [mapRefs, Shape.mapRefs_mapRefs, Function.comp_def]

theorem modifyRef_eq_mapRefs (m : Model) (edge : Edge) (f : Reference → Reference) :
    m.modifyRef edge f = m.mapRefs fun other ref ↦ if other = edge then f ref else ref := by
  obtain ⟨name, slot⟩ := edge
  unfold modifyRef Table.update mapRefs
  congr 2
  refine List.map_congr_left fun entry _ ↦ ?_
  by_cases hname : entry.1 = name
  · simp [hname, Shape.getD_modifyRef?]
  · simp [hname, Shape.mapRefs_id]

/-- Writing at distinct edges writes once at each. -/
theorem modifyEach_eq_mapRefs (hedges : edges.Nodup) (f : Reference → Reference) (m : Model) :
    m.modifyEach edges f = m.mapRefs fun edge ref ↦ if edge ∈ edges then f ref else ref := by
  induction edges generalizing m with
  | nil =>
    simp only [List.not_mem_nil, if_false, mapRefs_id]
    rfl
  | cons first rest ih =>
    obtain ⟨hfresh, hrest⟩ := List.nodup_cons.mp hedges
    rw [modifyEach, List.foldl_cons, ← modifyEach, ih hrest, modifyRef_eq_mapRefs, mapRefs_mapRefs]
    refine mapRefs_congr fun edge ref ↦ ?_
    by_cases hfirst : edge = first
    · subst hfirst
      simp [hfresh]
    · simp [hfirst]

/-- Writing at all that is listed writes once at every reference. -/
theorem modifyListed_eq_mapRefs (f : Reference → Reference) (m : Model) :
    m.modifyListed f = m.mapRefs fun _ ↦ f := by
  simp [modifyListed, mapRefs, Table.mapValues, Shape.modifyEach_refs]

theorem clearShape_eq_modifyEach (shape : Shape) :
    clearShape shape = shape.modifyEach (shape.refs.map Prod.fst) (setIndirect false) := by
  rw [clearShape, Shape.modifyEach, List.foldl_map]

theorem clearIndirect_eq_modifyListed (m : Model) :
    m.clearIndirect = m.modifyListed (setIndirect false) := by
  rw [clearIndirect, modifyListed, funext clearShape_eq_modifyEach]

end Model

end WireShapes
