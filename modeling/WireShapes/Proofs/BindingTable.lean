import WireShapes.Model.Binding
import WireShapes.Proofs.Failing
import WireShapes.Proofs.Table

/-!
# Tables of bindings

What a table holds once a model is resolved: every entry is the binding of a member or the names
inside a collection, and every member and every collection has an entry.  Resolution takes one
shape after the other, adds entries for it, and takes none away.

Entries are found by the names of shapes and members, so that of two members with one name only the
later one is found.
-/

namespace WireShapes.BindingMap

open Failing

/-- Every entry is the binding of a member, or the names inside a collection. -/
structure Sound (m : Model) (defaults : Defaults) (t : BindingMap) : Prop where
  members : ∀ owner name binding, t.member? owner name = some binding →
    ∃ shape ∈ m.shapes.values, ∃ member ∈ shape.members,
      shape.name = owner ∧ member.name = name ∧ m.bind shape member defaults = .ok binding
  collections : ∀ name names, t.collection? name = some names →
    ∃ shape ∈ m.shapes.values, shape.name = name ∧ shape.innerNames? defaults = some names

/-- What one table has entries for, another has too. -/
structure Within (before after : BindingMap) : Prop where
  members : ∀ owner name, (before.member? owner name).isSome → (after.member? owner name).isSome
  collections : ∀ name, (before.collection? name).isSome → (after.collection? name).isSome

/-- A table has entries for the members of a shape, and for the names inside it. -/
structure Covers (t : BindingMap) (defaults : Defaults) (shape : Shape) : Prop where
  members : ∀ member ∈ shape.members, (t.member? shape.name member.name).isSome
  collections : (shape.innerNames? defaults).isSome → (t.collection? shape.name).isSome

theorem Within.refl (t : BindingMap) : t.Within t where
  members _ _ h := h
  collections _ h := h

theorem Within.trans {a b c : BindingMap} (hab : a.Within b) (hbc : b.Within c) : a.Within c where
  members owner name h := hbc.members owner name (hab.members owner name h)
  collections name h := hbc.collections name (hab.collections name h)

theorem Covers.mono {before after : BindingMap} {defaults : Defaults} {shape : Shape}
    (hwithin : before.Within after) (h : before.Covers defaults shape) :
    after.Covers defaults shape where
  members member hmember := hwithin.members _ _ (h.members member hmember)
  collections hnames := hwithin.collections _ (h.collections hnames)

/-! ## One entry more -/

/-- A table with one more binding of a member. -/
def withMember (t : BindingMap) (owner name : String) (binding : Binding) : BindingMap :=
  { t with members := t.members.insert (owner, name) binding }

/-- A table with the names inside one more collection. -/
def withCollection (t : BindingMap) (name : String) (names : InnerNames) : BindingMap :=
  { t with collections := t.collections.insert name names }

section

variable {m : Model} {defaults : Defaults} {t : BindingMap} {shape : Shape} {member : Member}
  {binding : Binding} {names : InnerNames}

theorem member?_withMember (t : BindingMap) (owner name owner' name' : String)
    (binding : Binding) :
    (t.withMember owner name binding).member? owner' name' =
      if (owner', name') = (owner, name) then some binding else t.member? owner' name' :=
  Table.get?_insert t.members (owner, name) binding (owner', name')

theorem collection?_withCollection (t : BindingMap) (name name' : String) (names : InnerNames) :
    (t.withCollection name names).collection? name' =
      if name' = name then some names else t.collection? name' :=
  Table.get?_insert t.collections name names name'

theorem within_withMember (t : BindingMap) (owner name : String) (binding : Binding) :
    t.Within (t.withMember owner name binding) where
  members owner' name' h := by
    rw [member?_withMember]
    split
    · rfl
    · exact h
  collections _ h := h

theorem within_withCollection (t : BindingMap) (name : String) (names : InnerNames) :
    t.Within (t.withCollection name names) where
  members _ _ h := h
  collections name' h := by
    rw [collection?_withCollection]
    split
    · rfl
    · exact h

theorem Sound.withMember (h : t.Sound m defaults) (hshape : shape ∈ m.shapes.values)
    (hmember : member ∈ shape.members) (hbind : m.bind shape member defaults = .ok binding) :
    (t.withMember shape.name member.name binding).Sound m defaults where
  members owner name found hfound := by
    rw [member?_withMember] at hfound
    split at hfound
    · rename_i hkey
      obtain ⟨rfl, rfl⟩ := Prod.mk.inj hkey
      obtain rfl := Option.some.inj hfound
      exact ⟨shape, hshape, member, hmember, rfl, rfl, hbind⟩
    · exact h.members owner name found hfound
  collections := h.collections

theorem Sound.withCollection (h : t.Sound m defaults) (hshape : shape ∈ m.shapes.values)
    (hnames : shape.innerNames? defaults = some names) :
    (t.withCollection shape.name names).Sound m defaults where
  members := h.members
  collections name found hfound := by
    rw [collection?_withCollection] at hfound
    split at hfound
    · rename_i hkey
      obtain rfl := Option.some.inj hfound
      exact ⟨shape, hshape, hkey.symm, hnames⟩
    · exact h.collections name found hfound

end

/-! ## One shape more -/

/-- What adding a shape does to a table. -/
structure Adds (m : Model) (defaults : Defaults) (shape : Shape) (before after : BindingMap) :
    Prop where
  within : before.Within after
  sound : before.Sound m defaults → after.Sound m defaults
  covers : after.Covers defaults shape

variable {m : Model} {defaults : Defaults} {shape : Shape} {before after : BindingMap}

/-- Members are added one by one. -/
theorem addMembers_adds {seen : List (Member × Binding)} {members : List Member}
    (hshape : shape ∈ m.shapes.values) (hsub : ∀ member ∈ members, member ∈ shape.members)
    (h : addMembers m shape defaults seen before members = .ok after) :
    before.Within after ∧ (before.Sound m defaults → after.Sound m defaults) ∧
      ∀ member ∈ members, (after.member? shape.name member.name).isSome := by
  induction members generalizing seen before with
  | nil =>
    obtain rfl : before = after := Except.ok.inj h
    exact ⟨.refl before, id, by simp⟩
  | cons member rest ih =>
    obtain ⟨binding, hbind, h⟩ := bind_eq_ok.mp h
    split at h
    · simp at h
    · obtain ⟨hwithin, hsound, hrest⟩ :=
        ih (fun other hother ↦ hsub other (List.mem_cons_of_mem _ hother)) h
      have hadded := within_withMember before shape.name member.name binding
      refine ⟨hadded.trans hwithin, fun hbefore ↦ hsound ?_, ?_⟩
      · exact hbefore.withMember hshape (hsub member List.mem_cons_self) hbind
      · intro other hother
        rcases List.mem_cons.mp hother with rfl | hother
        · apply hwithin.members
          have hfound := member?_withMember before shape.name other.name shape.name other.name
            binding
          exact Option.isSome_of_eq_some (hfound.trans (if_pos rfl))
        · exact hrest other hother

/-- The names inside a collection are added as one. -/
theorem withCollection_adds (hshape : shape ∈ m.shapes.values) (hmembers : shape.members = [])
    {names : InnerNames} (hnames : shape.innerNames? defaults = some names) :
    Adds m defaults shape before (before.withCollection shape.name names) where
  within := within_withCollection before shape.name names
  sound hbefore := hbefore.withCollection hshape hnames
  covers := {
    members := by simp [hmembers]
    collections := by simp [collection?_withCollection] }

/-- A shape without members or names inside it adds nothing. -/
theorem nothing_adds (hmembers : shape.members = []) (hnames : shape.innerNames? defaults = none) :
    Adds m defaults shape before before where
  within := .refl before
  sound := id
  covers := {
    members := by simp [hmembers]
    collections := by simp [hnames] }

theorem addShape_adds (hshape : shape ∈ m.shapes.values)
    (h : addShape m defaults before shape = .ok after) : Adds m defaults shape before after := by
  have hstruct {members : List Member} (hmembers : shape.members = members)
      (hnames : shape.innerNames? defaults = none)
      (h : addMembers m shape defaults [] before members = .ok after) :
      Adds m defaults shape before after := by
    obtain ⟨hwithin, hsound, hcovers⟩ :=
      addMembers_adds hshape (fun member hmember ↦ hmembers ▸ hmember) h
    exact {
      within := hwithin
      sound := hsound
      covers := {
        members := fun member hmember ↦ hcovers member (hmembers ▸ hmember)
        collections := by simp [hnames] } }
  unfold addShape at h
  split at h <;> rename_i hform
  · exact hstruct (by simp [Shape.members, hform]) (by simp [Shape.innerNames?, hform]) h
  · exact hstruct (by simp [Shape.members, hform]) (by simp [Shape.innerNames?, hform]) h
  · have hmembers : shape.members = [] := by simp [Shape.members, hform]
    unfold addMap at h
    split at h
    · simp at h
    · split at h
      · rename_i hnames
        split at h
        · simp at h
        · exact Except.ok.inj h ▸ withCollection_adds hshape hmembers hnames
      · rename_i hnames
        simp [Shape.innerNames?, hform] at hnames
  · have hmembers : shape.members = [] := by simp [Shape.members, hform]
    split at h
    · rename_i hnames
      exact Except.ok.inj h ▸ withCollection_adds hshape hmembers hnames
    · rename_i hnames
      exact Except.ok.inj h ▸ nothing_adds hmembers hnames
  · exact Except.ok.inj h ▸
      nothing_adds (by simp [Shape.members, hform]) (by simp [Shape.innerNames?, hform])
  · exact Except.ok.inj h ▸
      nothing_adds (by simp [Shape.members, hform]) (by simp [Shape.innerNames?, hform])

/-! ## All shapes -/

theorem foldlM_adds {shapes : List Shape} (hsub : ∀ shape ∈ shapes, shape ∈ m.shapes.values)
    (h : shapes.foldlM (addShape m defaults) before = .ok after) :
    before.Within after ∧ (before.Sound m defaults → after.Sound m defaults) ∧
      ∀ shape ∈ shapes, after.Covers defaults shape := by
  induction shapes generalizing before with
  | nil =>
    obtain rfl : before = after := Except.ok.inj h
    exact ⟨.refl before, id, by simp⟩
  | cons shape rest ih =>
    rw [List.foldlM_cons] at h
    obtain ⟨next, hfirst, hrest⟩ := bind_eq_ok.mp h
    have hadds := addShape_adds (hsub shape List.mem_cons_self) hfirst
    obtain ⟨hwithin, hsound, hcovers⟩ :=
      ih (fun other hother ↦ hsub other (List.mem_cons_of_mem _ hother)) hrest
    refine ⟨hadds.within.trans hwithin, fun hbefore ↦ hsound (hadds.sound hbefore), ?_⟩
    intro other hother
    rcases List.mem_cons.mp hother with rfl | hother
    · exact hadds.covers.mono hwithin
    · exact hcovers other hother

/-- A resolved table holds the bindings of the members and the names inside the collections of the
model, and nothing else. -/
theorem ofModel_holds (h : ofModel m defaults = .ok after) :
    after.Sound m defaults ∧ ∀ shape ∈ m.shapes.values, after.Covers defaults shape := by
  obtain ⟨-, hsound, hcovers⟩ := foldlM_adds (fun _ hshape ↦ hshape) h
  have hempty : empty.Sound m defaults := {
    members := by
      intro owner name binding hfound
      simp [empty, member?, Table.get?, Table.empty] at hfound
    collections := by
      intro name names hfound
      simp [empty, collection?, Table.get?, Table.empty] at hfound }
  exact ⟨hsound hempty, hcovers⟩

end WireShapes.BindingMap
