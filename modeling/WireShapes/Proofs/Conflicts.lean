import WireShapes.Proofs.Merging

/-!
# Where a merge stops

A merge shares what stands under a name of the prelude and is the same in both models, and it stops
at the first entry that has another name in common with the model.  The names are compared with
those of a model that grows on the way; but what was put into it has other names than what is still
to come, so that the conflicts are those with the model as it was.  Whether there is one does not
depend on which of two models is merged into the other.
-/

namespace WireShapes.Model

variable {a b m : Model} {entry : String × Shape} {entries before after : List (String × Shape)}

/-- The entry is one of the prelude's, and the model has the same. -/
def Shares (m : Model) (entry : String × Shape) : Prop :=
  inPrelude entry.1 = true ∧ m.shape? entry.1 = some entry.2

instance (m : Model) : DecidablePred m.Shares := fun _ ↦ inferInstanceAs (Decidable (_ ∧ _))

/-- The model has a shape of that name, and does not share it. -/
def Conflicts (m : Model) (entry : String × Shape) : Prop :=
  entry.1 ∈ m.shapes.keys ∧ ¬ m.Shares entry

instance (m : Model) : DecidablePred m.Conflicts := fun _ ↦ inferInstanceAs (Decidable (_ ∧ _))

/-- The shapes of a model with entries behind them, but for those that it shares. -/
def followedBy (m : Model) (entries : List (String × Shape)) : Table String Shape :=
  ⟨m.shapes.entries ++ entries.filter fun entry ↦ ¬ m.Shares entry⟩

theorem not_conflicts_iff : ¬ m.Conflicts entry ↔ m.shape? entry.1 = none ∨ m.Shares entry := by
  have hname : entry.1 ∈ m.shapes.keys ↔ m.shape? entry.1 ≠ none :=
    Table.get?_isSome_iff.symm.trans Option.isSome_iff_ne_none
  unfold Conflicts
  rw [hname]
  tauto

/-! ## One after the other -/

/-- What comes behind entries that are absorbed is absorbed after them. -/
theorem absorb_append (h : (m.absorb before).2 = none) :
    m.absorb (before ++ after) = (m.absorb before).1.absorb after := by
  induction before generalizing m with
  | nil => rfl
  | cons entry rest ih =>
    obtain ⟨name, shape⟩ := entry
    rw [List.cons_append, absorb, absorb]
    rw [absorb] at h
    split
    · rename_i hshared
      rw [if_pos hshared] at h
      exact ih h
    · rename_i hshared
      rw [if_neg hshared] at h
      split
      · rename_i hsome
        rw [if_pos hsome] at h
        cases h
      · rename_i hsome
        rw [if_neg hsome] at h
        exact ih h

/-- Entries without a conflict are absorbed. -/
theorem absorb_of_forall (hnodup : (entries.map Prod.fst).Nodup)
    (h : ∀ entry ∈ entries, ¬ m.Conflicts entry) :
    m.absorb entries = ({ m with shapes := m.followedBy entries }, none) := by
  have hkept : entries.filter (fun entry ↦ (m.shape? entry.1).isNone) =
      entries.filter fun entry ↦ ¬ m.Shares entry := by
    apply List.filter_congr
    intro entry hentry
    rcases not_conflicts_iff.mp (h entry hentry) with hnone | hshared
    · simp [Shares, hnone]
    · simp [hshared, hshared.2]
  rw [absorb_eq hnodup fun entry hentry ↦ not_conflicts_iff.mp (h entry hentry), hkept]
  rfl

/-- A conflict is one with the model as it was before. -/
theorem absorb_of_conflict (hnodup : ((before ++ entry :: after).map Prod.fst).Nodup)
    (h : ∀ other ∈ before, ¬ m.Conflicts other) (hentry : m.Conflicts entry) :
    m.absorb (before ++ entry :: after) =
      ({ m with shapes := m.followedBy before }, some entry.1) := by
  rw [List.map_append, List.map_cons] at hnodup
  obtain ⟨hbefore, -, hapart⟩ := List.nodup_append'.mp hnodup
  have habsorbed := absorb_of_forall hbefore h
  rw [absorb_append (by rw [habsorbed]), habsorbed]
  -- No entry before the conflict has its name, so it finds what it found at first.
  have hsame : (m.followedBy before).get? entry.1 = m.shape? entry.1 := by
    have hfresh : (before.filter fun other ↦ ¬ m.Shares other).lookup entry.1 = none := by
      refine List.lookup_eq_none_iff.mpr fun other hother ↦ ?_
      have hne : entry.1 ≠ other.1 := by
        intro heq
        exact hapart (List.mem_map_of_mem (List.mem_of_mem_filter hother))
          (heq ▸ List.mem_cons_self)
      simpa using hne
    rw [Table.get?, followedBy, List.lookup_append, hfresh, Option.or_none]
    rfl
  obtain ⟨hname, hshared⟩ := hentry
  rw [absorb, if_neg (hsame ▸ hshared), if_pos (hsame ▸ Table.get?_isSome_iff.mpr hname)]

/-! ## Merging -/

theorem merge_of_forall (hb : b.shapes.keys.Nodup)
    (h : ∀ entry ∈ b.shapes.entries, ¬ a.Conflicts entry) :
    a.merge b = (⟨a.followedBy b.shapes.entries, a.operations ++ b.operations⟩, none) := by
  rw [merge, absorb_of_forall hb h]

theorem merge_of_conflict (hb : b.shapes.keys.Nodup)
    (hentries : b.shapes.entries = before ++ entry :: after)
    (h : ∀ other ∈ before, ¬ a.Conflicts other) (hentry : a.Conflicts entry) :
    a.merge b = (⟨a.followedBy before, a.operations⟩, some entry.1) := by
  rw [Table.keys, hentries] at hb
  rw [merge, hentries, absorb_of_conflict hb h hentry]

/-- A conflict that there is comes first somewhere. -/
theorem exists_first_conflict (h : ∃ entry ∈ entries, m.Conflicts entry) :
    ∃ before entry after, entries = before ++ entry :: after ∧
      (∀ other ∈ before, ¬ m.Conflicts other) ∧ m.Conflicts entry := by
  have hsome : (entries.find? fun entry ↦ m.Conflicts entry).isSome := by simpa using h
  obtain ⟨entry, hentry⟩ := Option.isSome_iff_exists.mp hsome
  obtain ⟨hconflict, before, after, hentries, hbefore⟩ := List.find?_eq_some_iff_append.mp hentry
  exact ⟨before, entry, after, hentries, by simpa using hbefore, by simpa using hconflict⟩

theorem merge_eq_none_iff (hb : b.shapes.keys.Nodup) :
    (a.merge b).2 = none ↔ ∀ entry ∈ b.shapes.entries, ¬ a.Conflicts entry := by
  constructor
  · intro hnone
    by_contra hsome
    push Not at hsome
    obtain ⟨before, entry, after, hentries, hbefore, hentry⟩ := exists_first_conflict hsome
    rw [merge_of_conflict hb hentries hbefore hentry] at hnone
    cases hnone
  · intro h
    rw [merge_of_forall hb h]

/-- No conflict means that every common name is one of the prelude's, under which both models have
the same shape. -/
theorem forall_not_conflicts_iff (hb : b.shapes.keys.Nodup) :
    (∀ entry ∈ b.shapes.entries, ¬ a.Conflicts entry) ↔
      ∀ name ∈ a.shapes.keys, name ∈ b.shapes.keys →
        inPrelude name = true ∧ a.shape? name = b.shape? name := by
  constructor
  · intro h name hname hcommon
    obtain ⟨entry, hentry, rfl⟩ := List.mem_map.mp hcommon
    have hshared : a.Shares entry := by
      by_contra hnot
      exact h entry hentry ⟨hname, hnot⟩
    have hfound : b.shape? entry.1 = some entry.2 := (Table.lookup_eq_some_iff_mem hb).mpr hentry
    exact ⟨hshared.1, hshared.2.trans hfound.symm⟩
  · rintro h entry hentry ⟨hname, hnot⟩
    obtain ⟨hprelude, hsame⟩ := h entry.1 hname (List.mem_map_of_mem hentry)
    have hfound : b.shape? entry.1 = some entry.2 := (Table.lookup_eq_some_iff_mem hb).mpr hentry
    exact hnot ⟨hprelude, hsame.trans hfound⟩

/-- Merging succeeds just if every common name is one of the prelude's with the same shape in both
models, and so in both directions or in none.  Then the other model's shapes that are not shared
come behind, and so do its operations.  Else the first conflict is named, what came before it and is
not shared has come behind, and nothing else has changed. -/
theorem merge_stops_at_conflict (ha : a.shapes.keys.Nodup) (hb : b.shapes.keys.Nodup) :
    ((a.merge b).2 = none ↔
      ∀ name ∈ a.shapes.keys, name ∈ b.shapes.keys →
        inPrelude name = true ∧ a.shape? name = b.shape? name) ∧
    ((a.merge b).2 = none ↔ (b.merge a).2 = none) ∧
    ((a.merge b).2 = none →
      (a.merge b).1 = ⟨a.followedBy b.shapes.entries, a.operations ++ b.operations⟩) ∧
    ∀ name, (a.merge b).2 = some name →
      ∃ before shape after, b.shapes.entries = before ++ (name, shape) :: after ∧
        (∀ entry ∈ before, ¬ a.Conflicts entry) ∧ a.Conflicts (name, shape) ∧
        (a.merge b).1 = ⟨a.followedBy before, a.operations⟩ := by
  have hsucceeds {a b : Model} (hb : b.shapes.keys.Nodup) :=
    (merge_eq_none_iff (a := a) hb).trans (forall_not_conflicts_iff hb)
  refine ⟨hsucceeds hb, ?_, ?_, ?_⟩
  · rw [hsucceeds hb, hsucceeds ha]
    constructor
    · intro h name hname hcommon
      exact (h name hcommon hname).imp_right Eq.symm
    · intro h name hname hcommon
      exact (h name hcommon hname).imp_right Eq.symm
  · intro hnone
    rw [merge_of_forall hb ((merge_eq_none_iff hb).mp hnone)]
  · intro name hsome
    have hconflict : ∃ entry ∈ b.shapes.entries, a.Conflicts entry := by
      by_contra hnone
      push Not at hnone
      rw [(merge_eq_none_iff hb).mpr hnone] at hsome
      cases hsome
    obtain ⟨before, entry, after, hentries, hbefore, hentry⟩ := exists_first_conflict hconflict
    have hmerged := merge_of_conflict hb hentries hbefore hentry
    rw [hmerged] at hsome
    obtain rfl : entry.1 = name := Option.some.inj hsome
    exact ⟨before, entry.2, after, hentries, hbefore, hentry, by rw [hmerged]⟩

/-! ### A conflict half-way -/

/-- Two structures. -/
def deskModel : Model := .ofShapes [
  { name := "Desk", form := .struct [] }, { name := "Lamp", form := .struct [] }] []

/-- A structure, a lamp of its own, and another structure. -/
def hallModel : Model := .ofShapes [
  { name := "Hall", form := .struct [] },
  { name := "Lamp", form := .struct [] },
  { name := "Door", form := .struct [] }] [{ name := "GetHall", output := some "Hall" }]

/-- The lamps conflict although they are the same, and only what stands before them has come. -/
theorem merge_stops_at_lamp :
    deskModel.shapes.keys.Nodup ∧ hallModel.shapes.keys.Nodup ∧
    (deskModel.merge hallModel).2 = some "Lamp" ∧ (hallModel.merge deskModel).2 ≠ none ∧
    (deskModel.merge hallModel).1.shapes.keys =
      deskModel.shapes.keys ++ ["Hall"] ∧ (deskModel.merge hallModel).1.operations = [] := by
  have hdesk : deskModel.shapes.keys.Nodup := by decide
  have hhall : hallModel.shapes.keys.Nodup := by decide
  have hlamp : (deskModel.merge hallModel).2 = some "Lamp" := by decide +kernel
  obtain ⟨-, hboth, -, -⟩ := merge_stops_at_conflict hdesk hhall
  refine ⟨hdesk, hhall, hlamp, ?_, by decide +kernel, by decide +kernel⟩
  rw [Ne, ← hboth, hlamp]
  exact Option.some_ne_none _

end WireShapes.Model
