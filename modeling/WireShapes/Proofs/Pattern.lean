import Mathlib.Data.List.TakeDrop
import Mathlib.Data.List.TakeWhile
import WireShapes.Model.Binding

/-!
# Names as patterns

A name of a document is what splitting a text at its first colon gives, so its qualifier holds no
colon, and without a qualifier its base holds none either: it is `Split`.  A name that bindings
compute need not be split, because a qualifier taken from the model may hold a colon; printed and
read back as a pattern it is then another name.

The main statements say when some name of a document satisfies two patterns: exactly when the
names that the patterns spell overlap.  For names that bindings compute this is said once more in
terms of the names themselves, because that is where `overlaps` is asked.
-/

namespace WireShapes.Xml.Name

/-! ## Splitting at the first colon -/

theorem splitColon_eq (cs : List Char) :
    splitColon cs = match cs.dropWhile (· ≠ ':') with
      | [] => none
      | _ :: after => some (cs.takeWhile (· ≠ ':'), after) := by
  unfold splitColon
  rw [List.span_eq_takeWhile_dropWhile]
  cases cs.dropWhile (· ≠ ':') <;> rfl

theorem splitColon_append {before : List Char} (hbefore : ':' ∉ before) (after : List Char) :
    splitColon (before ++ ':' :: after) = some (before, after) := by
  have hall : ∀ c ∈ before, decide (c ≠ ':') = true := by
    intro c hc
    simpa using fun h : c = ':' ↦ hbefore (h ▸ hc)
  rw [splitColon_eq, List.dropWhile_append_of_pos hall, List.takeWhile_append_of_pos hall]
  simp

theorem splitColon_of_not_mem {cs : List Char} (h : ':' ∉ cs) : splitColon cs = none := by
  have hall : ∀ c ∈ cs, decide (c ≠ ':') = true := by
    intro c hc
    simpa using fun heq : c = ':' ↦ h (heq ▸ hc)
  rw [splitColon_eq, List.dropWhile_eq_nil_iff.mpr hall]

/-- A text with a colon falls apart at the first one. -/
theorem exists_first_colon {cs : List Char} (h : ':' ∈ cs) :
    ∃ before after, ':' ∉ before ∧ cs = before ++ ':' :: after := by
  obtain ⟨before, after, heq, hbefore⟩ := List.eq_append_cons_of_mem h
  exact ⟨before, after, hbefore, heq⟩

/-! ## Names of a document -/

/-- What a text splits into: the qualifier ends at the first colon there is. -/
def Split (name : Name) : Prop :=
  match name.qualifier with
  | some qualifier => ':' ∉ qualifier.toList
  | none => ':' ∉ name.base.toList

instance (name : Name) : Decidable name.Split := by
  unfold Split
  cases name.qualifier <;> infer_instance

theorem ofList_of_not_mem {cs : List Char} (h : ':' ∉ cs) :
    ofList cs = ⟨none, String.ofList cs⟩ := by
  unfold ofList
  rw [splitColon_of_not_mem h]

theorem ofList_append {before : List Char} (hbefore : ':' ∉ before) (after : List Char) :
    ofList (before ++ ':' :: after) = ⟨some (String.ofList before), String.ofList after⟩ := by
  unfold ofList
  rw [splitColon_append hbefore]

theorem split_ofList (cs : List Char) : (ofList cs).Split := by
  by_cases h : ':' ∈ cs
  · obtain ⟨before, after, hbefore, rfl⟩ := exists_first_colon h
    rw [ofList_append hbefore]
    simpa [Split] using hbefore
  · rw [ofList_of_not_mem h]
    simpa [Split] using h

theorem split_ofText (text : String) : (ofText text).Split :=
  split_ofList text.toList

/-- Printing undoes splitting. -/
theorem toText_ofText (text : String) : (ofText text).toText = text := by
  unfold ofText
  apply String.toList_injective
  by_cases h : ':' ∈ text.toList
  · obtain ⟨before, after, hbefore, heq⟩ := exists_first_colon h
    rw [heq, ofList_append hbefore]
    simp [toText]
  · rw [ofList_of_not_mem h]
    simp [toText]

/-- Splitting undoes printing, for a name that is split. -/
theorem ofText_toText {name : Name} (h : name.Split) : ofText name.toText = name := by
  obtain ⟨qualifier, base⟩ := name
  unfold ofText
  cases qualifier with
  | none =>
    have hbase : ':' ∉ base.toList := h
    simp [toText, ofList_of_not_mem hbase]
  | some qualifier =>
    have hqualifier : ':' ∉ qualifier.toList := h
    have htext : (toText ⟨some qualifier, base⟩).toList =
        qualifier.toList ++ ':' :: base.toList := by
      simp [toText]
    rw [htext, ofList_append hqualifier]
    simp

/-! ## Matching -/

theorem matchesPattern_iff (name : Name) (pattern : String) :
    name.matchesPattern pattern = true ↔
      name.base = (ofText pattern).base ∧
        ((ofText pattern).qualifier = none ∨ name.qualifier = (ofText pattern).qualifier) := by
  unfold matchesPattern
  obtain ⟨qualifier, base⟩ := ofText pattern
  cases qualifier <;> simp [and_comm]

theorem overlaps_iff (a b : Name) :
    a.overlaps b = true ↔
      a.base = b.base ∧
        (a.qualifier = none ∨ b.qualifier = none ∨ a.qualifier = b.qualifier) := by
  unfold overlaps
  cases a.qualifier <;> cases b.qualifier <;> simp

/-- Patterns that one name satisfies spell names that overlap. -/
theorem overlaps_of_matchesPattern {name : Name} {p q : String} (hp : name.matchesPattern p = true)
    (hq : name.matchesPattern q = true) : (ofText p).overlaps (ofText q) = true := by
  obtain ⟨hpbase, hpqual⟩ := (matchesPattern_iff _ _).mp hp
  obtain ⟨hqbase, hqqual⟩ := (matchesPattern_iff _ _).mp hq
  refine (overlaps_iff _ _).mpr ⟨hpbase.symm.trans hqbase, ?_⟩
  rcases hpqual with h | hpqual
  · exact .inl h
  · rcases hqqual with h | hqqual
    · exact .inr (.inl h)
    · exact .inr (.inr (hpqual.symm.trans hqqual))

/-- Some name of a document satisfies both patterns. -/
def Shared (p q : String) : Prop :=
  ∃ text, (ofText text).matchesPattern p = true ∧ (ofText text).matchesPattern q = true

/-- One name of a document satisfies two patterns exactly when the names they spell overlap. -/
theorem shared_iff (p q : String) : Shared p q ↔ (ofText p).overlaps (ofText q) = true := by
  constructor
  · rintro ⟨text, hp, hq⟩
    exact overlaps_of_matchesPattern hp hq
  · intro hoverlaps
    obtain ⟨hbase, hqual⟩ := (overlaps_iff _ _).mp hoverlaps
    -- The pattern that has a qualifier is itself the name that satisfies both.
    rcases hqual with h | h | h
    · exact ⟨q, (matchesPattern_iff _ _).mpr ⟨hbase.symm, .inl h⟩,
        (matchesPattern_iff _ _).mpr ⟨rfl, .inr rfl⟩⟩
    · exact ⟨p, (matchesPattern_iff _ _).mpr ⟨rfl, .inr rfl⟩,
        (matchesPattern_iff _ _).mpr ⟨hbase, .inl h⟩⟩
    · exact ⟨p, (matchesPattern_iff _ _).mpr ⟨rfl, .inr rfl⟩,
        (matchesPattern_iff _ _).mpr ⟨hbase, .inr h⟩⟩

/-! ## Names that bindings compute -/

/-- Where the name of a binding comes from: a text with a colon of its own is split there, any
other text has no colon and got a qualifier from elsewhere. -/
def Computed (name : Name) : Prop :=
  name.Split ∨ ':' ∉ name.base.toList

theorem within_of_mem {text : String} (h : ':' ∈ text.toList) (qualifier : Option String) :
    within text qualifier = ofText text := by
  obtain ⟨before, after, hbefore, heq⟩ := exists_first_colon h
  unfold within ofText
  rw [heq, ofList_append hbefore]

theorem within_of_not_mem {text : String} (h : ':' ∉ text.toList) (qualifier : Option String) :
    within text qualifier = ⟨qualifier, text⟩ := by
  unfold within ofText
  rw [ofList_of_not_mem h]
  simp

theorem computed_within (text : String) (qualifier : Option String) :
    (within text qualifier).Computed := by
  by_cases h : ':' ∈ text.toList
  · rw [within_of_mem h]
    exact .inl (split_ofText text)
  · rw [within_of_not_mem h]
    exact .inr h

/-- A qualifier without a colon gives names that are split. -/
theorem split_within (text : String) {qualifier : Option String}
    (hqualifier : ∀ q ∈ qualifier, ':' ∉ q.toList) : (within text qualifier).Split := by
  by_cases h : ':' ∈ text.toList
  · rw [within_of_mem h]
    exact split_ofText text
  · rw [within_of_not_mem h]
    cases qualifier with
    | none => exact h
    | some q => exact hqualifier q rfl

/-- A name that is not split comes back from its text with a colon in its base. -/
theorem colon_mem_base_ofText {name : Name} (h : ¬ name.Split) (hcomputed : name.Computed) :
    ':' ∈ (ofText name.toText).base.toList := by
  have hbase : ':' ∉ name.base.toList := hcomputed.resolve_left h
  obtain ⟨qualifier, base⟩ := name
  cases qualifier with
  | none => exact absurd hbase h
  | some qualifier =>
    have hcolon : ':' ∈ qualifier.toList := not_not.mp h
    obtain ⟨before, after, hbefore, heq⟩ := exists_first_colon hcolon
    have htext : (toText ⟨some qualifier, base⟩).toList =
        before ++ ':' :: (after ++ ':' :: base.toList) := by
      simp [toText, heq]
    rw [ofText, htext, ofList_append hbefore]
    simp

/-- Names whose texts have a base without a colon in common are split. -/
theorem split_of_base_eq {a b : Name} (ha : a.Computed) (hb : b.Computed)
    (hbase : (ofText a.toText).base = (ofText b.toText).base)
    (hbare : (ofText a.toText).qualifier = none) : a.Split ∧ b.Split := by
  have hcolon : ':' ∉ (ofText a.toText).base.toList := by
    have hsplit := split_ofText a.toText
    unfold Split at hsplit
    rwa [hbare] at hsplit
  constructor
  · by_contra h
    exact hcolon (colon_mem_base_ofText h ha)
  · by_contra h
    exact hcolon (hbase ▸ colon_mem_base_ofText h hb)

/-- For names that bindings compute: one name of a document satisfies both as patterns exactly
when they print the same, or when they overlap and neither has a colon in its qualifier. -/
theorem shared_toText_iff {a b : Name} (ha : a.Computed) (hb : b.Computed) :
    Shared a.toText b.toText ↔
      a.toText = b.toText ∨ (a.Split ∧ b.Split ∧ a.overlaps b = true) := by
  rw [shared_iff, overlaps_iff]
  constructor
  · rintro ⟨hbase, hqual⟩
    by_cases heq : (ofText a.toText).qualifier = (ofText b.toText).qualifier
    · refine .inl ?_
      rw [← toText_ofText a.toText, ← toText_ofText b.toText]
      congr 1
      exact Name.mk.injEq .. ▸ ⟨heq, hbase⟩
    · have hsplit : a.Split ∧ b.Split := by
        rcases hqual with h | h | h
        · exact split_of_base_eq ha hb hbase h
        · exact (split_of_base_eq hb ha hbase.symm h).symm
        · exact absurd h heq
      rw [ofText_toText hsplit.1, ofText_toText hsplit.2] at hbase hqual
      exact .inr ⟨hsplit.1, hsplit.2, (overlaps_iff a b).mpr ⟨hbase, hqual⟩⟩
  · rintro (heq | ⟨hsa, hsb, hoverlaps⟩)
    · rw [heq]
      exact ⟨rfl, .inr (.inr rfl)⟩
    · rw [ofText_toText hsa, ofText_toText hsb]
      exact (overlaps_iff a b).mp hoverlaps

end WireShapes.Xml.Name
