import WireShapes.Proofs.BindingTable
import WireShapes.Proofs.Pattern

/-!
# Ambiguous bindings

Resolution of bindings refuses a model in which two members of a shape, or the key and the value of
a map, could be satisfied by one name of a document.  `Model.soughtNames` lists the names that the
decoder of a shape looks for in one place, and the main statement compares what resolution decides
with what the printed patterns match.

The two agree whenever the qualifiers hold no colon.  A qualifier with a colon is printed as part
of the pattern and read back as the beginning of the base, so a clash can go unnoticed and a pair
can be refused that no name satisfies; the main statement gives the exact condition for either.
-/

namespace WireShapes

open Xml (Name)
open Xml.Name (Split Computed Shared)
open Failing

/-! ## Names in one place -/

/-- The name that a member is looked for by, if it is looked for in that place: among the
attributes of an element, or among its children. -/
def Model.soughtName? (m : Model) (owner : Shape) (defaults : Defaults) (inAttributes : Bool)
    (member : Member) : Option (String × Name) :=
  match m.bind owner member defaults with
  | .ok binding =>
    if (binding.placement == .attribute) = inAttributes then some (member.name, binding.name)
    else none
  | .error _ => none

/-- The names that the decoder of a shape looks for in one place, each with the member it is for.
The members of a map are its key and its value. -/
def Model.soughtNames (m : Model) (defaults : Defaults) (shape : Shape) (inAttributes : Bool) :
    List (String × Name) :=
  match shape.form with
  | .struct members | .union members =>
    members.filterMap (m.soughtName? shape defaults inAttributes)
  | .map _ _ =>
    match inAttributes, shape.innerNames? defaults with
    | false, some (.map _ key value) => [("key", key), ("value", value)]
    | _, _ => []
  | _ => []

section

variable {m : Model} {owner shape : Shape} {member : Member} {defaults : Defaults}

theorem soughtName?_eq_some {inAttributes : Bool} {entry : String × Name} :
    m.soughtName? owner defaults inAttributes member = some entry ↔
      ∃ binding, m.bind owner member defaults = .ok binding ∧
        (binding.placement == .attribute) = inAttributes ∧
        entry = (member.name, binding.name) := by
  unfold Model.soughtName?
  cases m.bind owner member defaults with
  | error e => simp
  | ok binding => simp [eq_comm]

/-- What binding a member comes to once its target is known. -/
theorem exists_target_of_bind {binding : Binding} (h : m.bind owner member defaults = .ok binding) :
    ∃ target placement, m.shape? member.target.target = some target ∧
      member.placement owner target = .ok placement ∧
      binding = {
        name := .within (member.xmlName.getD member.name)
          (member.xmlQualifier <|> owner.wireQualifier defaults)
        placement
        collection := target.innerNames? defaults } := by
  unfold Model.bind at h
  cases htarget : m.shape? member.target.target with
  | none => simp [htarget] at h
  | some target =>
    rw [htarget] at h
    obtain ⟨placement, hplacement, h⟩ := bind_eq_ok.mp h
    exact ⟨target, placement, rfl, hplacement, (Except.ok.inj h).symm⟩

theorem computed_of_bind {binding : Binding} (h : m.bind owner member defaults = .ok binding) :
    binding.name.Computed := by
  obtain ⟨target, placement, -, -, rfl⟩ := exists_target_of_bind h
  exact Name.computed_within _ _

theorem placement_ne_ambiguous {target : Shape} {name first second text : String} :
    member.placement owner target ≠ .error (.ambiguousBinding name first second text) := by
  unfold Member.placement
  split
  · split <;> simp
  · split
    · split <;> simp
    · simp

/-- Binding one member never fails for being ambiguous. -/
theorem bind_ne_ambiguous {name first second text : String} :
    m.bind owner member defaults ≠ .error (.ambiguousBinding name first second text) := by
  intro h
  unfold Model.bind at h
  cases htarget : m.shape? member.target.target with
  | none => simp [htarget] at h
  | some target =>
    rw [htarget] at h
    rcases bind_eq_error.mp h with hplacement | ⟨placement, -, h⟩
    · exact placement_ne_ambiguous hplacement
    · simp [pure, Except.pure] at h

theorem computed_of_innerNames {entry key value : Name}
    (h : shape.innerNames? defaults = some (.map entry key value)) :
    key.Computed ∧ value.Computed := by
  unfold Shape.innerNames? at h
  cases hform : shape.form <;> simp only [hform, Option.some.injEq, InnerNames.map.injEq,
    reduceCtorEq] at h
  obtain ⟨-, rfl, rfl⟩ := h
  exact ⟨Name.computed_within _ _, Name.computed_within _ _⟩

theorem computed_of_mem_soughtNames {inAttributes : Bool} {entry : String × Name}
    (h : entry ∈ m.soughtNames defaults shape inAttributes) : entry.2.Computed := by
  have hmembers (members : List Member)
      (h : entry ∈ members.filterMap (m.soughtName? shape defaults inAttributes)) :
      entry.2.Computed := by
    obtain ⟨member, -, hmember⟩ := List.mem_filterMap.mp h
    obtain ⟨binding, hbinding, -, rfl⟩ := soughtName?_eq_some.mp hmember
    exact computed_of_bind hbinding
  unfold Model.soughtNames at h
  split at h
  · exact hmembers _ h
  · exact hmembers _ h
  · split at h
    · rename_i hnames
      obtain ⟨hkey, hvalue⟩ := computed_of_innerNames hnames
      obtain rfl | rfl : entry = ("key", _) ∨ entry = ("value", _) := by simpa using h
      · exact hkey
      · exact hvalue
    · simp at h
  · simp at h

end

/-! ## What resolution decides -/

namespace BindingMap

/-- Two bindings of one shape that resolution takes for ambiguous. -/
def Clash (a b : Binding) : Prop :=
  sharePlace a b = true ∧ a.name.overlaps b.name = true

/-- No two bindings of the members clash. -/
def Apart (m : Model) (owner : Shape) (defaults : Defaults) (first second : Member) : Prop :=
  ∀ a b, m.bind owner first defaults = .ok a → m.bind owner second defaults = .ok b → ¬ Clash a b

variable {m : Model} {owner shape : Shape} {defaults : Defaults}

theorem addMembers_ok {seen : List (Member × Binding)} {table result : BindingMap}
    {members : List Member}
    (h : addMembers m owner defaults seen table members = .ok result) :
    (∀ member ∈ members, ∃ binding, m.bind owner member defaults = .ok binding) ∧
      members.Pairwise (Apart m owner defaults) ∧
      ∀ earlier ∈ seen, ∀ member ∈ members, ∀ binding,
        m.bind owner member defaults = .ok binding → ¬ Clash earlier.2 binding := by
  induction members generalizing seen table with
  | nil => simp
  | cons member rest ih =>
    obtain ⟨binding, hbind, h⟩ := bind_eq_ok.mp h
    split at h
    · simp at h
    · rename_i hfresh
      obtain ⟨hbound, hpairwise, hseen⟩ := ih h
      have hapart : ∀ later ∈ rest, Apart m owner defaults member later := by
        intro later hlater a b ha hb
        obtain rfl : binding = a := by simpa [hbind] using ha
        exact hseen (member, binding) (by simp) later hlater b hb
      refine ⟨?_, List.pairwise_cons.mpr ⟨hapart, hpairwise⟩, ?_⟩
      · intro other hother
        rcases List.mem_cons.mp hother with rfl | hother
        · exact ⟨binding, hbind⟩
        · exact hbound other hother
      · intro earlier hearlier other hother b hb
        rcases List.mem_cons.mp hother with rfl | hother
        · obtain rfl : binding = b := by simpa [hbind] using hb
          simpa [Clash] using List.find?_eq_none.mp hfresh earlier hearlier
        · exact hseen earlier (by simp [hearlier]) other hother b hb

/-- A failure is that of a binding, or two members clash and the error names them in order. -/
theorem addMembers_error {seen : List (Member × Binding)} {table : BindingMap}
    {members : List Member} {e : GenerateError}
    (hseen : ∀ entry ∈ seen, m.bind owner entry.1 defaults = .ok entry.2)
    (h : addMembers m owner defaults seen table members = .error e) :
    (∃ member ∈ members, m.bind owner member defaults = .error e) ∨
      ∃ first second a b, [first, second].Sublist (seen.map Prod.fst ++ members) ∧
        m.bind owner first defaults = .ok a ∧ m.bind owner second defaults = .ok b ∧
        Clash a b ∧ e = .ambiguousBinding owner.name first.name second.name (wireText b) := by
  induction members generalizing seen table with
  | nil => simp [addMembers] at h
  | cons member rest ih =>
    rcases bind_eq_error.mp h with hbind | ⟨binding, hbind, h⟩
    · exact .inl ⟨member, by simp, hbind⟩
    · split at h
      · rename_i first other hfound
        have hmem := List.mem_of_find?_eq_some hfound
        have hclash : Clash other binding := by
          simpa [Clash] using List.find?_some hfound
        have hsub : ([first] ++ [member]).Sublist (seen.map Prod.fst ++ member :: rest) :=
          (List.singleton_sublist.mpr (List.mem_map_of_mem (f := Prod.fst) hmem)).append
            (List.singleton_sublist.mpr List.mem_cons_self)
        exact .inr ⟨first, member, other, binding, hsub, hseen _ hmem, hbind, hclash,
          (Except.error.inj h).symm⟩
      · have hseen' : ∀ entry ∈ seen ++ [(member, binding)],
            m.bind owner entry.1 defaults = .ok entry.2 := by
          intro entry hentry
          rcases List.mem_append.mp hentry with hentry | hentry
          · exact hseen entry hentry
          · obtain rfl : entry = (member, binding) := by simpa using hentry
            exact hbind
        rcases ih hseen' h with ⟨later, hlater, herror⟩ | ⟨first, second, a, b, hsub, hclash⟩
        · exact .inl ⟨later, by simp [hlater], herror⟩
        · exact .inr ⟨first, second, a, b, by simpa using hsub, hclash⟩

theorem addMap_ok {key : Item} {table result : BindingMap}
    (h : addMap m shape key defaults table = .ok result) {entry keyName valueName : Name}
    (hnames : shape.innerNames? defaults = some (.map entry keyName valueName)) :
    ¬ keyName.overlaps valueName = true := by
  unfold addMap at h
  split at h
  · simp at h
  · rw [hnames] at h
    intro hoverlaps
    simp [hoverlaps] at h

theorem addMap_ambiguous {key : Item} {table : BindingMap} {name first second text : String}
    (h : addMap m shape key defaults table = .error (.ambiguousBinding name first second text)) :
    ∃ entry keyName valueName, shape.innerNames? defaults = some (.map entry keyName valueName) ∧
      keyName.overlaps valueName = true ∧ name = shape.name ∧ first = "key" ∧ second = "value" := by
  unfold addMap at h
  split at h
  · simp at h
  · split at h
    · rename_i entry keyName valueName hnames
      split at h
      · rename_i hoverlaps
        simp only [Except.error.injEq, GenerateError.ambiguousBinding.injEq] at h
        exact ⟨entry, keyName, valueName, hnames, hoverlaps, h.1.symm, h.2.1.symm, h.2.2.1.symm⟩
      · simp at h
    · simp at h

/-- A shape is taken when its members have bindings and no two names in one place overlap. -/
theorem addShape_ok {table result : BindingMap}
    (h : addShape m defaults table shape = .ok result) :
    (∀ member ∈ shape.members, ∃ binding, m.bind shape member defaults = .ok binding) ∧
      ∀ inAttributes, (m.soughtNames defaults shape inAttributes).Pairwise
        fun a b ↦ ¬ a.2.overlaps b.2 = true := by
  have hstruct {members : List Member}
      (h : addMembers m shape defaults [] table members = .ok result) :
      (∀ member ∈ members, ∃ binding, m.bind shape member defaults = .ok binding) ∧
        ∀ inAttributes, (members.filterMap (m.soughtName? shape defaults inAttributes)).Pairwise
          fun a b ↦ ¬ a.2.overlaps b.2 = true := by
    obtain ⟨hbound, hpairwise, -⟩ := addMembers_ok h
    refine ⟨hbound, fun inAttributes ↦ hpairwise.filterMap _ ?_⟩
    intro first second hapart a ha b hb hoverlaps
    obtain ⟨bindingA, hbindA, hplaceA, rfl⟩ := soughtName?_eq_some.mp ha
    obtain ⟨bindingB, hbindB, hplaceB, rfl⟩ := soughtName?_eq_some.mp hb
    exact hapart _ _ hbindA hbindB ⟨by simp [sharePlace, hplaceA, hplaceB], hoverlaps⟩
  unfold addShape at h
  unfold Shape.members Model.soughtNames
  split at h <;> rename_i hform <;> simp only [hform]
  · exact hstruct h
  · exact hstruct h
  · refine ⟨by simp, fun inAttributes ↦ ?_⟩
    split
    · rename_i hnames
      simpa using addMap_ok h hnames
    · simp
  · simp
  · simp
  · simp

/-- An ambiguity is reported of two names in one place that overlap. -/
theorem addShape_ambiguous {table : BindingMap} {name first second text : String}
    (h : addShape m defaults table shape = .error (.ambiguousBinding name first second text)) :
    shape.name = name ∧ ∃ inAttributes a b,
      [(first, a), (second, b)].Sublist (m.soughtNames defaults shape inAttributes) ∧
        a.overlaps b = true := by
  have hstruct {members : List Member}
      (h : addMembers m shape defaults [] table members =
        .error (.ambiguousBinding name first second text)) :
      shape.name = name ∧ ∃ inAttributes a b,
        [(first, a), (second, b)].Sublist
          (members.filterMap (m.soughtName? shape defaults inAttributes)) ∧
          a.overlaps b = true := by
    rcases addMembers_error (by simp) h with ⟨member, -, hbind⟩ |
      ⟨firstMember, secondMember, a, b, hsub, ha, hb, ⟨hplace, hoverlaps⟩, herror⟩
    · exact absurd hbind bind_ne_ambiguous
    · simp only [GenerateError.ambiguousBinding.injEq] at herror
      obtain ⟨rfl, rfl, rfl, -⟩ := herror
      refine ⟨rfl, a.placement == .attribute, a.name, b.name, ?_, hoverlaps⟩
      have hsame : (a.placement == .attribute) = (b.placement == .attribute) := by
        simpa only [sharePlace, beq_iff_eq] using hplace
      have hfirst : m.soughtName? shape defaults (a.placement == .attribute) firstMember =
          some (firstMember.name, a.name) := soughtName?_eq_some.mpr ⟨a, ha, rfl, rfl⟩
      have hsecond : m.soughtName? shape defaults (a.placement == .attribute) secondMember =
          some (secondMember.name, b.name) := soughtName?_eq_some.mpr ⟨b, hb, hsame.symm, rfl⟩
      simpa [hfirst, hsecond] using
        hsub.filterMap (m.soughtName? shape defaults (a.placement == .attribute))
  unfold addShape at h
  unfold Model.soughtNames
  split at h <;> rename_i hform <;> simp only [hform]
  · exact hstruct h
  · exact hstruct h
  · obtain ⟨entry, key, value, hnames, hoverlaps, rfl, rfl, rfl⟩ := addMap_ambiguous h
    exact ⟨rfl, false, key, value, by simp [hnames], hoverlaps⟩
  · split at h <;> simp at h
  · simp at h
  · simp at h

end BindingMap

/-! ## Qualifiers without a colon -/

/-- No qualifier of the model or of the protocol holds a colon. -/
def Model.BareQualifiers (m : Model) (defaults : Defaults) : Prop :=
  (∀ qualifier ∈ defaults.qualifier, ':' ∉ qualifier.toList) ∧
    ∀ shape ∈ m.shapes.values, (∀ qualifier ∈ shape.qualifier, ':' ∉ qualifier.toList) ∧
      ∀ member ∈ shape.members, ∀ qualifier ∈ member.xmlQualifier, ':' ∉ qualifier.toList

/-- Where no qualifier holds a colon, every name that is looked for is split. -/
theorem split_of_mem_soughtNames {m : Model} {defaults : Defaults} (h : m.BareQualifiers defaults)
    {shape : Shape} (hshape : shape ∈ m.shapes.values) {inAttributes : Bool}
    {entry : String × Name} (hentry : entry ∈ m.soughtNames defaults shape inAttributes) :
    entry.2.Split := by
  obtain ⟨hdefaults, hshapes⟩ := h
  obtain ⟨hnamespace, hmembers⟩ := hshapes shape hshape
  have howner : ∀ qualifier ∈ shape.wireQualifier defaults, ':' ∉ qualifier.toList := by
    intro qualifier hqualifier
    unfold Shape.wireQualifier at hqualifier
    rcases hown : shape.qualifier with _ | own
    · exact hdefaults qualifier (by simpa [hown] using hqualifier)
    · exact hnamespace qualifier (by simpa [hown] using hqualifier)
  have hmember {members : List Member} (hsub : ∀ member ∈ members, member ∈ shape.members)
      (hentry : entry ∈ members.filterMap (m.soughtName? shape defaults inAttributes)) :
      entry.2.Split := by
    obtain ⟨member, hmem, hsought⟩ := List.mem_filterMap.mp hentry
    obtain ⟨binding, hbinding, -, rfl⟩ := soughtName?_eq_some.mp hsought
    obtain ⟨target, placement, -, -, rfl⟩ := exists_target_of_bind hbinding
    apply Name.split_within _
    intro qualifier hqualifier
    rcases hown : member.xmlQualifier with _ | own
    · exact howner qualifier (by simpa [hown] using hqualifier)
    · exact hmembers member (hsub member hmem) qualifier (by simpa [hown] using hqualifier)
  unfold Model.soughtNames at hentry
  unfold Shape.members at hmember
  split at hentry <;> rename_i hform <;> simp only [hform] at hmember
  · exact hmember (fun _ hmem ↦ hmem) hentry
  · exact hmember (fun _ hmem ↦ hmem) hentry
  · unfold Shape.innerNames? at hentry
    cases inAttributes <;> simp only [hform, List.not_mem_nil, List.mem_cons, or_false] at hentry
    rcases hentry with rfl | rfl
    · exact Name.split_within _ howner
    · exact Name.split_within _ howner
  · simp at hentry

/-! ## What resolution comes to -/

/-- At most one of the arms accepts, so their order does not matter. -/
theorem find?_eq_of_perm {α : Type} {accepts : α → Bool} {arms others : List α}
    (halone : arms.Pairwise fun a b ↦ ¬ (accepts a = true ∧ accepts b = true))
    (hperm : others.Perm arms) : others.find? accepts = arms.find? accepts := by
  have hshort : (arms.filter accepts).length ≤ 1 := by
    have hnone : (arms.filter accepts).Pairwise fun _ _ ↦ False := by
      refine List.pairwise_filter.mpr (halone.imp ?_)
      intro a b hboth ha hb
      exact hboth ⟨ha, hb⟩
    match arms.filter accepts, hnone with
    | [], _ => simp
    | [_], _ => simp
    | _ :: _ :: _, hnone => exact absurd (List.rel_of_pairwise_cons hnone List.mem_cons_self) id
  have hfilter : others.filter accepts = arms.filter accepts := by
    have hperm' := hperm.filter accepts
    match hlist : arms.filter accepts, hshort with
    | [], _ => exact (hlist ▸ hperm').eq_nil
    | [a], _ => exact List.perm_singleton.mp (hlist ▸ hperm')
    | _ :: _ :: _, hshort => simp at hshort
  rw [← List.head?_filter, ← List.head?_filter, hfilter]

/-- Whether a name of a document satisfies the printed form of a name that is looked for. -/
def accepts (text : String) (entry : String × Name) : Bool :=
  (Name.ofText text).matchesPattern entry.2.toText

/-- What resolution decides about ambiguity.  After success, the table holds the bindings of the
members and the names inside the collections, and two names that the decoder of a shape looks for
in one place share a name of a document only when they are printed alike and one has a colon in its
qualifier; without such colons the order in which the names are tried does not matter.  A reported
ambiguity is about two names in one place that do share a name of a document, unless they are
printed differently and one has a colon in its qualifier. -/
theorem ofModel_sought_names (m : Model) (defaults : Defaults) :
    (∀ table, BindingMap.ofModel m defaults = .ok table → table.Sound m defaults ∧
      ∀ shape ∈ m.shapes.values, table.Covers defaults shape ∧
      (∀ member ∈ shape.members, ∃ binding, m.bind shape member defaults = .ok binding) ∧
      ∀ inAttributes,
        ((m.soughtNames defaults shape inAttributes).Pairwise fun a b ↦
          Shared a.2.toText b.2.toText ↔
            a.2.toText = b.2.toText ∧ ¬ (a.2.Split ∧ b.2.Split)) ∧
        ((∀ entry ∈ m.soughtNames defaults shape inAttributes, entry.2.Split) →
          ∀ arms : List (String × Name), arms.Perm (m.soughtNames defaults shape inAttributes) →
            ∀ text, arms.find? (accepts text) =
              (m.soughtNames defaults shape inAttributes).find? (accepts text))) ∧
    (∀ name first second text,
      BindingMap.ofModel m defaults = .error (.ambiguousBinding name first second text) →
      ∃ shape ∈ m.shapes.values, shape.name = name ∧ ∃ inAttributes a b,
        [(first, a), (second, b)].Sublist (m.soughtNames defaults shape inAttributes) ∧
        (Shared a.toText b.toText ↔ a.toText = b.toText ∨ (a.Split ∧ b.Split))) ∧
    (m.BareQualifiers defaults → ∀ shape ∈ m.shapes.values, ∀ inAttributes,
      ∀ entry ∈ m.soughtNames defaults shape inAttributes, entry.2.Split) := by
  refine ⟨fun table h ↦ ?_, fun name first second text h ↦ ?_,
    fun h shape hshape inAttributes entry hentry ↦ split_of_mem_soughtNames h hshape hentry⟩
  · obtain ⟨hsound, hcovers⟩ := BindingMap.ofModel_holds h
    refine ⟨hsound, fun shape hshape ↦ ⟨hcovers shape hshape, ?_⟩⟩
    obtain ⟨before, after, hstep⟩ := exists_step_of_foldlM_ok h hshape
    obtain ⟨hbound, hapart⟩ := BindingMap.addShape_ok hstep
    refine ⟨hbound, fun inAttributes ↦ ?_⟩
    have hshared : (m.soughtNames defaults shape inAttributes).Pairwise fun a b ↦
        Shared a.2.toText b.2.toText ↔ a.2.toText = b.2.toText ∧ ¬ (a.2.Split ∧ b.2.Split) := by
      refine (hapart inAttributes).imp_of_mem fun ha hb hoverlaps ↦ ?_
      rw [Name.shared_toText_iff (computed_of_mem_soughtNames ha) (computed_of_mem_soughtNames hb)]
      constructor
      · rintro (heq | ⟨-, -, h⟩)
        · refine ⟨heq, fun ⟨hsa, hsb⟩ ↦ hoverlaps ?_⟩
          -- Split names that print alike are equal, and a name overlaps itself.
          rw [← Name.ofText_toText hsa, ← Name.ofText_toText hsb, heq]
          exact (Name.overlaps_iff _ _).mpr ⟨rfl, .inr (.inr rfl)⟩
        · exact absurd h hoverlaps
      · exact fun h ↦ .inl h.1
    refine ⟨hshared, fun hsplit arms hperm text ↦ find?_eq_of_perm ?_ hperm⟩
    refine hshared.imp_of_mem fun ha hb hiff hboth ↦ ?_
    exact (hiff.mp ⟨text, hboth⟩).2 ⟨hsplit _ ha, hsplit _ hb⟩
  · obtain ⟨shape, hshape, before, hstep⟩ := exists_step_of_foldlM_error h
    obtain ⟨hname, inAttributes, a, b, hsub, hoverlaps⟩ := BindingMap.addShape_ambiguous hstep
    refine ⟨shape, hshape, hname, inAttributes, a, b, hsub, ?_⟩
    have hmem : ∀ entry ∈ [(first, a), (second, b)], entry.2.Computed := by
      intro entry hentry
      exact computed_of_mem_soughtNames (hsub.subset hentry)
    rw [Name.shared_toText_iff (hmem (first, a) (by simp)) (hmem (second, b) (by simp))]
    simp [hoverlaps]

/-- A structure whose first member has a colon in its qualifier. -/
def colonInQualifier (second : String) : Shape := {
  name := "Top"
  form := .struct [
    { name := "a", target := .to "String", xmlName := "x", xmlQualifier := "p:q" },
    { name := "b", target := .to "String", xmlName := second }] }

/-- With a colon in a qualifier, two members are taken that are looked for by the same pattern, and
two members are refused that no name of a document satisfies together. -/
theorem colon_in_qualifier_misleads :
    ((BindingMap.ofModel (.ofShapes [colonInQualifier "p:q:x"] []) {}).isOk = true ∧
      (Model.soughtNames (.ofShapes [colonInQualifier "p:q:x"] []) {}
        (colonInQualifier "p:q:x") false).map (fun entry ↦ entry.2.toText) = ["p:q:x", "p:q:x"] ∧
      Shared "p:q:x" "p:q:x") ∧
    (BindingMap.ofModel (.ofShapes [colonInQualifier "x"] []) {} =
        .error (.ambiguousBinding "Top" "a" "b" "<x>") ∧
      (Model.soughtNames (.ofShapes [colonInQualifier "x"] []) {}
        (colonInQualifier "x") false).map (fun entry ↦ entry.2.toText) = ["p:q:x", "x"] ∧
      ¬ Shared "p:q:x" "x") := by
  refine ⟨⟨by decide +kernel, by decide +kernel, ?_⟩, ⟨by rfl, by decide +kernel, ?_⟩⟩
  · rw [Name.shared_iff]
    decide +kernel
  · rw [Name.shared_iff]
    decide +kernel

end WireShapes
