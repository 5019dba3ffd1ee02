import WireShapes.Proofs.Failing
import WireShapes.Proofs.Meaning
import WireShapes.Proofs.Pattern

/-!
# Members gathered child by child

A decoder takes one child after the other; what it has after all of them is what `Proofs.Meaning`
says of the children at once.  Each decoder is a fold over its children, and each proof an induction
on them from the last one: what is read before the last child is what its members are made of
without it.
-/

namespace WireShapes

@[simp]
theorem Builder.get?_set (builder : Builder) (member : String) (value : Value) (name : String) :
    (builder.set member (some value)).get? name =
      if name = member then some value else builder.get? name := by
  simp [Builder.set, Builder.get?]

namespace Bindings

open Wire (StartTag)
open Code (Ident)
open Xml (Name)

/-- A fold that passes over some elements and can fail at the others. -/
theorem foldlM_filter {α β σ : Type} (accept : α → Bool) (f : α → Option β) (add : σ → β → σ)
    (s : σ) (xs : List α) :
    xs.foldlM (fun s x ↦ if accept x then (f x).map (add s) else some s) s =
      ((xs.filter accept).mapM f).map (List.foldl add s) := by
  induction xs generalizing s with
  | nil => rfl
  | cons x xs ih =>
    rw [List.foldlM_cons]
    by_cases h : accept x
    · rw [if_pos h, List.filter_cons_of_pos h, List.mapM_cons]
      cases f x with
      | none => rfl
      | some y =>
        simp only [Option.map_some, Option.bind_eq_bind, Option.bind_some, ih]
        cases (xs.filter accept).mapM f <;> rfl
    · rw [if_neg h, List.filter_cons_of_neg h]
      exact ih s

/-! ## Structures -/

/-- Arms of which no name satisfies two, for members of which none is given twice. -/
def StructDecoder.Distinct (d : StructDecoder) : Prop :=
  (d.attributes.map AttributeArm.member ++ d.arms.map StructArm.member).Nodup ∧
    ∀ arm ∈ d.arms, ∀ other ∈ d.arms,
      (Name.ofText arm.pattern).overlaps (Name.ofText other.pattern) = true → arm = other

instance (d : StructDecoder) : Decidable d.Distinct := by
  unfold StructDecoder.Distinct
  infer_instance

/-- Sets or adds to the member that a child is. -/
def structStep (d : StructDecoder) (builder : Builder) (child : Child) : Option Builder :=
  match armFor StructArm.pattern d.arms child.tag with
  | none => some builder
  | some arm =>
    (arm.action.gathering.add (builder.get? arm.member) child).map fun value ↦
      builder.set arm.member (some value)

namespace StructDecoder.Distinct

variable {d : StructDecoder} {arm other : StructArm} {tag : StartTag}

/-- The arm for a child is the one whose pattern its name satisfies. -/
theorem armFor_eq_some_iff (h : d.Distinct) :
    armFor StructArm.pattern d.arms tag = some arm ↔
      arm ∈ d.arms ∧ tag.matchesPattern arm.pattern = true := by
  unfold armFor
  constructor
  · intro hfind
    exact ⟨List.mem_of_find?_eq_some hfind, by simpa using List.find?_some hfind⟩
  · rintro ⟨harm, hmatch⟩
    cases hfind : d.arms.find? fun arm ↦ tag.matchesPattern arm.pattern with
    | none => exact absurd hmatch (List.find?_eq_none.mp hfind arm harm)
    | some other =>
      have hmatch' : tag.matchesPattern other.pattern = true := by simpa using List.find?_some hfind
      rw [h.2 arm harm other (List.mem_of_find?_eq_some hfind)
        (Name.overlaps_of_matchesPattern hmatch hmatch')]

/-- A child that no arm is for satisfies no pattern. -/
theorem not_matches_of_armFor (hnone : armFor StructArm.pattern d.arms tag = none)
    (harm : arm ∈ d.arms) : ¬ tag.matchesPattern arm.pattern = true :=
  List.find?_eq_none.mp hnone arm harm

theorem arm_of_member (h : d.Distinct) (harm : arm ∈ d.arms) (hother : other ∈ d.arms)
    (hmember : arm.member = other.member) : arm = other :=
  List.inj_on_of_nodup_map (List.nodup_append.mp h.1).2.1 harm hother hmember

/-- No member is both an attribute and a child. -/
theorem member_ne (h : d.Distinct) {given : AttributeArm} (hgiven : given ∈ d.attributes)
    (harm : arm ∈ d.arms) : given.member ≠ arm.member :=
  (List.nodup_append.mp h.1).2.2 _ (List.mem_map_of_mem hgiven) _ (List.mem_map_of_mem harm)

end StructDecoder.Distinct

theorem StructArm.found_append (arm : StructArm) (children : List Child) (child : Child) :
    arm.found (children ++ [child]) =
      if child.tag.matchesPattern arm.pattern then arm.found children ++ [child]
      else arm.found children := by
  unfold found
  rw [List.filter_append]
  by_cases h : child.tag.matchesPattern arm.pattern <;> simp [h]

/-- What the children read so far have made of a builder. -/
def Gathered (d : StructDecoder) (start : Builder) (children : List Child) :
    Option Builder → Prop
  | some builder =>
    (∀ arm ∈ d.arms, (arm.found children).all arm.action.gathering.decodes) ∧
      (∀ arm ∈ d.arms, builder.get? arm.member = arm.action.gathering.gather (arm.found children)) ∧
      ∀ name ∉ d.arms.map StructArm.member, builder.get? name = start.get? name
  | none => ∃ arm ∈ d.arms, ¬ (arm.found children).all arm.action.gathering.decodes

section Step

variable {d : StructDecoder} {arm other : StructArm} {start builder : Builder}
  {children : List Child} {child : Child}

theorem Gathered.none_append (h : Gathered d start children none) (child : Child) :
    Gathered d start (children ++ [child]) none := by
  obtain ⟨arm, harm, hbad⟩ := h
  refine ⟨arm, harm, fun hall ↦ hbad ?_⟩
  rw [StructArm.found_append] at hall
  split at hall
  · rw [List.all_append, Bool.and_eq_true_iff] at hall
    exact hall.1
  · exact hall

/-- A child that no arm is for changes nothing. -/
theorem Gathered.pass (h : Gathered d start children (some builder))
    (hnone : armFor StructArm.pattern d.arms child.tag = none) :
    Gathered d start (children ++ [child]) (some builder) := by
  have hfound (arm) (harm : arm ∈ d.arms) :
      arm.found (children ++ [child]) = arm.found children := by
    rw [StructArm.found_append, if_neg (StructDecoder.Distinct.not_matches_of_armFor hnone harm)]
  exact ⟨fun arm harm ↦ hfound arm harm ▸ h.1 arm harm,
    fun arm harm ↦ hfound arm harm ▸ h.2.1 arm harm, h.2.2⟩

/-- A child is found by its own arm alone. -/
theorem StructDecoder.Distinct.found_append_of_ne (h : d.Distinct)
    (harm : armFor StructArm.pattern d.arms child.tag = some arm) (hother : other ∈ d.arms)
    (hne : other ≠ arm) : other.found (children ++ [child]) = other.found children := by
  rw [StructArm.found_append, if_neg]
  intro hmatch
  have heq := harm.symm.trans (h.armFor_eq_some_iff.mpr ⟨hother, hmatch⟩)
  exact hne (Option.some.inj heq).symm

/-- A child that can be read is added to its member. -/
theorem Gathered.add (hdistinct : d.Distinct) (h : Gathered d start children (some builder))
    (harmFor : armFor StructArm.pattern d.arms child.tag = some arm)
    (hchild : arm.action.gathering.decodes child = true) {value : Value}
    (hvalue : arm.action.gathering.gather (arm.found children ++ [child]) = some value) :
    Gathered d start (children ++ [child]) (some (builder.set arm.member (some value))) := by
  obtain ⟨hdecodes, hmembers, hothers⟩ := h
  obtain ⟨harm, hmatch⟩ := hdistinct.armFor_eq_some_iff.mp harmFor
  have hfound : arm.found (children ++ [child]) = arm.found children ++ [child] := by
    rw [StructArm.found_append, if_pos hmatch]
  refine ⟨fun other hother ↦ ?_, fun other hother ↦ ?_, fun name hname ↦ ?_⟩
  · by_cases heq : other = arm
    · subst heq
      rw [hfound, List.all_append, hdecodes other hother]
      simpa using hchild
    · rw [hdistinct.found_append_of_ne harmFor hother heq]
      exact hdecodes other hother
  · rw [Builder.get?_set]
    by_cases heq : other = arm
    · subst heq
      rw [if_pos rfl, hfound, hvalue]
    · have hmember : other.member ≠ arm.member := by
        intro hmember
        exact heq (hdistinct.arm_of_member hother harm hmember)
      rw [if_neg hmember, hdistinct.found_append_of_ne harmFor hother heq]
      exact hmembers other hother
  · have hmember : name ≠ arm.member := by
      intro hmember
      exact hname (hmember ▸ List.mem_map_of_mem harm)
    rw [Builder.get?_set, if_neg hmember]
    exact hothers name hname

theorem Gathered.step (hdistinct : d.Distinct) (h : Gathered d start children (some builder))
    (child : Child) : Gathered d start (children ++ [child]) (structStep d builder child) := by
  unfold structStep
  cases harmFor : armFor StructArm.pattern d.arms child.tag with
  | none => exact h.pass harmFor
  | some arm =>
    obtain ⟨harm, hmatch⟩ := hdistinct.armFor_eq_some_iff.mp harmFor
    simp only [h.2.1 arm harm]
    cases hadd : arm.action.gathering.add
        (arm.action.gathering.gather (arm.found children)) child with
    | some value =>
      have hchild : arm.action.gathering.decodes child = true :=
        (Gathering.add_isSome_iff _).mp (Option.isSome_of_eq_some hadd)
      rw [Gathering.add_gather hchild] at hadd
      exact h.add hdistinct harmFor hchild hadd
    | none =>
      refine ⟨arm, harm, fun hall ↦ ?_⟩
      rw [StructArm.found_append, if_pos hmatch, List.all_append, Bool.and_eq_true_iff] at hall
      have hchild : arm.action.gathering.decodes child = true := by simpa using hall.2
      rw [← Gathering.add_isSome_iff (arm.action.gathering.gather (arm.found children)), hadd]
        at hchild
      exact absurd hchild (by decide)

end Step

/-- Members gathered child by child. -/
theorem gathered_structStep {d : StructDecoder} (hdistinct : d.Distinct) {start : Builder}
    (hstart : ∀ arm ∈ d.arms, start.get? arm.member = none) (children : List Child) :
    Gathered d start children (children.foldlM (structStep d) start) := by
  induction children using List.reverseRecOn with
  | nil =>
    refine ⟨by simp [StructArm.found], fun arm harm ↦ ?_, fun _ _ ↦ rfl⟩
    rw [hstart arm harm]
    cases arm.action.gathering <;> rfl
  | append_singleton children child ih =>
    rw [List.foldlM_append]
    cases hfold : children.foldlM (structStep d) start with
    | none =>
      rw [hfold] at ih
      exact ih.none_append child
    | some builder =>
      rw [hfold] at ih
      simpa using ih.step hdistinct child

/-! ### Attributes -/

section Attributes

variable {b : Bindings} {tag : StartTag}

/-- Members are set by the attributes that are looked up, and by no others. -/
theorem readAttributes_congr {tag tag' : StartTag} {arms : List AttributeArm}
    (h : ∀ arm ∈ arms, tag'.get? arm.pattern = tag.get? arm.pattern) (builder : Builder) :
    b.readAttributes tag' builder arms = b.readAttributes tag builder arms := by
  induction arms generalizing builder with
  | nil => rfl
  | cons arm rest ih =>
    obtain ⟨harm, hrest⟩ := List.forall_mem_cons.mp h
    unfold readAttributes
    rw [harm]
    cases tag.get? arm.pattern with
    | none => exact ih hrest builder
    | some text => exact congrArg _ (funext fun value ↦ ih hrest _)

/-- Members set by attributes one by one. -/
theorem readAttributes_toOption (tag : StartTag) (attributes : List AttributeArm)
    (builder : Builder) (hdistinct : (attributes.map AttributeArm.member).Nodup) :
    (b.readAttributes tag builder attributes).toOption.map Builder.get? =
      if attributes.all fun arm ↦ (tag.get? arm.pattern).all fun text ↦
          (b.attributeValue arm text).isSome then
        some fun name ↦ match attributes.find? fun arm ↦ arm.member = name with
          | some arm => ((tag.get? arm.pattern).bind (b.attributeValue arm)).or (builder.get? name)
          | none => builder.get? name
      else none := by
  induction attributes generalizing builder with
  | nil => rfl
  | cons arm rest ih =>
    obtain ⟨hfresh, hrest⟩ := List.nodup_cons.mp hdistinct
    have hlater : rest.find? (fun other ↦ other.member = arm.member) = none := by
      refine List.find?_eq_none.mpr fun other hother heq ↦ hfresh ?_
      exact of_decide_eq_true heq ▸ List.mem_map_of_mem hother
    unfold readAttributes
    cases htext : tag.get? arm.pattern with
    | none =>
      rw [ih builder hrest]
      simp only [List.all_cons, htext, Option.all_none, Bool.true_and]
      refine if_congr Iff.rfl (congrArg some (funext fun name ↦ ?_)) rfl
      rw [List.find?_cons]
      by_cases hname : arm.member = name
      · subst hname
        simp [hlater, htext]
      · simp [hname]
    | some text =>
      cases hdatum : b.datum arm.value.source text with
      | error error =>
        simp [htext, attributeValue, hdatum, bind, Except.bind, Except.toOption]
      | ok datum =>
        have hvalue : b.attributeValue arm text = some (.datum datum) := by
          simp [attributeValue, hdatum, Except.toOption]
        have hnext := ih (builder.set arm.member (some (.datum datum))) hrest
        simp only [bind, Except.bind, hdatum]
        rw [hnext]
        simp only [List.all_cons, htext, Option.all_some, hvalue, Option.isSome_some,
          Bool.true_and]
        refine if_congr Iff.rfl (congrArg some (funext fun name ↦ ?_)) rfl
        rw [List.find?_cons, Builder.get?_set]
        by_cases hname : arm.member = name
        · subst hname
          simp [hlater, htext, hvalue]
        · simp [hname, Ne.symm hname]

/-- A builder that holds what attributes give, and nothing else. -/
def Attributed (b : Bindings) (d : StructDecoder) (tag : StartTag) (builder : Builder) : Prop :=
  ∀ name, builder.get? name =
    (d.attributes.find? fun arm ↦ arm.member = name).bind fun arm ↦
      (tag.get? arm.pattern).bind (b.attributeValue arm)

variable {d : StructDecoder} {builder result : Builder} {children : List Child}

/-- A fresh builder is filled by the attributes exactly when each of them can be read. -/
theorem readAttributes_empty (tag : StartTag) (hdistinct : d.Distinct) :
    match (b.readAttributes tag .empty d.attributes).toOption with
    | some builder => (d.attributes.all fun arm ↦ (tag.get? arm.pattern).all fun text ↦
        (b.attributeValue arm text).isSome) = true ∧ b.Attributed d tag builder
    | none => (d.attributes.all fun arm ↦ (tag.get? arm.pattern).all fun text ↦
        (b.attributeValue arm text).isSome) = false := by
  have hread := readAttributes_toOption tag d.attributes .empty
    (List.nodup_append.mp hdistinct.1).1 (b := b)
  cases hbuilder : (b.readAttributes tag .empty d.attributes).toOption with
  | none =>
    rw [hbuilder] at hread
    exact Bool.eq_false_iff.mpr ((ite_eq_right_iff.mp hread.symm).mt (by simp))
  | some builder =>
    rw [hbuilder] at hread
    obtain ⟨hall, hget⟩ := Option.ite_none_right_eq_some.mp hread.symm
    refine ⟨hall, fun name ↦ ?_⟩
    have hempty : Builder.empty.get? name = none := rfl
    rw [← Option.some.inj hget]
    cases hfind : d.attributes.find? fun arm ↦ arm.member = name <;> simp [hfind, hempty]

/-- Members of children are no attributes. -/
theorem Attributed.get?_of_mem (h : b.Attributed d tag builder) (hdistinct : d.Distinct)
    {arm : StructArm} (harm : arm ∈ d.arms) : builder.get? arm.member = none := by
  have hfind : d.attributes.find? (fun other ↦ other.member = arm.member) = none := by
    apply List.find?_eq_none.mpr
    intro other hother heq
    exact hdistinct.member_ne hother harm (of_decide_eq_true heq)
  rw [h, hfind, Option.bind_none]

/-- What attributes and then children make of a builder are the members. -/
theorem Attributed.structMember (h : b.Attributed d tag builder) (hdistinct : d.Distinct)
    (hgathered : Gathered d builder children (some result)) :
    result.get? = b.structMember d tag children := by
  obtain ⟨-, hmembers, hothers⟩ := hgathered
  funext name
  unfold Bindings.structMember
  cases hattribute : d.attributes.find? fun arm ↦ arm.member = name with
  | some arm =>
    have hname : arm.member = name := by simpa using List.find?_some hattribute
    have hnot : name ∉ d.arms.map StructArm.member := by
      intro hmem
      obtain ⟨other, hother, heq⟩ := List.mem_map.mp hmem
      exact hdistinct.member_ne (List.mem_of_find?_eq_some hattribute) hother (hname.trans heq.symm)
    rw [hothers name hnot, h, hattribute, Option.bind_some]
  | none =>
    cases harm : d.arms.find? fun arm ↦ arm.member = name with
    | some arm =>
      have hname : arm.member = name := by simpa using List.find?_some harm
      rw [← hname, hmembers arm (List.mem_of_find?_eq_some harm)]
      rfl
    | none =>
      have hnot : name ∉ d.arms.map StructArm.member := by
        intro hmem
        obtain ⟨arm, hmem, heq⟩ := List.mem_map.mp hmem
        exact List.find?_eq_none.mp harm arm hmem (decide_eq_true heq)
      rw [hothers name hnot, h, hattribute]
      rfl

/-- The members of a structure after its attributes and its children. -/
theorem structMembers_of_fold (hdistinct : d.Distinct) (tag : StartTag) (children : List Child) :
    ((b.readAttributes tag .empty d.attributes).toOption.bind fun builder ↦
      children.foldlM (structStep d) builder).map Builder.get? =
        b.structMembers d tag children := by
  have hread := readAttributes_empty tag hdistinct (b := b)
  unfold structMembers structDecodes
  cases hbuilder : (b.readAttributes tag .empty d.attributes).toOption with
  | none =>
    rw [hbuilder] at hread
    simp [hread]
  | some builder =>
    rw [hbuilder] at hread
    obtain ⟨hall, hattributed⟩ := hread
    have hgathered := gathered_structStep hdistinct
      (fun arm harm ↦ hattributed.get?_of_mem hdistinct harm) children
    rw [Option.bind_some, hall, Bool.true_and]
    cases hfold : children.foldlM (structStep d) builder with
    | none =>
      rw [hfold] at hgathered
      obtain ⟨arm, harm, hbad⟩ := hgathered
      rw [if_neg fun hall ↦ hbad (List.all_eq_true.mp hall arm harm)]
      rfl
    | some result =>
      rw [hfold] at hgathered
      rw [if_pos (List.all_eq_true.mpr hgathered.1), Option.map_some,
        hattributed.structMember hdistinct hgathered]

end Attributes

/-! ### Built structures -/

/-- A structure is built from what its builder holds. -/
theorem build_toOption (builder : Builder) (decl : StructDecl) :
    (builder.build decl).toOption = decl.assembled builder.get? := by
  have hfields (fields : List Field) :
      (builder.buildFields decl.shape fields).toOption =
        if fields.all fun field ↦ !field.required || (builder.get? field.member).isSome then
          some (fields.filterMap fun field ↦
            (builder.get? field.member).map fun value ↦ (field.member, value))
        else none := by
    induction fields with
    | nil => rfl
    | cons field rest ih =>
      unfold Builder.buildFields
      cases hvalue : builder.get? field.member with
      | some value =>
        rw [Failing.toOption_map, ih, List.all_cons, hvalue, Option.isSome_some, Bool.or_true,
          Bool.true_and, List.filterMap_cons_some (by rw [hvalue, Option.map_some])]
        split <;> rfl
      | none =>
        rw [List.all_cons, List.filterMap_cons_none (by rw [hvalue, Option.map_none])]
        cases hrequired : field.required with
        | true => simp [hvalue, Except.toOption]
        | false => simpa [hvalue] using ih
  unfold Builder.build StructDecl.assembled
  rw [Failing.toOption_map, hfields]
  split <;> rfl

/-! ## Unions -/

def UnionDecoder.Distinct (d : UnionDecoder) : Prop :=
  (d.arms.map UnionArm.member).Nodup

instance (d : UnionDecoder) : Decidable d.Distinct := by
  unfold UnionDecoder.Distinct
  infer_instance

/-- Holds or adds to the member that a child is. -/
def unionStep (d : UnionDecoder) (held : Held) (child : Child) : Option Held :=
  match armFor UnionArm.pattern d.arms child.tag with
  | none => some held
  | some arm =>
    (arm.action.gathering.add (heldOf held arm.member) child).map fun value ↦
      some (arm.member, value)

namespace UnionDecoder

variable {d : UnionDecoder} {known : List (UnionArm × Child)} {arm : UnionArm} {child : Child}

/-- What is held of a member was made of the known children since the last one of another. -/
theorem heldOf_held (hsame : ∀ k ∈ known, k.1.member = arm.member → k.1 = arm) :
    heldOf (held known) arm.member =
      arm.action.gathering.gather
        ((known.rtakeWhile fun k ↦ k.1.member = arm.member).map Prod.snd) := by
  have hempty : arm.action.gathering.gather [] = none := by cases arm.action.gathering <;> rfl
  induction known using List.reverseRecOn with
  | nil => exact hempty.symm
  | append_singleton init k _ =>
    obtain ⟨last, child⟩ := k
    have hheld : held (init ++ [(last, child)]) =
        (last.action.gathering.gather (((init ++ [(last, child)]).rtakeWhile fun k ↦
          k.1.member = last.member).map Prod.snd)).map fun value ↦ (last.member, value) := by
      simp [held]
    rw [hheld]
    by_cases hmember : last.member = arm.member
    · obtain rfl : last = arm := hsame (last, child) (by simp) hmember
      cases last.action.gathering.gather _ <;> simp [heldOf]
    · have hrun : (init ++ [(last, child)]).rtakeWhile (fun k ↦ k.1.member = arm.member) = [] :=
        List.rtakeWhile_concat_neg _ _ _ (by simpa using hmember)
      rw [hrun, List.map_nil, hempty]
      cases last.action.gathering.gather _ <;> simp [heldOf, hmember]

/-- One more known child adds to what is held of its member. -/
theorem held_append (hsame : ∀ k ∈ known, k.1.member = arm.member → k.1 = arm)
    (hchild : arm.action.gathering.decodes child = true) :
    (arm.action.gathering.add (heldOf (held known) arm.member) child).map
        (fun value ↦ (arm.member, value)) = held (known ++ [(arm, child)]) := by
  have hrun : (known ++ [(arm, child)]).rtakeWhile (fun k ↦ k.1.member = arm.member) =
      known.rtakeWhile (fun k ↦ k.1.member = arm.member) ++ [(arm, child)] :=
    List.rtakeWhile_concat_pos _ _ _ (by simp)
  rw [heldOf_held hsame, Gathering.add_gather hchild]
  simp [held, hrun]

theorem known_append (children : List Child) (child : Child) :
    d.known (children ++ [child]) =
      d.known children ++ ((armFor UnionArm.pattern d.arms child.tag).map fun arm ↦
        (arm, child)).toList := by
  unfold known
  rw [List.filterMap_append]
  cases h : armFor UnionArm.pattern d.arms child.tag <;> simp [h]

theorem arm_mem_of_known {children : List Child} {k : UnionArm × Child}
    (hk : k ∈ d.known children) : k.1 ∈ d.arms := by
  obtain ⟨child, -, harm⟩ := List.mem_filterMap.mp hk
  obtain ⟨arm, hfind, rfl⟩ := Option.map_eq_some_iff.mp harm
  exact List.mem_of_find?_eq_some hfind

/-- A union gathered child by child. -/
theorem foldlM_unionStep (hdistinct : d.Distinct) (children : List Child) :
    children.foldlM (unionStep d) none =
      if (d.known children).all fun (arm, child) ↦ arm.action.gathering.decodes child then
        some (held (d.known children))
      else none := by
  induction children using List.reverseRecOn with
  | nil => rfl
  | append_singleton children child ih =>
    rw [List.foldlM_append, ih, known_append, List.all_append]
    by_cases hknown : (d.known children).all fun (arm, child) ↦ arm.action.gathering.decodes child
    · rw [if_pos hknown, hknown, Bool.true_and]
      have hstep : (some (held (d.known children)) >>= fun held ↦
          [child].foldlM (unionStep d) held) = unionStep d (held (d.known children)) child := by
        simp
      rw [hstep, unionStep]
      cases harm : armFor UnionArm.pattern d.arms child.tag with
      | none => simp
      | some arm =>
        have hsame (k) (hk : k ∈ d.known children) (hmember : k.1.member = arm.member) :
            k.1 = arm :=
          List.inj_on_of_nodup_map hdistinct (arm_mem_of_known hk)
            (List.mem_of_find?_eq_some harm) hmember
        by_cases hchild : arm.action.gathering.decodes child = true
        · obtain ⟨value, hvalue⟩ := Option.isSome_iff_exists.mp
            ((Gathering.add_isSome_iff (heldOf (held (d.known children)) arm.member)).mpr hchild)
          have happend := held_append hsame hchild
          simp only [hvalue, Option.map_some] at happend ⊢
          simp [hchild, happend]
        · have hnone : arm.action.gathering.add (heldOf (held (d.known children)) arm.member)
              child = none := by
            rw [← Option.not_isSome_iff_eq_none, Gathering.add_isSome_iff]
            exact hchild
          simp [hnone, hchild]
    · rw [if_neg hknown, if_neg]
      · rfl
      · exact fun hall ↦ hknown (Bool.and_eq_true_iff.mp hall).1

end UnionDecoder

/-! ## Lists and maps -/

/-- Adds the item that a child is. -/
def listStep (d : ListDecoder) (items : List Value) (child : Child) : Option (List Value) :=
  if child.tag.matchesPattern d.pattern then
    (child.value d.item.source).map fun item ↦ items ++ [item]
  else some items

/-- Puts the entry that a child is. -/
def mapStep (d : MapDecoder) (entries : List (Datum × Value)) (child : Child) :
    Option (List (Datum × Value)) :=
  if child.tag.matchesPattern d.entryPattern then
    (child.entry d.entryIdent).map fun entry ↦ Value.putEntry entries entry.1 entry.2
  else some entries

/-- Sets the part of an entry that a child is. -/
def entryStep (b : Bindings) (d : MapDecoder) (parts : EntryParts) (child : Child) :
    Option EntryParts :=
  match d.part? child.tag with
  | some .key => (b.datum d.key.source child.text).toOption.map fun key ↦ (some key, parts.2)
  | some .value => (child.value d.value.source).map fun value ↦ (parts.1, some value)
  | none => some parts

/-- A list gathered child by child. -/
theorem foldlM_listStep (d : ListDecoder) (children : List Child) :
    (children.foldlM (listStep d) []).map Value.list = d.meaning children := by
  have hfold := foldlM_filter (fun child : Child ↦ child.tag.matchesPattern d.pattern)
    (fun child ↦ child.value d.item.source) (fun items item ↦ items ++ [item]) [] children
  have hid (items seen : List Value) :
      items.foldl (fun items item ↦ items ++ [item]) seen = seen ++ items := by
    induction items generalizing seen with
    | nil => simp
    | cons item items ih => simp [ih]
  unfold listStep ListDecoder.meaning
  rw [hfold]
  cases (children.filter fun child ↦ child.tag.matchesPattern d.pattern).mapM (m := Option)
    fun child ↦ child.value d.item.source with
  | none => rfl
  | some items => exact congrArg (fun items ↦ some (Value.list items)) (hid items [])

/-- A map gathered child by child. -/
theorem foldlM_mapStep (d : MapDecoder) (children : List Child) :
    (children.foldlM (mapStep d) []).map Value.map = d.meaning children := by
  have hfold := foldlM_filter (fun child : Child ↦ child.tag.matchesPattern d.entryPattern)
    (fun child ↦ child.entry d.entryIdent)
    (fun entries entry ↦ Value.putEntry entries entry.1 entry.2) [] children
  unfold mapStep MapDecoder.meaning
  rw [hfold]
  cases (children.filter fun child ↦ child.tag.matchesPattern d.entryPattern).mapM (m := Option)
    fun child ↦ child.entry d.entryIdent with
  | none => rfl
  | some entries => exact congrArg (fun table ↦ some (Value.map table)) (Table.foldl_put entries)

/-- An entry gathered child by child. -/
theorem foldlM_entryStep (b : Bindings) (d : MapDecoder) (children : List Child) :
    (children.foldlM (entryStep b d) (none, none)) = do
      let keys ← (children.filter fun child ↦ d.part? child.tag = some .key).mapM fun child ↦
        (b.datum d.key.source child.text).toOption
      let values ← (children.filter fun child ↦ d.part? child.tag = some .value).mapM fun child ↦
        child.value d.value.source
      return (keys.getLast?, values.getLast?) := by
  induction children using List.reverseRecOn with
  | nil => rfl
  | append_singleton children child ih =>
    rw [List.foldlM_append, ih, List.filter_append, List.filter_append, List.mapM_append,
      List.mapM_append]
    cases hkeys : (children.filter fun child ↦ d.part? child.tag = some .key).mapM (m := Option)
        fun child ↦ (b.datum d.key.source child.text).toOption with
    | none => simp
    | some keys =>
      cases hvalues : (children.filter fun child ↦ d.part? child.tag = some .value).mapM
          (m := Option) fun child ↦ child.value d.value.source with
      | none =>
        cases hpart : d.part? child.tag with
        | none => simp [hpart]
        | some part => cases part <;> simp [hpart]
      | some values =>
        cases hpart : d.part? child.tag with
        | none => simp [entryStep, hpart]
        | some part =>
          cases part with
          | key =>
            cases hkey : (b.datum d.key.source child.text).toOption <;>
              simp [entryStep, hpart, hkey]
          | value =>
            cases hvalue : child.value d.value.source <;> simp [entryStep, hpart, hvalue]

end Bindings

end WireShapes
