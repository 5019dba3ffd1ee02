import WireShapes.Proofs.Arms
import WireShapes.Proofs.Likeness
import WireShapes.Proofs.ShowcaseDecoders

/-!
# What unions hold

The decoder of a union takes the children of its element in order and holds one member at a time.
It succeeds exactly if every child of a member can be decoded on its own, and then holds the member
of the last such child: its value or, where the member is flattened, what is gathered of the run of
children of that member at the end (`Bindings.readUnion_alone`).  The arms of a generated decoder are those
of the union's members, in order, and no two are for one member, since no two variants of the union
have one identifier (`Bindings.union_distinct`).
-/

namespace WireShapes

namespace Bindings

open Wire (Document Element Place Content StartTag Front)
open Code (Ident)

/-! ## Children on their own -/

/-- An element by what the decoders make of it on its own. -/
def alone (b : Bindings) (x : StartTag × Content) : Child where
  tag := x.1
  text := x.2.ownText
  value source := (b.readElement source (Front.alone x).element
    (Front.alone x).document).answer.toOption
  entry entry := (b.readEntryBy b.readElement entry (Front.alone x).element
    (Front.alone x).document).answer.toOption

variable {b : Bindings} {e : Element} {place inner : Place} {d : Document}

/-- A child is read as it would be on its own. -/
theorem readAs_alone {read : Reader} (hread : ReadAlike 127 read b.readElement)
    (hfresh : e.Fresh place d) (hlevels : place.inside.depth ≤ 127)
    (hinner : .element inner ∈ place.nodes) :
    b.ReadAs read e inner d (b.alone (inner.tag, inner.inside)) := by
  let f : Front := ⟨e, place, d, hfresh⟩
  have hdepth := Content.depth_lt_of_mem_nodes hinner
  have hbelow : (f.child hinner).place.inside.depth < 127 := Nat.lt_of_lt_of_le hdepth hlevels
  have halike : (f.child hinner).place.Alike (Front.alone (inner.tag, inner.inside)).place :=
    ⟨.refl _, .refl _⟩
  refine ⟨rfl, fun source ↦ ?_, fun entry ↦ ?_⟩
  · exact (hread _ _ halike hbelow source).means
  · exact (same_readEntryBy hread entry halike (Nat.le_of_lt hbelow)).means

/-! ## What known children make up -/

/-- The longest run of known children at the end that are all of one member. -/
def LastRun (known : List (UnionArm × Child)) (arm : UnionArm) (run : List Child) : Prop :=
  run ≠ [] ∧ ∃ before, known = before ++ run.map (Prod.mk arm) ∧
    ∀ k ∈ before.getLast?, k.1.member ≠ arm.member

/-- The union that known children make up: of the member that the last of them is. -/
inductive UnionMade (known : List (UnionArm × Child)) : Value → Prop
  /-- There are no known children. -/
  | unknown : known = [] → UnionMade known .unknownVariant
  /-- The member has the value of the last child. -/
  | last {arm : UnionArm} {run : List Child} {source : Boxing Source} {child : Child}
      {value : Value} : LastRun known arm run → arm.action = .set source →
      run.getLast? = some child → child.value source.source = some value →
      UnionMade known (.variant arm.member value)
  /-- The member has the items of the run, in order. -/
  | items {arm : UnionArm} {run : List Child} {item : Boxing Source} {values : List Value} :
      LastRun known arm run → arm.action = .push item →
      List.Forall₂ (fun child value ↦ child.value item.source = some value) run values →
      UnionMade known (.variant arm.member (.list values))
  /-- The member has the entries of the run, with the latest value of each key. -/
  | entries {arm : UnionArm} {run : List Child} {entry : Ident} {read : List (Datum × Value)} :
      LastRun known arm run → arm.action = .insert entry →
      List.Forall₂ (fun child pair ↦ child.entry entry = some pair) run read →
      UnionMade known (.variant arm.member (.map (Table.latest read)))

namespace UnionDecoder

variable {known : List (UnionArm × Child)} {arm : UnionArm} {child : Child}

/-- The known children from the last one of another member on are the last run. -/
theorem lastRun_rtakeWhile (hsame : ∀ k ∈ known, k.1.member = arm.member → k.1 = arm)
    (hlast : known.getLast? = some (arm, child)) :
    LastRun known arm ((known.rtakeWhile fun k ↦ k.1.member = arm.member).map Prod.snd) ∧
      ((known.rtakeWhile fun k ↦ k.1.member = arm.member).map Prod.snd).getLast? =
        some child := by
  have hone : ((known.rtakeWhile fun k ↦ k.1.member = arm.member).map Prod.snd).map (Prod.mk arm) =
      known.rtakeWhile fun k ↦ k.1.member = arm.member := by
    rw [List.map_map]
    refine (List.map_congr_left fun k hk ↦ ?_).trans (List.map_id _)
    have hmember : k.1.member = arm.member := by simpa using List.mem_rtakeWhile_imp hk
    have harm := hsame k ((List.rtakeWhile_suffix _ _).subset hk) hmember
    simp [← harm]
  have hend : ((known.rtakeWhile fun k ↦ k.1.member = arm.member).map Prod.snd).getLast? =
      some child := by
    obtain ⟨init, rfl⟩ := List.getLast?_eq_some_iff.mp hlast
    rw [List.rtakeWhile_concat_pos _ _ _ (by simp)]
    simp
  refine ⟨⟨?_, known.rdropWhile fun k ↦ k.1.member = arm.member, ?_, ?_⟩, hend⟩
  · intro hnil
    simp [hnil] at hend
  · rw [hone, List.rdropWhile_append_rtakeWhile]
  · intro k hk hmember
    obtain ⟨hne, rfl⟩ := List.mem_getLast?_eq_getLast hk
    exact List.rdropWhile_last_not _ _ hne (by simpa using hmember)

/-- A union is read just if all known children can be, and is what it holds of them. -/
theorem meaning_eq_some_iff {decl : UnionDecoder} {children : List Child} {value : Value} :
    decl.meaning children = some value ↔
      (∀ k ∈ decl.known children, k.1.action.gathering.decodes k.2 = true) ∧
        unionValue (held (decl.known children)) = value := by
  unfold meaning
  split
  next hall =>
    have hdecodes := List.all_eq_true.mp hall
    exact ⟨fun h ↦ ⟨hdecodes, Option.some.inj h⟩, fun h ↦ congrArg some h.2⟩
  next hsome =>
    exact ⟨fun h ↦ (Option.some_ne_none value h.symm).elim,
      fun h ↦ (hsome (List.all_eq_true.mpr h.1)).elim⟩

theorem forall₂_filterMap {α β : Type} {f : α → Option β} {xs : List α}
    (h : ∀ x ∈ xs, (f x).isSome) : List.Forall₂ (fun x y ↦ f x = some y) xs (xs.filterMap f) := by
  induction xs with
  | nil => exact .nil
  | cons x rest ih =>
    obtain ⟨hx, hrest⟩ := List.forall_mem_cons.mp h
    obtain ⟨y, hy⟩ := Option.isSome_iff_exists.mp hx
    rw [List.filterMap_cons_some hy]
    exact .cons hy (ih hrest)

/-- What a union holds of known children that can all be read. -/
theorem unionMade_held (hsame : ∀ k ∈ known, ∀ k' ∈ known, k.1.member = k'.1.member → k.1 = k'.1)
    (hdecodes : ∀ k ∈ known, k.1.action.gathering.decodes k.2 = true) :
    UnionMade known (unionValue (held known)) := by
  cases hlast : known.getLast? with
  | none =>
    have hheld : held known = none := by simp [held, hlast]
    rw [hheld]
    exact .unknown (List.getLast?_eq_none_iff.mp hlast)
  | some k =>
    obtain ⟨arm, child⟩ := k
    have hmem : (arm, child) ∈ known := List.mem_of_getLast? hlast
    obtain ⟨hrun, hend⟩ := lastRun_rtakeWhile (fun k hk ↦ hsame k hk _ hmem) hlast
    have hread : ∀ child ∈ (known.rtakeWhile fun k ↦ k.1.member = arm.member).map Prod.snd,
        arm.action.gathering.decodes child = true := by
      intro other hother
      obtain ⟨-, before, hknown, -⟩ := hrun
      have hother : (arm, other) ∈ known := by
        rw [hknown]
        exact List.mem_append_right _ (List.mem_map_of_mem hother)
      exact hdecodes (arm, other) hother
    have hheld : held known = (arm.action.gathering.gather
        ((known.rtakeWhile fun k ↦ k.1.member = arm.member).map Prod.snd)).map fun value ↦
          (arm.member, value) := by
      simp [held, hlast]
    rw [hheld]
    generalize (known.rtakeWhile fun k ↦ k.1.member = arm.member).map Prod.snd = run at *
    have hne : run.isEmpty = false := by simpa using hrun.1
    cases haction : arm.action with
    | set source =>
      rw [haction] at hread
      obtain ⟨value, hvalue⟩ := Option.isSome_iff_exists.mp
        (hread child (List.mem_of_getLast? hend))
      simp only [UnionAction.gathering, Gathering.gather, hend, Option.bind_some, hvalue,
        Option.map_some, unionValue]
      exact .last hrun haction hend hvalue
    | push item =>
      rw [haction] at hread
      simp only [UnionAction.gathering, Gathering.gather, hne, Bool.false_eq_true, if_false,
        Option.map_some, unionValue]
      exact .items hrun haction (forall₂_filterMap hread)
    | insert entry =>
      rw [haction] at hread
      simp only [UnionAction.gathering, Gathering.gather, hne, Bool.false_eq_true, if_false,
        Option.map_some, unionValue]
      exact .entries hrun haction (forall₂_filterMap hread)

end UnionDecoder

/-! ## Generated unions -/

/-- No two arms of a generated union decoder are for one member. -/
theorem union_distinct {m : Model} {defaults : Defaults} (hb : m.bindings defaults = .ok b)
    {decl : UnionDecoder} (hdecl : .union decl ∈ b.decoders) : decl.Distinct := by
  obtain ⟨ctx, -, -, -, -, hmade⟩ := exists_of_bindings hb
  obtain ⟨-, -, -, functions, hdecoders, -⟩ := Context.declarationsFor_ok hmade
  obtain ⟨shape, hshape, before, after, hdecoder⟩ := Context.exists_decoder_of_mem hdecoders hdecl
  obtain ⟨members, hform, hunion⟩ := Context.decoder?_union hdecoder
  obtain ⟨made, -, hof⟩ := exists_union hmade hshape hform
  unfold UnionDecoder.Distinct
  rw [Context.unionDecoder_members hunion]
  exact hof.members_nodup

/-- A union is read as its children are on their own. -/
theorem readUnion_alone (hfresh : e.Fresh place d) (hlevels : place.inside.depth ≤ 127)
    {ident : Ident} {decl : UnionDecoder} (hdecl : b.decoder? ident = some (.union decl))
    (hdistinct : decl.Distinct) :
    (b.readElement (.shape ident) e).Means d
      (decl.meaning (place.inside.elements.map b.alone)) (e.behind place d) := by
  have hread : b.readElement (.shape ident) e = b.readUnion (b.read 127) decl e := by
    show b.readShape (b.read 127) ident e = _
    rw [readShape, hdecl]
  rw [hread]
  exact readUnion_seen hfresh (fun _ ↦ readAs_alone (b.readAlike_read (Nat.le_refl _)
    (by decide)) hfresh hlevels) hdistinct

/-- The decoder of a union has an arm for each member: for the name that the member is bound to,
and to take the children as the member's target asks for.  It succeeds exactly if every child of a
member can be decoded, holds what the last of them belong to, and reads the element to its end. -/
theorem union_reads {m : Model} {defaults : Defaults} (hkeyed : m.Keyed)
    (hb : m.bindings defaults = .ok b) {ident : Ident} {decl : UnionDecoder}
    (hdecl : b.decoder? ident = some (.union decl)) (hfresh : e.Fresh place d)
    (hdepth : 0 < e.depth) (hlimit : d.maxDepth ≤ Wire.defaultMaxDepth) :
    (∃ shape ∈ m.breakCycles.shapes.values, ∃ members, shape.form = .union members ∧
      ident = decoderIdent shape.name ∧
      List.Forall₂ (UnionArmOf m.breakCycles defaults shape) members decl.arms) ∧
    ((∃ value, (b.readElement (.shape ident) e d).answer = .ok value) ↔
      ∀ k ∈ decl.known (place.inside.elements.map b.alone),
        k.1.action.gathering.decodes k.2 = true) ∧
    ∀ value, (b.readElement (.shape ident) e d).answer = .ok value →
      UnionMade (decl.known (place.inside.elements.map b.alone)) value ∧
        (b.readElement (.shape ident) e d).rest = e.behind place d := by
  have hmem := List.mem_of_find?_eq_some hdecl
  obtain ⟨shape, hshape, hident, members, hform, harms⟩ := decoder_serves hkeyed hb hmem
  have hfound : ident = (DecoderDecl.union decl).ident := by
    simpa [eq_comm] using List.find?_some hdecl
  have hdistinct := union_distinct hb hmem
  have hlevels : place.inside.depth ≤ 127 := by
    have hroom := hfresh.room
    have hmax : Wire.defaultMaxDepth = 128 := rfl
    omega
  obtain ⟨hanswer, hrest⟩ := readUnion_alone hfresh hlevels hdecl hdistinct
  have hread (value : Value) : (b.readElement (.shape ident) e d).answer = .ok value ↔
      decl.meaning (place.inside.elements.map b.alone) = some value := by
    rw [← Failing.toOption_eq_some, hanswer]
  simp only [UnionDecoder.meaning_eq_some_iff] at hread
  refine ⟨⟨shape, hshape, members, hform, hfound.trans hident, harms⟩,
    ⟨fun ⟨value, hvalue⟩ ↦ ((hread value).mp hvalue).1, fun hdecodes ↦
      ⟨_, (hread _).mpr ⟨hdecodes, rfl⟩⟩⟩, fun value hvalue ↦ ⟨?_, hrest ?_⟩⟩
  · obtain ⟨hdecodes, rfl⟩ := (hread value).mp hvalue
    refine UnionDecoder.unionMade_held (fun k hk k' hk' ↦ ?_) hdecodes
    exact List.inj_on_of_nodup_map hdistinct (UnionDecoder.arm_mem_of_known hk)
      (UnionDecoder.arm_mem_of_known hk')
  · rw [UnionDecoder.meaning_eq_some_iff.mpr ((hread value).mp hvalue)]
    rfl

end Bindings

namespace Samples

open Bindings
open Wire (Front StartTag Content)

/-- A choice with an item, a number, and then two items with an unknown element between them. -/
def flatChoice : StartTag × Content :=
  (⟨⟨none, "choice"⟩, []⟩,
    .element ⟨⟨none, "flatItem"⟩, []⟩ (.text "z" .empty)
      (.element ⟨⟨none, "number"⟩, []⟩ (.text "3" .empty)
        (.element ⟨⟨none, "flatItem"⟩, []⟩ (.text "a" .empty)
          (.element ⟨⟨none, "mystery"⟩, []⟩ .empty
            (.element ⟨⟨none, "flatItem"⟩, []⟩ (.text "b" .empty) .empty)))))

/-- The arms of a union's decoder: what they look for, whom for, and how it is put together. -/
def armsOf (decl : UnionDecoder) : List (String × String × Gathering) :=
  decl.arms.map fun arm ↦ (arm.pattern, arm.member, arm.action.gathering)

/-- The arms for a choice of the showcase. -/
def choiceArms : List (String × String × Gathering) := [
  ("text", "text", .last (.text .string)),
  ("number", "number", .last (.text (.scalar .integer))),
  ("color", "color", .last (.text (.enum (Code.camelIdent "FooEnum")))),
  ("nested", "nested", .last (.struct (decoderIdent "Nested") (Code.camelIdent "Nested"))),
  ("items", "items", .last (.shape (decoderIdent "StringList"))),
  ("flatItem", "flat", .all (.text .string)),
  ("pair", "pairs", .keyed (entryIdent "CountMap"))]

/-- The decoder is that of a union with the arms for a choice. -/
def choosesArms : DecoderDecl → Bool
  | .union decl => armsOf decl = choiceArms
  | .struct _ | .list _ | .map _ => false

theorem exists_union_of_choosesArms {made : DecoderDecl} (h : choosesArms made = true) :
    ∃ decl, made = .union decl ∧ armsOf decl = choiceArms := by
  cases made with
  | union decl => exact ⟨decl, rfl, of_decide_eq_true h⟩
  | struct | list | map => cases h

/-- A text as a value. -/
def textValue (text : String) : Value := .datum (.scalar (.string text))

/-- The value is a variant that holds some texts. -/
def holdsTexts (member : String) (texts : List String) : Value → Bool
  | .variant name (.list items) => name = member ∧ items.map Value.string? = texts.map some
  | _ => false

theorem eq_of_map_string? {items : List Value} {texts : List String}
    (h : items.map Value.string? = texts.map some) : items = texts.map textValue := by
  have hitem : ∀ value text, Value.string? value = some text → value = textValue text := by
    intro value text hvalue
    unfold Value.string? at hvalue
    split at hvalue
    · cases hvalue
      rfl
    · cases hvalue
  induction texts generalizing items with
  | nil => simpa using h
  | cons text rest ih =>
    obtain _ | ⟨item, items⟩ := items
    · cases h
    · obtain ⟨hhead, htail⟩ := List.cons_eq_cons.mp h
      rw [hitem item text hhead, ih htail, List.map_cons]

theorem eq_of_holdsTexts {member : String} {texts : List String} {value : Value}
    (h : holdsTexts member texts value = true) :
    value = .variant member (.list (texts.map textValue)) := by
  unfold holdsTexts at h
  split at h
  next name items =>
    obtain ⟨rfl, hitems⟩ := of_decide_eq_true h
    rw [eq_of_map_string? hitems]
  next => cases h

/-- The choice holds the items of the last run alone. -/
theorem union_reads_flatChoice : ∃ b decl, rest = .ok b ∧
    b.decoder? (decoderIdent "Choice") = some (.union decl) ∧ armsOf decl = choiceArms ∧
    (∃ shape ∈ Showcase.model.breakCycles.shapes.values, ∃ members,
      shape.form = .union members ∧ decoderIdent "Choice" = decoderIdent shape.name ∧
      List.Forall₂ (UnionArmOf Showcase.model.breakCycles { errorWrapping := false } shape) members
        decl.arms) ∧
    (b.readElement (.shape (decoderIdent "Choice")) (Front.alone flatChoice).element
      (Front.alone flatChoice).document).answer =
        .ok (.variant "flat" (.list [textValue "a", textValue "b"])) ∧
    UnionMade (decl.known (flatChoice.2.elements.map b.alone))
      (.variant "flat" (.list [textValue "a", textValue "b"])) := by
  obtain ⟨b, hb, haccept⟩ := Showcase.exists_bindings { errorWrapping := false } (fun b ↦
    (b.decoder? (decoderIdent "Choice")).any choosesArms &&
    (b.readElement (.shape (decoderIdent "Choice")) (Front.alone flatChoice).element
      (Front.alone flatChoice).document).answer.toOption.any (holdsTexts "flat" ["a", "b"]))
    (by decide +kernel)
  obtain ⟨hunion, hvalue⟩ := Bool.and_eq_true_iff.mp haccept
  obtain ⟨value, hanswer, hflat⟩ := (Option.any_eq_true _ _).mp hvalue
  obtain ⟨made, hmade, hchooses⟩ := (Option.any_eq_true _ _).mp hunion
  obtain ⟨decl, rfl, harms⟩ := exists_union_of_choosesArms hchooses
  obtain rfl := eq_of_holdsTexts hflat
  have hanswer := Failing.toOption_eq_some.mp hanswer
  obtain ⟨hserves, -, hread⟩ := union_reads (Model.keyed_ofShapes _ _) hb hmade
    (Front.alone flatChoice).fresh (by decide) (by decide)
  exact ⟨b, decl, hb, hmade, harms, hserves, hanswer, (hread _ hanswer).1⟩

end Samples

end WireShapes
