import WireShapes.Proofs.Items
import WireShapes.Proofs.Resolution

/-!
# Collections wrapped and flattened

A list or a map of a model can stand inside an element of its own, or its items can stand among the
children of a structure or a union.  Three generated decoders gather such items, and a fourth one
reads the entries of maps: the last key and the last value of an entry count.  Whole collections and
flattened members of the same items are made alike: lists of all items, maps with the value of the
last entry of each key.  Only where there are no items is a member not set
(`Bindings.collections_agree`).
-/

namespace WireShapes

namespace Bindings

open Wire (Document Element Place Content StartTag Front Reading DecodeError)
open Code (Ident)

variable {b : Bindings} {g : Gathering}

/-! ## Entries -/

section Entries

variable {d : MapDecoder} {f : Front}

/-- The children of an entry that are keys. -/
def MapDecoder.keys (d : MapDecoder) (f : Front) : List (StartTag × Content) :=
  f.among fun tag ↦ d.part? tag = some .key

/-- The children of an entry that are values. -/
def MapDecoder.values (d : MapDecoder) (f : Front) : List (StartTag × Content) :=
  f.among fun tag ↦ d.part? tag = some .value

/-- Every key and every value of an entry can be read, whether it counts or not. -/
def PartsRead (b : Bindings) (d : MapDecoder) (f : Front) : Prop :=
  (∀ x ∈ d.keys f, (b.datum d.key.source x.2.ownText).toOption.isSome) ∧
    ∀ x ∈ d.values f, ((b.alone x).value d.value.source).isSome

/-- What the decoder for the entries of a map does with an entry. -/
structure EntryRead (b : Bindings) (d : MapDecoder) (f : Front)
    (answer : Except DecodeError (Datum × Value)) : Prop where
  succeeds : (∃ entry, answer = .ok entry) ↔
    b.PartsRead d f ∧ d.keys f ≠ [] ∧ d.values f ≠ []
  /-- The last key and the last value count. -/
  last : ∀ key value, answer = .ok (key, value) → ∃ x ∈ (d.keys f).getLast?,
    ∃ y ∈ (d.values f).getLast?, b.datum d.key.source x.2.ownText = .ok key ∧
      (b.alone y).value d.value.source = some value
  noKey : b.PartsRead d f → d.keys f = [] →
    answer = .error (.incompleteEntry f.element.name d.keyPattern)
  noValue : b.PartsRead d f → d.keys f ≠ [] → d.values f = [] →
    answer = .error (.incompleteEntry f.element.name d.valuePattern)

/-- What is read of the children of one part of an entry. -/
theorem mapM_part {α : Type} (read : Child → Option α) (part : EntryPart) (d : MapDecoder)
    (f : Front) :
    ((f.place.inside.elements.map b.alone).filter fun child ↦
      d.part? child.tag = some part).mapM read =
        if (f.among fun tag ↦ d.part? tag = some part).all fun x ↦ (read (b.alone x)).isSome then
          some ((f.among fun tag ↦ d.part? tag = some part).filterMap fun x ↦ read (b.alone x))
        else none := by
  rw [← map_among (fun tag ↦ d.part? tag = some part) f, List.mapM_map]
  exact Failing.mapM_eq_ite (fun _ ↦ rfl) _

/-- The parts of an entry are the last key and the last value, if all can be read. -/
theorem entryParts (hf : f.Usual) (d : MapDecoder) :
    (b.PartsRead d f → (f.element.foldChildren (b.entryChild b.readElement d) (none, none)
      f.document).answer.toOption = some
        ((d.keys f).getLast?.bind fun x ↦ (b.datum d.key.source x.2.ownText).toOption,
          (d.values f).getLast?.bind fun x ↦ (b.alone x).value d.value.source)) ∧
    (¬ b.PartsRead d f → (f.element.foldChildren (b.entryChild b.readElement d) (none, none)
      f.document).answer.toOption = none) := by
  have hparts : (f.element.foldChildren (b.entryChild b.readElement d) (none, none)
      f.document).answer.toOption =
        (f.place.inside.elements.map b.alone).foldlM (entryStep b d) (none, none) :=
    (foldChildren_seen f.fresh (fun inner hinner ↦
      takes_entryChild (Element.Fresh.child hinner f.fresh.room) rfl rfl
        (sees_alone hf inner hinner).value d) (none, none)).1
  have hkeys : ((f.place.inside.elements.map b.alone).filter fun child ↦
      d.part? child.tag = some .key).mapM (m := Option)
        (fun child ↦ (b.datum d.key.source child.text).toOption) =
          if (d.keys f).all fun x ↦ (b.datum d.key.source x.2.ownText).toOption.isSome then
            some ((d.keys f).filterMap fun x ↦ (b.datum d.key.source x.2.ownText).toOption)
          else none := mapM_part _ .key d f
  have hvalues : ((f.place.inside.elements.map b.alone).filter fun child ↦
      d.part? child.tag = some .value).mapM (m := Option) (fun child ↦ child.value d.value.source) =
        if (d.values f).all fun x ↦ ((b.alone x).value d.value.source).isSome then
          some ((d.values f).filterMap fun x ↦ (b.alone x).value d.value.source)
        else none := mapM_part _ .value d f
  rw [hparts, foldlM_entryStep, hkeys, hvalues]
  constructor
  · rintro ⟨hkeys, hvalues⟩
    rw [if_pos (List.all_eq_true.mpr hkeys), if_pos (List.all_eq_true.mpr hvalues)]
    exact congrArg some (Prod.ext (Failing.getLast?_filterMap hkeys)
      (Failing.getLast?_filterMap hvalues))
  · intro hnot
    by_cases hkeys : ∀ x ∈ d.keys f, (b.datum d.key.source x.2.ownText).toOption.isSome
    · have hvalues := fun hvalues ↦ hnot ⟨hkeys, hvalues⟩
      rw [if_pos (List.all_eq_true.mpr hkeys), if_neg (mt List.all_eq_true.mp hvalues)]
      rfl
    · rw [if_neg (mt List.all_eq_true.mp hkeys)]
      rfl

/-- An entry is not read where one of its parts cannot be. -/
theorem EntryRead.of_error (hparts : ¬ b.PartsRead d f) (error : DecodeError) :
    b.EntryRead d f (.error error) where
  succeeds := iff_of_false (by simp) fun h ↦ hparts h.1
  last := by simp
  noKey h := (hparts h).elim
  noValue h := (hparts h).elim

/-- An entry of parts that can be read is made of the last key and the last value. -/
theorem EntryRead.of_parts (hparts : b.PartsRead d f) :
    b.EntryRead d f (entryOf d f.element
      ((d.keys f).getLast?.bind fun x ↦ (b.datum d.key.source x.2.ownText).toOption,
        (d.values f).getLast?.bind fun x ↦ (b.alone x).value d.value.source)) := by
  cases hx : (d.keys f).getLast? with
  | none =>
    have hnil := List.getLast?_eq_none_iff.mp hx
    exact {
      succeeds := iff_of_false (by simp [entryOf]) fun h ↦ h.2.1 hnil
      last := by simp [entryOf]
      noKey := fun _ _ ↦ rfl
      noValue := fun _ hkeys ↦ (hkeys hnil).elim }
  | some x =>
    have hkeys : d.keys f ≠ [] := List.ne_nil_of_mem (List.mem_of_getLast? hx)
    obtain ⟨key, hkey⟩ := Option.isSome_iff_exists.mp (hparts.1 x (List.mem_of_getLast? hx))
    rw [Option.bind_some, hkey]
    cases hy : (d.values f).getLast? with
    | none =>
      have hnil := List.getLast?_eq_none_iff.mp hy
      exact {
        succeeds := iff_of_false (by simp [entryOf]) fun h ↦ h.2.2 hnil
        last := by simp [entryOf]
        noKey := fun _ h ↦ (hkeys h).elim
        noValue := fun _ _ _ ↦ rfl }
    | some y =>
      have hvalues : d.values f ≠ [] := List.ne_nil_of_mem (List.mem_of_getLast? hy)
      obtain ⟨value, hvalue⟩ :=
        Option.isSome_iff_exists.mp (hparts.2 y (List.mem_of_getLast? hy))
      rw [Option.bind_some, hvalue]
      refine {
        succeeds := iff_of_true ⟨(key, value), rfl⟩ ⟨hparts, hkeys, hvalues⟩
        last := fun key' value' hok ↦ ?_
        noKey := fun _ h ↦ (hkeys h).elim
        noValue := fun _ _ h ↦ (hvalues h).elim }
      obtain ⟨rfl, rfl⟩ : key = key' ∧ value = value' := by simpa [entryOf] using hok
      exact ⟨x, hx, y, hy, Failing.toOption_eq_some.mp hkey, hvalue⟩

theorem entryRead (hf : f.Usual) (hd : b.entryDecoder? d.entryIdent = some d) :
    b.EntryRead d f (b.readEntryBy b.readElement d.entryIdent f.element f.document).answer := by
  rw [readEntryBy_answer hd, readEntry, Reading.bind_give]
  obtain ⟨hread, hfails⟩ := entryParts (b := b) hf d
  by_cases hparts : b.PartsRead d f
  · rw [Failing.toOption_eq_some.mp (hread hparts)]
    exact .of_parts hparts
  · have hnone := hfails hparts
    cases hfold : (f.element.foldChildren (b.entryChild b.readElement d) (none, none)
        f.document).answer with
    | error error => exact .of_error hparts error
    | ok parts => simp [hfold, Except.toOption] at hnone

end Entries

/-! ## Collections -/

section Collections

variable {f : Front}

theorem collection_not_last {decl : DecoderDecl} {pattern : String}
    (h : decl.collection? = some (pattern, g)) (source : Source) : g ≠ .last source := by
  rintro rfl
  cases decl <;> simp [DecoderDecl.collection?] at h

/-- A whole collection is made of its items, if all can be read. -/
theorem collection_reads (hf : f.Usual) {decl : DecoderDecl}
    (hdecl : b.decoder? decl.ident = some decl) {pattern : String}
    (hcollection : decl.collection? = some (pattern, g)) :
    (b.readElement (.shape decl.ident) f.element f.document).answer.toOption =
      g.whole ((f.among fun tag ↦ tag.matchesPattern pattern).map b.alone) := by
  have hsee (inner : Place) (hinner : .element inner ∈ f.place.nodes) :
      b.ReadAs (b.read 127) f.element inner f.document (b.alone (inner.tag, inner.inside)) :=
    readAs_alone (b.readAlike_read (by decide) (by decide)) f.fresh hf.levels hinner
  have hread : b.readElement (.shape decl.ident) f.element =
      b.readShape (b.read 127) decl.ident f.element := rfl
  rw [hread, readShape, hdecl, map_among]
  cases decl with
  | list d =>
    obtain ⟨rfl, rfl⟩ : d.pattern = pattern ∧ .all d.item.source = g := by
      simpa [DecoderDecl.collection?] using hcollection
    exact (readList_seen f.fresh hsee d).1
  | map d =>
    obtain ⟨rfl, rfl⟩ : d.entryPattern = pattern ∧ .keyed d.entryIdent = g := by
      simpa [DecoderDecl.collection?] using hcollection
    exact (readMap_seen f.fresh hsee d).1
  | struct d => simp [DecoderDecl.collection?] at hcollection
  | union d => simp [DecoderDecl.collection?] at hcollection

/-! ### Members -/

variable {d : StructDecoder} {arm : StructArm}

/-- The children that are one member of a structure. -/
def StructArm.items (d : StructDecoder) (arm : StructArm) (f : Front) :
    List (StartTag × Content) :=
  f.among fun tag ↦ armFor StructArm.pattern d.arms tag = some arm

theorem StructArm.map_items (d : StructDecoder) (arm : StructArm) (f : Front) :
    (arm.items d f).map b.alone = (f.place.inside.elements.map b.alone).filter fun child ↦
      armFor StructArm.pattern d.arms child.tag = some arm :=
  map_among _ f

/-- Everything of a structure apart from one member can be read. -/
def OthersRead (b : Bindings) (d : StructDecoder) (arm : StructArm) (f : Front) : Prop :=
  (∀ given ∈ d.attributes, ∀ text ∈ f.place.tag.get? given.pattern,
    (b.attributeValue given text).isSome) ∧
  ∀ x ∈ f.place.inside.elements, ∀ other, armFor StructArm.pattern d.arms x.1 = some other →
    other ≠ arm → other.action.gathering.decodes (b.alone x) = true

/-- The decoder of a structure sets a member to a collection, if that is made. -/
structure MemberRead (b : Bindings) (d : StructDecoder) (arm : StructArm) (f : Front)
    (collection : Option Value) : Prop where
  succeeds : (∃ builder, (b.fillBy b.readElement d.ident f.element f.document).answer =
    .ok builder) ↔ collection.isSome ∧ b.OthersRead d arm f
  /-- Where there are no items, the member is not set. -/
  member : ∀ builder, (b.fillBy b.readElement d.ident f.element f.document).answer = .ok builder →
    builder.get? arm.member = if arm.items d f = [] then none else collection
  /-- A structure is built if its required members are set. -/
  completes : ∀ type decl, b.structDecl? type = some decl →
    ((∃ value, (b.readElement (.struct d.ident type) f.element f.document).answer = .ok value) ↔
      ∃ builder, (b.fillBy b.readElement d.ident f.element f.document).answer = .ok builder ∧
        ∀ field ∈ decl.fields, field.required = true → (builder.get? field.member).isSome)
  /-- It has the member as it is set. -/
  built : ∀ type decl, b.structDecl? type = some decl → arm.member ∈ decl.fields.map Field.member →
    ∀ value, (b.readElement (.struct d.ident type) f.element f.document).answer = .ok value →
      value.member? arm.member = if arm.items d f = [] then none else collection

theorem fillBy_eq (hf : f.Usual) (hd : b.decoder? d.ident = some (.struct d)) :
    (b.fillBy b.readElement d.ident f.element f.document).answer.toOption =
      (b.readAttributes f.place.tag .empty d.attributes).toOption.bind fun builder ↦
        (f.place.inside.elements.map b.alone).foldlM (structStep d) builder := by
  unfold fillBy
  rw [hd]
  exact (fill_seen f.fresh (sees_alone hf) d .empty).1

/-- A structure is built of what its builder holds. -/
theorem readStruct_toOption (hf : f.Usual) (decoder type : Ident) :
    (b.readElement (.struct decoder type) f.element f.document).answer.toOption =
      (b.fillBy b.readElement decoder f.element f.document).answer.toOption.bind fun builder ↦
        (b.structDecl? type).bind fun decl ↦ decl.assembled builder.get? := by
  have hread : b.readElement (.struct decoder type) f.element =
      b.fillBy (b.read 127) decoder f.element >>= fun builder ↦
        Reading.give (b.build type builder) := rfl
  have halike : ReadAlike 127 (b.read 127) b.readElement :=
    b.readAlike_read (by decide) (by decide)
  have hfill : (b.fillBy (b.read 127) decoder f.element f.document).answer =
      (b.fillBy b.readElement decoder f.element f.document).answer :=
    (same_fillBy halike decoder (fun _ ↦ rfl) (.refl _) hf.levels).answer
  rw [hread, Reading.bind_give, hfill, Failing.toOption_bind]
  exact congrArg _ (funext fun builder ↦ build_toOption_by type builder)

theorem isSome_assembled (decl : StructDecl) (member : String → Option Value) :
    (decl.assembled member).isSome ↔
      ∀ field ∈ decl.fields, field.required = true → (member field.member).isSome := by
  unfold StructDecl.assembled
  split
  next hall =>
    refine iff_of_true rfl fun field hfield hrequired ↦ ?_
    simpa [hrequired] using List.all_eq_true.mp hall field hfield
  next hnone =>
    refine iff_of_false (by simp) fun hall ↦ hnone (List.all_eq_true.mpr fun field hfield ↦ ?_)
    cases hrequired : field.required with
    | false => rfl
    | true => simpa using hall field hfield hrequired

/-- Attributes can be read just if each of them can be. -/
theorem isSome_readAttributes {attributes : List AttributeArm}
    (hnodup : (attributes.map AttributeArm.member).Nodup) (tag : StartTag) (start : Builder) :
    (b.readAttributes tag start attributes).toOption.isSome ↔ ∀ given ∈ attributes,
      ∀ text ∈ tag.get? given.pattern, (b.attributeValue given text).isSome := by
  have hread := readAttributes_toOption tag attributes start hnodup (b := b)
  rw [← Option.isSome_map, hread]
  split
  next hall =>
    refine iff_of_true rfl fun given hgiven text htext ↦ ?_
    exact (Option.all_eq_true _ _).mp (List.all_eq_true.mp hall given hgiven) text htext
  next hnone =>
    refine iff_of_false (by simp) fun hall ↦ hnone (List.all_eq_true.mpr fun given hgiven ↦ ?_)
    exact (Option.all_eq_true _ _).mpr (hall given hgiven)

section Member

variable (hf : f.Usual) (hd : b.decoder? d.ident = some (.struct d))
  (hnodup : (d.attributes.map AttributeArm.member ++ d.arms.map StructArm.member).Nodup)
  (harm : arm ∈ d.arms) (hcollection : ∀ source, arm.action.gathering ≠ .last source)

include hf hd hnodup hcollection

theorem fillBy_succeeds : (∃ builder, (b.fillBy b.readElement d.ident f.element
    f.document).answer = .ok builder) ↔
      (arm.action.gathering.whole ((arm.items d f).map b.alone)).isSome ∧
        b.OthersRead d arm f := by
  unfold OthersRead
  simp only [← Failing.toOption_eq_some, ← Option.isSome_iff_exists]
  rw [fillBy_eq hf hd, Gathering.whole_isSome_iff hcollection, arm.map_items,
    ← isSome_readAttributes (List.nodup_append.mp hnodup).1 f.place.tag .empty]
  cases (b.readAttributes f.place.tag .empty d.attributes).toOption with
  | none => simp
  | some start =>
    rw [Option.bind_some, isSome_foldlM_structStep]
    constructor
    · intro hall
      refine ⟨fun child hchild ↦ ?_, rfl, fun x hx other hother _ ↦
        hall _ (List.mem_map_of_mem hx) other hother⟩
      obtain ⟨hmem, harmFor⟩ := List.mem_filter.mp hchild
      exact hall child hmem arm (of_decide_eq_true harmFor)
    · rintro ⟨hitems, -, hothers⟩ child hchild other hother
      by_cases heq : other = arm
      · subst heq
        exact hitems child (List.mem_filter.mpr ⟨hchild, decide_eq_true hother⟩)
      · obtain ⟨x, hx, rfl⟩ := List.mem_map.mp hchild
        exact hothers x hx other hother heq

include harm

theorem fillBy_member {builder : Builder}
    (hok : (b.fillBy b.readElement d.ident f.element f.document).answer = .ok builder) :
    builder.get? arm.member = if arm.items d f = [] then none
      else arm.action.gathering.whole ((arm.items d f).map b.alone) := by
  obtain ⟨-, harms, hapart⟩ := List.nodup_append.mp hnodup
  have hdecodes : ∀ child ∈ (arm.items d f).map b.alone,
      arm.action.gathering.decodes child = true :=
    (Gathering.whole_isSome_iff hcollection).mp
      ((fillBy_succeeds hf hd hnodup hcollection).mp ⟨builder, hok⟩).1
  have hsome := Failing.toOption_eq_some.mpr hok
  rw [fillBy_eq hf hd] at hsome
  obtain ⟨start, hstart, hfold⟩ := Option.bind_eq_some_iff.mp hsome
  have hgiven : arm.member ∉ d.attributes.map AttributeArm.member := fun hmem ↦
    hapart _ hmem _ (List.mem_map_of_mem harm) rfl
  have hunset : start.get? arm.member = none :=
    readAttributes_get? (Failing.toOption_eq_some.mp hstart) hgiven
  rw [get?_foldlM_structStep harm harms hunset hfold, ← arm.map_items,
    Gathering.gather_eq hcollection hdecodes]
  simp

theorem memberRead :
    b.MemberRead d arm f (arm.action.gathering.whole ((arm.items d f).map b.alone)) where
  succeeds := fillBy_succeeds hf hd hnodup hcollection
  member _ := fillBy_member hf hd hnodup harm hcollection
  completes type decl hdecl := by
    simp only [← Failing.toOption_eq_some]
    rw [readStruct_toOption hf, hdecl]
    constructor
    · rintro ⟨value, hvalue⟩
      obtain ⟨builder, hbuilder, hmade⟩ := Option.bind_eq_some_iff.mp hvalue
      exact ⟨builder, hbuilder,
        (isSome_assembled decl builder.get?).mp (Option.isSome_of_eq_some hmade)⟩
    · rintro ⟨builder, hbuilder, hrequired⟩
      obtain ⟨value, hvalue⟩ := Option.isSome_iff_exists.mp
        ((isSome_assembled decl builder.get?).mpr hrequired)
      exact ⟨value, Option.bind_eq_some_iff.mpr ⟨builder, hbuilder, hvalue⟩⟩
  built type decl hdecl hmember value hok := by
    have hsome := Failing.toOption_eq_some.mpr hok
    rw [readStruct_toOption hf, hdecl] at hsome
    obtain ⟨builder, hbuilder, hvalue⟩ := Option.bind_eq_some_iff.mp hsome
    rw [member?_assembled hvalue hmember]
    exact fillBy_member hf hd hnodup harm hcollection (Failing.toOption_eq_some.mp hbuilder)

end Member

/-! ### Variants -/

variable {u : UnionDecoder} {case : UnionArm}

/-- The children that are one variant of a union. -/
def UnionArm.items (u : UnionDecoder) (case : UnionArm) (f : Front) :
    List (StartTag × Content) :=
  f.among fun tag ↦ armFor UnionArm.pattern u.arms tag = some case

/-- A union of the items of one variant, and children that it does not know. -/
theorem variantRead (hf : f.Usual) (hu : b.decoder? u.ident = some (.union u))
    (hdistinct : u.Distinct) (hcollection : ∀ source, case.action.gathering ≠ .last source)
    (hone : ∀ x ∈ f.place.inside.elements, ∀ other,
      armFor UnionArm.pattern u.arms x.1 = some other → other = case) :
    (b.readElement (.shape u.ident) f.element f.document).answer.toOption =
      (case.action.gathering.whole ((case.items u f).map b.alone)).map fun value ↦
        if case.items u f = [] then .unknownVariant else .variant case.member value := by
  have hitems : (case.items u f).map b.alone = (f.place.inside.elements.map b.alone).filter
      fun child ↦ armFor UnionArm.pattern u.arms child.tag = some case := map_among _ f
  have hone' : ∀ child ∈ f.place.inside.elements.map b.alone, ∀ other,
      armFor UnionArm.pattern u.arms child.tag = some other → other = case := by
    intro child hchild
    obtain ⟨x, hx, rfl⟩ := List.mem_map.mp hchild
    exact hone x hx
  rw [(readUnion_alone f.fresh hf.levels hu hdistinct).1,
    UnionDecoder.meaning_eq hcollection hone', ← hitems]
  simp

end Collections

/-! ## Elements that are not whole -/

/-- Whatever one of the decoders reads could have been passed over: it has its end tag, and nests
within the limit. -/
structure ReadWhole (b : Bindings) (e : Element) (d : Document) : Prop where
  value : ∀ source value, (b.readElement source e d).answer = .ok value →
    (e.skip d).answer = .ok ()
  builder : ∀ decoder builder, (b.fillBy b.readElement decoder e d).answer = .ok builder →
    (e.skip d).answer = .ok ()
  entry : ∀ entry pair, (b.readEntryBy b.readElement entry e d).answer = .ok pair →
    (e.skip d).answer = .ok ()

theorem readWhole {e : Element} {d : Document} (hopen : e.closed = false) (hinside : 0 < e.depth)
    (hlevel : e.depth ≤ d.depth) (hroom : d.depth ≤ d.maxDepth)
    (hlimit : d.maxDepth ≤ Wire.defaultMaxDepth) : b.ReadWhole e d := by
  have hwhole {α : Type} {post : α → Prop} {r r' : Reading α}
      (hmade : Reading.Made (fun _ ↦ True) Wire.defaultMaxDepth true e post r r') (a : α)
      (ha : (r d).answer = .ok a) : (e.skip d).answer = .ok () := by
    obtain ⟨-, hfinishes⟩ := (hmade.run hopen hlimit hlevel hroom).2 a ha
    simp only [Bool.true_eq_false, false_and, false_or] at hfinishes
    rw [hfinishes.skip_eq hopen]
  have hself : b.MadeAlike (fun _ ↦ True) Wire.defaultMaxDepth Wire.defaultMaxDepth 1
      b.readElement b.readElement := madeAlike_self (fails_all b) (Nat.le_refl _) (by omega)
  have hbelow : b.MadeAlike (fun _ ↦ True) Wire.defaultMaxDepth Wire.defaultMaxDepth (e.depth + 1)
      b.readElement b.readElement := madeAlike_self (fails_all b) (Nat.le_refl _) (by omega)
  exact {
    value := fun source ↦ hwhole (hself source e hopen hinside (source.resolves_all b))
    builder := fun decoder ↦ hwhole (made_fillBy (fails_all b) hbelow (.inr trivial))
    entry := fun entry ↦ hwhole (made_readEntryBy (fails_all b) hbelow (.inr trivial)) }

/-! ## Generated decoders -/

/-- A flattened member of a collection is gathered as the decoder of the collection gathers its
items, and in no other way. -/
theorem suits_collection_iff {m : Model} {defaults : Defaults} {target : Shape} {decl : DecoderDecl}
    {pattern : String} (hserves : decl.Serves m defaults target)
    (hcollection : decl.collection? = some (pattern, g)) (other : Gathering) :
    other.suits m true target = true ↔ other = g := by
  cases decl with
  | list d =>
    obtain ⟨item, hform, -, hsource⟩ := hserves
    obtain ⟨-, rfl⟩ : d.pattern = pattern ∧ .all d.item.source = g := by
      simpa [DecoderDecl.collection?] using hcollection
    cases other <;> simp [Gathering.suits, hform, hsource, eq_comm]
  | map d =>
    obtain ⟨key, value, hform, -, hentry, -⟩ := hserves
    obtain ⟨-, rfl⟩ : d.entryPattern = pattern ∧ .keyed d.entryIdent = g := by
      simpa [DecoderDecl.collection?] using hcollection
    cases other <;> simp [Gathering.suits, hform, hentry]
  | struct d => simp [DecoderDecl.collection?] at hcollection
  | union d => simp [DecoderDecl.collection?] at hcollection

/-- The decoder of a whole collection, and those of a structure and of a union in which the same
collection is flattened, with what they read. -/
structure CollectionRead (b : Bindings) (decl : DecoderDecl) (pattern : String) (g : Gathering)
    (f : Front) (answer : Except DecodeError Value) : Prop where
  /-- The whole collection is made if its items can be read. -/
  succeeds : (∃ value, answer = .ok value) ↔
    ∀ x ∈ f.among fun tag ↦ tag.matchesPattern pattern, g.decodes (b.alone x) = true
  collected : ∀ value, answer = .ok value →
    g.Collected ((f.among fun tag ↦ tag.matchesPattern pattern).map b.alone) value
  /-- A flattened member of the same items is set to the same collection. -/
  member : ∀ d, .struct d ∈ b.decoders → ∀ arm ∈ d.arms, arm.action.gathering = g →
    ∀ flat : Front, flat.Usual →
      List.Forall₂ g.Same (f.among fun tag ↦ tag.matchesPattern pattern) (arm.items d flat) →
      b.MemberRead d arm flat answer.toOption
  /-- A flattened variant of the same items holds the same collection. -/
  variant : ∀ u, .union u ∈ b.decoders → ∀ case ∈ u.arms, case.action.gathering = g →
    ∀ flat : Front, flat.Usual →
      List.Forall₂ g.Same (f.among fun tag ↦ tag.matchesPattern pattern) (case.items u flat) →
      (∀ x ∈ flat.place.inside.elements, ∀ other,
        armFor UnionArm.pattern u.arms x.1 = some other → other = case) →
      (b.readElement (.shape u.ident) flat.element flat.document).answer.toOption =
        answer.toOption.map fun value ↦
          if case.items u flat = [] then .unknownVariant else .variant case.member value

/-- Collections are read alike wherever their items stand, and entries by their last parts.  An arm
of a structure or a union gathers what the decoder of a collection gathers if its member is flattened
and has this collection as its target. -/
theorem collections_agree {m : Model} {defaults : Defaults} (hkeyed : m.Keyed)
    (h : m.bindings defaults = .ok b) :
    (∀ decl ∈ b.decoders, ∃ shape ∈ m.breakCycles.shapes.values,
      decl.ident = decoderIdent shape.name ∧ decl.Serves m.breakCycles defaults shape ∧
        ∀ pattern g, decl.collection? = some (pattern, g) →
          ∀ other : Gathering, other.suits m.breakCycles true shape = true ↔ other = g) ∧
    (∀ d, .map d ∈ b.decoders → ∀ f : Front, f.Usual →
      b.EntryRead d f (b.readEntryBy b.readElement d.entryIdent f.element f.document).answer) ∧
    (∀ decl ∈ b.decoders, ∀ pattern g, decl.collection? = some (pattern, g) →
      ∀ f : Front, f.Usual → b.CollectionRead decl pattern g f
        (b.readElement (.shape decl.ident) f.element f.document).answer) ∧
    ∀ (e : Element) (d : Document), e.closed = false → 0 < e.depth → e.depth ≤ d.depth →
      d.depth ≤ d.maxDepth → d.maxDepth ≤ Wire.defaultMaxDepth → b.ReadWhole e d := by
  obtain ⟨ctx, hmodel, hdefaults, hsymbols, hbindings, hmade⟩ := exists_of_bindings h
  have hbroken : ctx.model.Keyed := hmodel ▸ hkeyed.breakCycles
  rw [← hdefaults] at hbindings
  refine ⟨fun decl hdecl ↦ ?_, fun d hd f hf ↦ entryRead hf (entryDecoder?_entryIdent hbroken hbindings hmade hd),
    fun decl hdecl pattern g hcollection f hf ↦ ?_,
    fun e d hopen hinside hlevel hroom hlimit ↦ readWhole hopen hinside hlevel hroom hlimit⟩
  · obtain ⟨shape, hshape, hident, hserves⟩ := decoder_serves hkeyed h hdecl
    exact ⟨shape, hshape, hident, hserves, fun pattern g ↦ suits_collection_iff hserves⟩
  have hnot := collection_not_last hcollection
  have hwhole := collection_reads hf (decoder?_ident hbroken hbindings hmade hdecl) hcollection
  have hdepth : ∀ x ∈ f.among fun tag ↦ tag.matchesPattern pattern, x.2.depth ≤ 127 :=
    fun x ↦ hf.depth_of_mem_among
  constructor
  · simp only [← Failing.toOption_eq_some, ← Option.isSome_iff_exists]
    rw [hwhole, Gathering.whole_isSome_iff hnot, List.forall_mem_map]
  · intro value hvalue
    rw [← Failing.toOption_eq_some, hwhole] at hvalue
    exact Gathering.collected_of_whole hvalue
  · rintro d hd arm harm rfl flat hflat hsame
    rw [hwhole, whole_congr hdepth hsame]
    exact memberRead hflat (decoder?_ident hbroken hbindings hmade hd)
      (structDecoder_members_nodup hbroken hbindings hmade hd) harm hnot
  · rintro u hu case - rfl flat hflat hsame hone
    rw [hwhole, whole_congr hdepth hsame]
    exact variantRead hflat (decoder?_ident hbroken hbindings hmade hu) (union_distinct h hu) hnot
      hone

end Bindings

namespace Samples

open Bindings
open Wire (Front StartTag Content)

/-! ## Choices and counts of the showcase -/

/-- The decoder of a map of the showcase. -/
def mapDecoder? (b : Bindings) (shape : String) : Option MapDecoder :=
  match b.decoder? (decoderIdent shape) with
  | some (.map d) => some d
  | _ => none

/-- The arm for a member of a structure of the showcase. -/
def structArm? (b : Bindings) (shape member : String) : Option (StructDecoder × StructArm) :=
  match b.decoder? (decoderIdent shape) with
  | some (.struct d) => (d.arms.find? fun arm ↦ arm.member = member).map fun arm ↦ (d, arm)
  | _ => none

/-- The arm for a variant of a union of the showcase. -/
def unionArm? (b : Bindings) (shape member : String) : Option (UnionDecoder × UnionArm) :=
  match b.decoder? (decoderIdent shape) with
  | some (.union d) => (d.arms.find? fun arm ↦ arm.member = member).map fun arm ↦ (d, arm)
  | _ => none

theorem mem_of_mapDecoder? {b : Bindings} {shape : String} {d : MapDecoder}
    (h : mapDecoder? b shape = some d) : .map d ∈ b.decoders := by
  unfold mapDecoder? at h
  split at h
  · rename_i hd
    exact Option.some.inj h ▸ List.mem_of_find?_eq_some hd
  · exact absurd h (Option.some_ne_none d).symm

theorem mem_of_structArm? {b : Bindings} {shape member : String} {d : StructDecoder}
    {arm : StructArm} (h : structArm? b shape member = some (d, arm)) :
    .struct d ∈ b.decoders ∧ arm ∈ d.arms := by
  unfold structArm? at h
  split at h
  · rename_i hd
    obtain ⟨found, hfound, heq⟩ := Option.map_eq_some_iff.mp h
    cases heq
    exact ⟨List.mem_of_find?_eq_some hd, List.mem_of_find?_eq_some hfound⟩
  · simp at h

theorem mem_of_unionArm? {b : Bindings} {shape member : String} {d : UnionDecoder}
    {arm : UnionArm} (h : unionArm? b shape member = some (d, arm)) :
    .union d ∈ b.decoders ∧ arm ∈ d.arms := by
  unfold unionArm? at h
  split at h
  · rename_i hd
    obtain ⟨found, hfound, heq⟩ := Option.map_eq_some_iff.mp h
    cases heq
    exact ⟨List.mem_of_find?_eq_some hd, List.mem_of_find?_eq_some hfound⟩
  · simp at h

/-- A name without a qualifier and without attributes. -/
def plainTag (name : String) : StartTag := ⟨⟨none, name⟩, []⟩

/-- A choice by its key. -/
def textEntry : Content :=
  .element (plainTag "key") (.text "a" .empty)
    (.element (plainTag "value") (.element (plainTag "text") (.text "1" .empty) .empty) .empty)

/-- Another choice, with the same key behind one that does not count. -/
def numberEntry : Content :=
  .element (plainTag "value") (.element (plainTag "number") (.text "2" .empty) .empty)
    (.element (plainTag "key") (.text "b" .empty)
      (.element (plainTag "key") (.text "a" .empty) .empty))

def choiceAlone : Front := .alone (plainTag "entry", numberEntry)

/-- How often a color occurs. -/
def countEntry : Content :=
  .element (plainTag "Name") (.text "Foo" .empty)
    (.element (plainTag "Count") (.text "3" .empty) .empty)

/-- Two choices with an unknown element between them. -/
def choicesIn (entry : String) : Content :=
  .element (plainTag entry) textEntry (.element (plainTag "mystery") .empty
    (.element (plainTag entry) numberEntry .empty))

def choicesWhole : Front := .alone (plainTag "ChoiceMap", choicesIn "entry")

def choicesFlat : Front :=
  .alone (⟨⟨none, "Top"⟩, [⟨⟨none, "id"⟩, "t1"⟩]⟩, choicesIn "choice_entry")

def countsIn (entry : String) : Content :=
  .element (plainTag entry) countEntry (.element (plainTag "mystery") .empty .empty)

def countsWhole : Front := .alone (plainTag "CountMap", countsIn "entry")

def countsFlat : Front := .alone (plainTag "Choice", countsIn "pair")

/-- Items of one map with the same contents. -/
theorem same_of_contents {entry : Code.Ident} {items items' : List (StartTag × Content)}
    (h : items.map Prod.snd = items'.map Prod.snd) :
    List.Forall₂ (Gathering.keyed entry).Same items items' := by
  rwa [← List.forall₂_eq_eq_eq, List.forall₂_map_left_iff, List.forall₂_map_right_iff] at h

/-- A structure of the showcase with a note and no choices. -/
def notesOnly : Front :=
  .alone (⟨⟨none, "Top"⟩, [⟨⟨none, "id"⟩, "t1"⟩]⟩,
    .element (plainTag "note") (.text "n" .empty) .empty)

/-- A map is flattened in a structure, and both are read. -/
def readsFlat (b : Bindings) (d : MapDecoder) (s : StructDecoder) (arm : StructArm) : Bool :=
  arm.action.gathering = .keyed d.entryIdent &&
  (choicesWhole.among fun tag ↦ tag.matchesPattern d.entryPattern).map Prod.snd =
    (arm.items s choicesFlat).map Prod.snd &&
  !(arm.items s choicesFlat).isEmpty &&
  (b.readElement (.shape d.ident) choicesWhole.element
    choicesWhole.document).answer.toOption.isSome &&
  (b.fillBy b.readElement s.ident choicesFlat.element choicesFlat.document).answer.toOption.isSome

/-- A map and a structure in which it is flattened are read where there are no entries, and the
member is not set. -/
def leavesUnset (b : Bindings) (d : MapDecoder) (s : StructDecoder) (arm : StructArm) : Bool :=
  (notesOnly.among fun tag ↦ tag.matchesPattern d.entryPattern) = [] &&
  arm.items s notesOnly = [] && b.decoder? d.ident = some (.map d) &&
  (b.readElement (.struct s.ident (Code.camelIdent "Top")) notesOnly.element
    notesOnly.document).answer.toOption.any fun value ↦ (value.member? arm.member).isNone

/-- A map is flattened in a union, which has nothing else, and can be read. -/
def holdsFlat (b : Bindings) (d : MapDecoder) (u : UnionDecoder) (arm : UnionArm) : Bool :=
  arm.action.gathering = .keyed d.entryIdent &&
  (countsWhole.among fun tag ↦ tag.matchesPattern d.entryPattern).map Prod.snd =
    (arm.items u countsFlat).map Prod.snd &&
  !(arm.items u countsFlat).isEmpty &&
  (countsFlat.place.inside.elements.all fun x ↦
    (armFor UnionArm.pattern u.arms x.1).all fun other ↦ other = arm) &&
  (b.readElement (.shape d.ident) countsWhole.element countsWhole.document).answer.toOption.isSome

/-- The choices and counts of the showcase are wrapped and flattened. -/
theorem exists_flattened : ∃ b, rest = .ok b ∧
    (∃ d s arm, mapDecoder? b "ChoiceMap" = some d ∧
      structArm? b "Top" "choiceMap" = some (s, arm) ∧ readsFlat b d s arm = true ∧
      leavesUnset b d s arm = true) ∧
    ∃ d u arm, mapDecoder? b "CountMap" = some d ∧ unionArm? b "Choice" "pairs" = some (u, arm) ∧
      holdsFlat b d u arm = true := by
  obtain ⟨b, hb, haccept⟩ := Showcase.exists_bindings { errorWrapping := false } (fun b ↦
    ((mapDecoder? b "ChoiceMap").any fun d ↦ (structArm? b "Top" "choiceMap").any fun (s, arm) ↦
      readsFlat b d s arm && leavesUnset b d s arm) &&
    ((mapDecoder? b "CountMap").any fun d ↦ (unionArm? b "Choice" "pairs").any fun (u, arm) ↦
      holdsFlat b d u arm)) (by decide +kernel)
  simp only [Bool.and_eq_true, Option.any_eq_true] at haccept
  obtain ⟨⟨d, hd, ⟨s, arm⟩, harm, hreads⟩, c, hc, ⟨u, case⟩, hcase, hholds⟩ := haccept
  exact ⟨b, hb, ⟨d, s, arm, hd, harm, hreads⟩, c, u, case, hc, hcase, hholds⟩

theorem collections_agree_showcase : ∃ b, rest = .ok b ∧
    (∃ d s arm value builder, mapDecoder? b "ChoiceMap" = some d ∧
      structArm? b "Top" "choiceMap" = some (s, arm) ∧
      (b.readElement (.shape d.ident) choicesWhole.element choicesWhole.document).answer =
        .ok value ∧
      (b.fillBy b.readElement s.ident choicesFlat.element choicesFlat.document).answer =
        .ok builder ∧ builder.get? arm.member = some value ∧
      b.EntryRead d choiceAlone
        (b.readEntryBy b.readElement d.entryIdent choiceAlone.element
          choiceAlone.document).answer) ∧
    ∃ d u arm value, mapDecoder? b "CountMap" = some d ∧
      unionArm? b "Choice" "pairs" = some (u, arm) ∧
      (b.readElement (.shape d.ident) countsWhole.element countsWhole.document).answer =
        .ok value ∧
      (b.readElement (.shape u.ident) countsFlat.element countsFlat.document).answer =
        .ok (.variant arm.member value) := by
  obtain ⟨b, hb, ⟨d, s, arm, hd, harm, hreads, -⟩, c, u, case, hc, hcase, hholds⟩ :=
    exists_flattened
  obtain ⟨-, hentries, hcollections, -⟩ := collections_agree (Model.keyed_ofShapes _ _) hb
  simp only [readsFlat, holdsFlat, Bool.and_eq_true, decide_eq_true_eq, Bool.not_eq_true',
    List.isEmpty_eq_false_iff, Option.isSome_iff_exists, Failing.toOption_eq_some] at hreads hholds
  refine ⟨b, hb, ?_, ?_⟩
  · obtain ⟨⟨⟨⟨hflat, hsame⟩, hsome⟩, value, hvalue⟩, builder, hbuilder⟩ := hreads
    obtain ⟨hs, hmem⟩ := mem_of_structArm? harm
    have hwhole : b.CollectionRead (.map d) d.entryPattern (.keyed d.entryIdent) choicesWhole
        (b.readElement (.shape d.ident) choicesWhole.element choicesWhole.document).answer :=
      hcollections _ (mem_of_mapDecoder? hd) _ _ rfl choicesWhole ⟨by decide, by decide⟩
    rw [hvalue] at hwhole
    have hmember := (hwhole.member s hs arm hmem hflat choicesFlat ⟨by decide, by decide⟩
      (same_of_contents hsame)).member builder hbuilder
    rw [if_neg hsome] at hmember
    exact ⟨d, s, arm, value, builder, hd, harm, hvalue, hbuilder, hmember,
      hentries d (mem_of_mapDecoder? hd) _ ⟨by decide, by decide⟩⟩
  · obtain ⟨⟨⟨⟨hflat, hsame⟩, hsome⟩, hone⟩, value, hvalue⟩ := hholds
    obtain ⟨hu, hmem⟩ := mem_of_unionArm? hcase
    have hwhole : b.CollectionRead (.map c) c.entryPattern (.keyed c.entryIdent) countsWhole
        (b.readElement (.shape c.ident) countsWhole.element countsWhole.document).answer :=
      hcollections _ (mem_of_mapDecoder? hc) _ _ rfl countsWhole ⟨by decide, by decide⟩
    rw [hvalue] at hwhole
    have hvariant := hwhole.variant u hu case hmem hflat countsFlat ⟨by decide, by decide⟩
      (same_of_contents hsame) fun x hx other hother ↦ by
        simpa [hother] using List.all_eq_true.mp hone x hx
    simp only [if_neg hsome, Except.toOption, Option.map_some] at hvariant
    exact ⟨c, u, case, value, hc, hcase, hvalue, Failing.toOption_eq_some.mp hvariant⟩

/-- Without entries, a whole map is empty, but a flattened one is not set. -/
theorem empty_map_is_not_set : ∃ b d s arm value, rest = .ok b ∧
    mapDecoder? b "ChoiceMap" = some d ∧ structArm? b "Top" "choiceMap" = some (s, arm) ∧
    arm.action.gathering = .keyed d.entryIdent ∧
    (notesOnly.among fun tag ↦ tag.matchesPattern d.entryPattern) = [] ∧
    arm.items s notesOnly = [] ∧
    (b.readElement (.shape d.ident) notesOnly.element notesOnly.document).answer = .ok (.map []) ∧
    (b.readElement (.struct s.ident (Code.camelIdent "Top")) notesOnly.element
      notesOnly.document).answer = .ok value ∧ value.member? arm.member = none := by
  obtain ⟨b, hb, ⟨d, s, arm, hd, harm, hreads, hunset⟩, -⟩ := exists_flattened
  simp only [readsFlat, leavesUnset, Bool.and_eq_true, Option.any_eq_true, decide_eq_true_eq,
    Option.isNone_iff_eq_none, Failing.toOption_eq_some] at hreads hunset
  obtain ⟨⟨⟨hentries, hitems⟩, hdecoder⟩, value, hvalue, hnone⟩ := hunset
  have hread : (b.readElement (.shape d.ident) notesOnly.element
      notesOnly.document).answer.toOption = some (.map []) := by
    have hwhole := collection_reads (b := b) (f := notesOnly) ⟨by decide, by decide⟩
      (show b.decoder? (DecoderDecl.map d).ident = some (.map d) from hdecoder) rfl
    rw [hentries] at hwhole
    exact hwhole
  exact ⟨b, d, s, arm, value, hb, hd, harm, hreads.1.1.1.1, hentries, hitems,
    Failing.toOption_eq_some.mp hread, hvalue, hnone⟩

end Samples

end WireShapes
