import WireShapes.Proofs.Unions

/-!
# Items of collections

A list or a map is made of the children that are its items.  What stands inside an element of its
own is read as a whole (`Gathering.whole`); what stands among the children of a structure or a union
is gathered child by child.  Both come to the same, but a structure's member is not set, and a union
holds nothing, where there are no items (`get?_foldlM_structStep`, `UnionDecoder.meaning_eq`).  What
an item is depends on its attributes and its content, and for an entry of a map on its content
alone, but not on its name (`whole_congr`).
-/

namespace WireShapes

namespace Wire

/-- An element inside a document with the usual nesting limit. -/
structure Front.Usual (f : Front) : Prop where
  inside : 0 < f.element.depth
  limit : f.document.maxDepth ≤ defaultMaxDepth

theorem Front.Usual.levels {f : Front} (h : f.Usual) : f.place.inside.depth ≤ 127 := by
  have hroom := f.fresh.room
  have hinside := h.inside
  have hlimit := h.limit
  have hmax : defaultMaxDepth = 128 := rfl
  omega

/-- The elements directly inside whose tags are accepted, in order. -/
def Front.among (f : Front) (accepts : StartTag → Bool) : List (StartTag × Content) :=
  f.place.inside.elements.filter fun x ↦ accepts x.1

theorem Content.depth_lt_of_mem_elements {content : Content} {x : StartTag × Content}
    (hx : x ∈ content.elements) : x.2.depth < content.depth := by
  induction content with
  | empty => simp [elements] at hx
  | text _ rest ih => exact ih hx
  | element tag inside rest _ ih =>
    rcases List.mem_cons.mp hx with rfl | hx
    · exact Nat.lt_of_lt_of_le (Nat.lt_succ_self _) (Nat.le_max_left _ _)
    · exact Nat.lt_of_lt_of_le (ih hx) (Nat.le_max_right _ _)

theorem Front.Usual.depth_of_mem_among {f : Front} (h : f.Usual) {accepts : StartTag → Bool}
    {x : StartTag × Content} (hx : x ∈ f.among accepts) : x.2.depth ≤ 127 :=
  Nat.le_of_lt (Nat.lt_of_lt_of_le
    (Content.depth_lt_of_mem_elements (List.mem_of_mem_filter hx)) h.levels)

end Wire

namespace Bindings

open Wire (Document Element Place Content StartTag Front Reading DecodeError)
open Code (Ident)

/-! ## Items of collections -/

namespace Gathering

/-- The value of a whole collection by the children that are its items, if all can be read. -/
def whole : Gathering → List Child → Option Value
  | .last _, _ => none
  | .all source, found => do
    let items ← found.mapM fun child ↦ child.value source
    return .list items
  | .keyed entry, found => do
    let entries ← found.mapM fun child ↦ child.entry entry
    return .map (Table.latest entries)

/-- What counts of an item, whatever its name. -/
def Same : Gathering → StartTag × Content → StartTag × Content → Prop
  | .keyed _, x, y => x.2 = y.2
  | _, x, y => (∀ pattern, x.1.get? pattern = y.1.get? pattern) ∧ x.2 = y.2

/-- A value is the collection of items: the list of all, in order, or the map of the keys of all
entries, each with the value of the last entry that has it. -/
inductive Collected : Gathering → List Child → Value → Prop
  | items {source : Source} {found : List Child} {items : List Value} :
      List.Forall₂ (fun child item ↦ child.value source = some item) found items →
      Collected (.all source) found (.list items)
  | entries {entry : Ident} {found : List Child} {read entries : List (Datum × Value)} :
      List.Forall₂ (fun child pair ↦ child.entry entry = some pair) found read →
      (entries.map Prod.fst).Nodup →
      (∀ key, entries.lookup key = read.reverse.lookup key) →
      Collected (.keyed entry) found (.map entries)

end Gathering

/-- The pattern for the items of a collection, and how they are gathered. -/
def DecoderDecl.collection? : DecoderDecl → Option (String × Gathering)
  | .list d => some (d.pattern, .all d.item.source)
  | .map d => some (d.entryPattern, .keyed d.entryIdent)
  | .struct _ | .union _ => none

variable {b : Bindings} {g : Gathering} {found found' : List Child} {child : Child}

namespace Gathering

theorem whole_isSome_iff (hcollection : ∀ source, g ≠ .last source) :
    (g.whole found).isSome ↔ ∀ child ∈ found, g.decodes child = true := by
  cases g with
  | last source => exact absurd rfl (hcollection source)
  | all source =>
    rw [whole, Failing.mapM_eq_ite (p := (all source).decodes) fun _ ↦ rfl]
    split <;> simp_all
  | keyed entry =>
    rw [whole, Failing.mapM_eq_ite (p := (keyed entry).decodes) fun _ ↦ rfl]
    split <;> simp_all

theorem collected_of_whole {value : Value} (h : g.whole found = some value) :
    g.Collected found value := by
  cases g with
  | last source => simp [whole] at h
  | all source =>
    obtain ⟨items, hitems, hvalue⟩ := Option.bind_eq_some_iff.mp h
    obtain rfl := Option.some.inj hvalue
    exact .items ((Failing.mapM_eq_some_iff fun _ _ _ ↦ Iff.rfl).mp hitems)
  | keyed entry =>
    obtain ⟨entries, hentries, hvalue⟩ := Option.bind_eq_some_iff.mp h
    obtain rfl := Option.some.inj hvalue
    exact .entries ((Failing.mapM_eq_some_iff fun _ _ _ ↦ Iff.rfl).mp hentries)
      (Table.nodup_latest entries) (Table.lookup_latest entries)

/-- A member is gathered as a whole collection is, if there is anything to gather. -/
theorem gather_eq (hcollection : ∀ source, g ≠ .last source)
    (hdecodes : ∀ child ∈ found, g.decodes child = true) :
    g.gather found = if found.isEmpty then none else g.whole found := by
  have hall := List.all_eq_true.mpr hdecodes
  cases g with
  | last source => exact absurd rfl (hcollection source)
  | all source =>
    rw [whole, Failing.mapM_eq_ite (p := (all source).decodes) fun _ ↦ rfl, if_pos hall]
    rfl
  | keyed entry =>
    rw [whole, Failing.mapM_eq_ite (p := (keyed entry).decodes) fun _ ↦ rfl, if_pos hall]
    rfl

end Gathering

/-! ## Flattened members of structures -/

section Structures

variable {d : StructDecoder} {arm : StructArm} {start result : Builder} {children : List Child}

/-- Children can be taken into a builder just if each of them can be read. -/
theorem isSome_foldlM_structStep (d : StructDecoder) (start : Builder) (children : List Child) :
    (children.foldlM (structStep d) start).isSome ↔ ∀ child ∈ children, ∀ arm,
      armFor StructArm.pattern d.arms child.tag = some arm →
        arm.action.gathering.decodes child = true := by
  induction children generalizing start with
  | nil => simp
  | cons child rest ih =>
    rw [List.foldlM_cons, List.forall_mem_cons, structStep]
    cases harm : armFor StructArm.pattern d.arms child.tag with
    | none => simpa using ih start
    | some arm =>
      have hadd : (arm.action.gathering.add (start.get? arm.member) child).isSome ↔
          arm.action.gathering.decodes child = true := Gathering.add_isSome_iff _
      cases hvalue : arm.action.gathering.add (start.get? arm.member) child with
      | none =>
        rw [hvalue] at hadd
        refine iff_of_false (by simp [hvalue]) fun hall ↦ ?_
        simpa using hadd.mpr (hall.1 arm rfl)
      | some value =>
        rw [hvalue] at hadd
        simpa [hvalue, hadd.mp rfl] using ih (start.set arm.member (some value))

/-- A member is gathered of the children that its arm is for. -/
theorem get?_foldlM_structStep (harm : arm ∈ d.arms) (hnodup : (d.arms.map StructArm.member).Nodup)
    (hstart : start.get? arm.member = none)
    (hresult : children.foldlM (structStep d) start = some result) :
    result.get? arm.member = arm.action.gathering.gather
      (children.filter fun child ↦ armFor StructArm.pattern d.arms child.tag = some arm) := by
  induction children using List.reverseRecOn generalizing result with
  | nil =>
    obtain rfl : start = result := by simpa using hresult
    rw [hstart]
    cases arm.action.gathering <;> rfl
  | append_singleton children child ih =>
    rw [List.foldlM_append] at hresult
    obtain ⟨between, hbetween, hlast⟩ := Option.bind_eq_some_iff.mp hresult
    have hbefore := ih hbetween
    have hstep : structStep d between child = some result := by simpa using hlast
    unfold structStep at hstep
    rw [List.filter_append]
    cases hother : armFor StructArm.pattern d.arms child.tag with
    | none =>
      obtain rfl : between = result := by simpa [hother] using hstep
      simpa [hother] using hbefore
    | some other =>
      simp only [hother] at hstep
      obtain ⟨value, hvalue, rfl⟩ := Option.map_eq_some_iff.mp hstep
      rw [Builder.get?_set]
      by_cases heq : other = arm
      · subst heq
        have hchild :=
          (other.action.gathering.add_isSome_iff _).mp (Option.isSome_of_eq_some hvalue)
        rw [hbefore, Gathering.add_gather hchild] at hvalue
        simp [hother, hvalue]
      · have hmember : arm.member ≠ other.member := fun hmember ↦
          heq (List.inj_on_of_nodup_map hnodup (List.mem_of_find?_eq_some hother) harm hmember.symm)
        simpa [hother, hmember, heq] using hbefore

/-- Members that attributes do not give stay as they were. -/
theorem readAttributes_get? {b : Bindings} {tag : StartTag} {attributes : List AttributeArm}
    {start result : Builder} (h : b.readAttributes tag start attributes = .ok result)
    {name : String} (hname : name ∉ attributes.map AttributeArm.member) :
    result.get? name = start.get? name := by
  induction attributes generalizing start with
  | nil => rw [← Except.ok.inj h]
  | cons arm rest ih =>
    obtain ⟨hfirst, hrest⟩ := not_or.mp fun hmem ↦ hname (List.mem_cons.mpr hmem)
    unfold readAttributes at h
    split at h
    · exact ih h hrest
    · obtain ⟨value, -, h⟩ := Failing.bind_eq_ok.mp h
      rw [ih h hrest, Builder.get?_set, if_neg hfirst]

/-- A structure has the members that its fields are for. -/
theorem member?_assembled {decl : StructDecl} {member : String → Option Value} {value : Value}
    (h : decl.assembled member = some value) {name : String}
    (hname : name ∈ decl.fields.map Field.member) : value.member? name = member name := by
  have hfields : (decl.fields.filterMap fun field ↦ (member field.member).map fun value ↦
      (field.member, value)) = (decl.fields.map Field.member).filterMap fun name ↦
        (member name).map fun value ↦ (name, value) := by
    rw [List.filterMap_map]
    rfl
  unfold StructDecl.assembled at h
  obtain ⟨-, h⟩ := Option.ite_none_right_eq_some.mp h
  obtain rfl := Option.some.inj h
  rw [Value.member?, hfields, Table.lookup_filterMap, if_pos hname]

end Structures

/-! ## Flattened members of unions -/

namespace UnionDecoder

variable {d : UnionDecoder} {arm : UnionArm} {children : List Child}

/-- Where all known children are one member's, they are those that its arm is for. -/
theorem known_of_one (hone : ∀ child ∈ children, ∀ other,
    armFor UnionArm.pattern d.arms child.tag = some other → other = arm) :
    d.known children = (children.filter fun child ↦
      armFor UnionArm.pattern d.arms child.tag = some arm).map (Prod.mk arm) := by
  unfold known
  induction children with
  | nil => rfl
  | cons child rest ih =>
    obtain ⟨hchild, hrest⟩ := List.forall_mem_cons.mp hone
    rw [List.filterMap_cons, ih hrest, List.filter_cons]
    cases hother : armFor UnionArm.pattern d.arms child.tag with
    | none => simp
    | some other =>
      obtain rfl := hchild other hother
      simp

/-- What is held of children of one member is gathered of all of them. -/
theorem held_of_one (arm : UnionArm) (found : List Child) :
    held (found.map (Prod.mk arm)) = (arm.action.gathering.gather found).map fun value ↦
      (arm.member, value) := by
  have hrun : (found.map (Prod.mk arm)).rtakeWhile (fun k ↦ k.1.member = arm.member) =
      found.map (Prod.mk arm) := by
    rw [List.rtakeWhile_eq_self_iff]
    simp
  cases hlast : found.getLast? with
  | none =>
    obtain rfl := List.getLast?_eq_none_iff.mp hlast
    cases arm.action.gathering <;> rfl
  | some child => simp [held, hlast, hrun, Function.comp_def]

/-- A union of children of one flattened member holds the whole collection, if there is any. -/
theorem meaning_eq (hcollection : ∀ source, arm.action.gathering ≠ .last source)
    (hone : ∀ child ∈ children, ∀ other,
      armFor UnionArm.pattern d.arms child.tag = some other → other = arm) :
    d.meaning children = (arm.action.gathering.whole (children.filter fun child ↦
      armFor UnionArm.pattern d.arms child.tag = some arm)).map fun value ↦
        if (children.filter fun child ↦
            armFor UnionArm.pattern d.arms child.tag = some arm).isEmpty then .unknownVariant
        else .variant arm.member value := by
  unfold meaning
  rw [known_of_one hone, held_of_one, List.all_map]
  generalize children.filter (fun child ↦
    armFor UnionArm.pattern d.arms child.tag = some arm) = found
  have hwhole : (arm.action.gathering.whole found).isSome ↔
      ∀ child ∈ found, arm.action.gathering.decodes child = true :=
    Gathering.whole_isSome_iff hcollection
  by_cases hall : found.all arm.action.gathering.decodes = true
  · have hdecodes := List.all_eq_true.mp hall
    obtain ⟨value, hvalue⟩ := Option.isSome_iff_exists.mp (hwhole.mpr hdecodes)
    rw [Gathering.gather_eq hcollection hdecodes, hvalue]
    cases hempty : found.isEmpty <;> simp [Function.comp_def, hall, unionValue]
  · have hnone : arm.action.gathering.whole found = none := by
      rw [← Option.not_isSome_iff_eq_none, hwhole]
      exact fun hdecodes ↦ hall (List.all_eq_true.mpr hdecodes)
    rw [hnone]
    simp [Function.comp_def, hall]

end UnionDecoder

/-! ## Items on their own -/

section Items

variable {f : Front} {x y : StartTag × Content}

theorem readAlike_readElement (b : Bindings) : ReadAlike 127 b.readElement b.readElement :=
  b.readAlike_read (by decide) (by decide)

/-- A child is read as it would be on its own. -/
theorem sees_alone (hf : f.Usual) (inner : Wire.Place) (hinner : .element inner ∈ f.place.nodes) :
    b.ReadAs b.readElement f.element inner f.document (b.alone (inner.tag, inner.inside)) :=
  readAs_alone b.readAlike_readElement f.fresh hf.levels hinner

/-- The children that are accepted, as they are read. -/
theorem map_among (accepts : StartTag → Bool) (f : Front) :
    (f.among accepts).map b.alone =
      (f.place.inside.elements.map b.alone).filter fun child ↦ accepts child.tag := by
  rw [List.filter_map]
  rfl

/-- An entry is read by its parts alone. -/
theorem readEntry_toOption (read : Reader) (d : MapDecoder) (e : Element) (doc : Document) :
    (b.readEntry read d e doc).answer.toOption =
      (e.foldChildren (b.entryChild read d) (none, none) doc).answer.toOption.bind fun parts ↦
        parts.1.bind fun key ↦ parts.2.map fun value ↦ (key, value) := by
  unfold readEntry
  rw [Reading.bind_give, Failing.toOption_bind]
  congr 1
  funext parts
  rcases parts with ⟨- | key, - | value⟩ <;> rfl

/-- An entry is read by the decoder that is found. -/
theorem readEntryBy_answer {read : Reader} {entry : Ident} {d : MapDecoder}
    (hd : b.entryDecoder? entry = some d) (e : Element) (doc : Document) :
    (b.readEntryBy read entry e doc).answer = (b.readEntry read d e doc).answer := by
  unfold readEntryBy
  rw [hd]
  rfl

/-- An entry is read by its content alone. -/
theorem entry_congr (hdepth : x.2.depth ≤ 127) (hsame : x.2 = y.2) (entry : Ident) :
    (b.alone x).entry entry = (b.alone y).entry entry := by
  have halike : (Front.alone x).place.inside.Alike (Front.alone y).place.inside := by
    show x.2.Alike y.2
    rw [hsame]
    exact .refl _
  show Except.toOption _ = Except.toOption _
  cases hd : b.entryDecoder? entry with
  | none =>
    unfold readEntryBy
    rw [hd]
    rfl
  | some d =>
    rw [readEntryBy_answer hd, readEntryBy_answer hd, readEntry_toOption, readEntry_toOption,
      (same_entryParts b.readAlike_readElement d halike hdepth).answer]

/-- A value is read by attributes and content alone. -/
theorem value_congr (hdepth : x.2.depth ≤ 127)
    (hattributes : ∀ pattern, x.1.get? pattern = y.1.get? pattern) (hsame : x.2 = y.2)
    (source : Source) : (b.alone x).value source = (b.alone y).value source := by
  have halike : (Front.alone x).place.inside.Alike (Front.alone y).place.inside := by
    show x.2.Alike y.2
    rw [hsame]
    exact .refl _
  have hread : ReadAlike 127 (b.read 127) (b.read 127) := b.readAlike_read (by decide) (by decide)
  have hlevel : b.readElement = b.level (b.read 127) := b.read_succ 127
  show Except.toOption _ = Except.toOption _
  rw [hlevel, (same_level hread hattributes halike hdepth source).answer]

/-- Collections of the same items are the same. -/
theorem whole_congr {items items' : List (StartTag × Content)}
    (hdepth : ∀ x ∈ items, x.2.depth ≤ 127) (hsame : List.Forall₂ g.Same items items') :
    g.whole (items.map b.alone) = g.whole (items'.map b.alone) := by
  have hitems := List.forall₂_and_left _ _ |>.mpr ⟨hdepth, hsame⟩
  have hmap {α : Type} (f : Child → Option α) (items : List (StartTag × Content)) :
      (items.map b.alone).mapM f = (items.map fun x ↦ f (b.alone x)).mapM id := by
    simp [List.mapM_map, Function.comp_def]
  cases g with
  | last source => rfl
  | all source =>
    have hvalues : items.map (fun x ↦ (b.alone x).value source) =
        items'.map fun x ↦ (b.alone x).value source :=
      Failing.map_eq_map hitems fun h ↦ value_congr h.1 h.2.1 h.2.2 source
    rw [Gathering.whole, Gathering.whole, hmap, hmap, hvalues]
  | keyed entry =>
    have hentries : items.map (fun x ↦ (b.alone x).entry entry) =
        items'.map fun x ↦ (b.alone x).entry entry :=
      Failing.map_eq_map hitems fun h ↦ entry_congr h.1 h.2 entry
    rw [Gathering.whole, Gathering.whole, hmap, hmap, hentries]

end Items

end Bindings

end WireShapes
