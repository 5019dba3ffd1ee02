import WireShapes.Proofs.Gathering
import WireShapes.Proofs.Readings

/-!
# Decoders read what elements mean

A decoder run on an element gives what the element means, and leaves the document behind it
(`Bindings.faithful_read`).  Each decoder is a fold over children, whose steps are those of
`Proofs.Gathering` once the children are read faithfully; the induction is on the levels that
decoders may still go down, as they call each other.
-/

namespace WireShapes.Bindings

open Wire (Document Element Place Content Reading)
open Code (Ident)

/-! ## Distinct bindings -/

def DecoderDecl.Distinct : DecoderDecl → Prop
  | .struct d => d.Distinct
  | .union d => d.Distinct
  | .list _ | .map _ => True

instance (decl : DecoderDecl) : Decidable decl.Distinct := by
  unfold DecoderDecl.Distinct
  cases decl <;> infer_instance

/-- No decoder has two arms for one name, or two for one member. -/
def Distinct (b : Bindings) : Prop :=
  ∀ decl ∈ b.decoders, decl.Distinct

instance (b : Bindings) : Decidable b.Distinct := by
  unfold Distinct
  infer_instance

variable {b : Bindings} {ident : Ident}

theorem Distinct.struct {d : StructDecoder} (h : b.Distinct)
    (hd : b.decoder? ident = some (.struct d)) : d.Distinct :=
  h _ (List.mem_of_find?_eq_some hd)

theorem Distinct.union {d : UnionDecoder} (h : b.Distinct)
    (hd : b.decoder? ident = some (.union d)) : d.Distinct :=
  h _ (List.mem_of_find?_eq_some hd)

/-! ## Faithful readers -/

/-- A reader reads elements that nest less than so deep as what they mean, and to their end. -/
def Faithful (b : Bindings) (read : Reader) (levels : Nat) : Prop :=
  ∀ {e : Element} {place : Place} {d : Document}, e.Fresh place d → place.inside.depth < levels →
    ∀ source, (read source e).Means d ((b.childAt place).value source) (e.behind place d)

variable {read : Reader} {levels : Nat} {e : Element} {place inner : Place} {d : Document}

/-- A fold over the children of an element of which nothing has been read, as they are seen. -/
theorem foldChildren_seen {σ : Type} {step : σ → Element → Reading σ}
    {meaning : σ → Child → Option σ} {see : Wire.StartTag × Content → Child}
    (hfresh : e.Fresh place d)
    (htakes : ∀ inner, .element inner ∈ place.nodes →
      e.Takes step inner d fun s ↦ meaning s (see (inner.tag, inner.inside))) (s : σ) :
    (e.foldChildren step s).Means d ((place.inside.elements.map see).foldlM meaning s)
      (e.behind place d) := by
  rw [List.foldlM_map]
  exact hfresh.foldChildren htakes s

theorem foldChildren_fresh {σ : Type} {step : σ → Element → Reading σ}
    {meaning : σ → Child → Option σ} (hfresh : e.Fresh place d)
    (htakes : ∀ inner, .element inner ∈ place.nodes →
      e.Takes step inner d fun s ↦ meaning s (b.childAt inner)) (s : σ) :
    (e.foldChildren step s).Means d ((b.children place.inside).foldlM meaning s)
      (e.behind place d) := by
  rw [children_eq_map]
  exact foldChildren_seen hfresh htakes s

/-- A step that reads a child to its end. -/
theorem takes_all {σ : Type} {step : σ → Element → Reading σ} {meaning : σ → Option σ}
    (h : ∀ s, (step s (.opened inner.tag (e.depth + 1))).Means (e.inChild inner d) (meaning s)
      (e.behindChild inner d)) : e.Takes step inner d meaning :=
  fun s ↦ ⟨_, .inr rfl, h s⟩

/-- A step that leaves a child unread. -/
theorem takes_none {σ : Type} {step : σ → Element → Reading σ} {meaning : σ → Option σ}
    (h : ∀ s, (step s (.opened inner.tag (e.depth + 1))).Means (e.inChild inner d) (meaning s)
      (e.inChild inner d)) : e.Takes step inner d meaning :=
  fun s ↦ ⟨_, .inl rfl, h s⟩

/-! ## Entries -/

theorem toOption_declared {α : Type} (ident : Ident) (found : Option α) :
    (declared ident found).toOption = found := by
  cases found <;> rfl

/-- The parts of an entry are read one by one. -/
theorem takes_entryChild {child : Child}
    (hinner : (Element.opened inner.tag (e.depth + 1)).Fresh inner (e.inChild inner d))
    (htag : child.tag = inner.tag) (htext : child.text = inner.inside.ownText)
    (hvalue : ∀ source, (read source (.opened inner.tag (e.depth + 1))).Means (e.inChild inner d)
      (child.value source) (e.behindChild inner d)) (m : MapDecoder) :
    e.Takes (b.entryChild read m) inner d fun parts ↦ entryStep b m parts child := by
  cases hpart : m.part? inner.tag with
  | none =>
    apply takes_none
    intro parts
    simp only [entryChild, entryStep, Element.opened, htag, hpart]
    exact .pure parts _
  | some part =>
    cases part with
    | key =>
      apply takes_all
      intro parts
      simp only [entryChild, entryStep, Element.opened, htag, htext, hpart]
      exact hinner.text.bind_some (Wire.Reading.Means.give _ _).map
    | value =>
      apply takes_all
      intro parts
      simp only [entryChild, entryStep, Element.opened, htag, hpart]
      exact (hvalue m.value.source).map

/-- The entry that its parts make up, by the children they were read from. -/
theorem entryMeaning_of_fold (m : MapDecoder) (children : List Child) (e : Element) :
    b.entryMeaning m children =
      (children.foldlM (entryStep b m) (none, none)).bind fun parts ↦
        (entryOf m e parts).toOption := by
  rw [foldlM_entryStep]
  unfold entryMeaning
  cases (children.filter fun child ↦ m.part? child.tag = some .key).mapM (m := Option)
      fun child ↦ (b.datum m.key.source child.text).toOption with
  | none => rfl
  | some keys =>
    cases (children.filter fun child ↦ m.part? child.tag = some .value).mapM (m := Option)
        fun child ↦ child.value m.value.source with
    | none => rfl
    | some values =>
      cases hkey : keys.getLast? <;> cases hvalue : values.getLast? <;>
        simp [hkey, hvalue, entryOf, Except.toOption]

theorem readEntry_means (hread : b.Faithful read levels) (hfresh : e.Fresh place d)
    (hlevels : place.inside.depth ≤ levels) (m : MapDecoder) :
    (b.readEntry read m e).Means d (b.entryMeaning m (b.children place.inside))
      (e.behind place d) := by
  rw [entryMeaning_of_fold m _ e]
  refine (foldChildren_fresh hfresh (fun inner hinner ↦ ?_) (none, none)).bind ?_
  · have hchild := Element.Fresh.child hinner hfresh.room
    have hdepth := Content.depth_lt_of_mem_nodes hinner
    exact takes_entryChild hchild rfl rfl (hread hchild (by omega)) m
  · exact fun parts _ ↦ .give (entryOf m e parts) _

theorem readEntryBy_means (hread : b.Faithful read levels) (hfresh : e.Fresh place d)
    (hlevels : place.inside.depth ≤ levels) (entry : Ident) :
    (b.readEntryBy read entry e).Means d ((b.childAt place).entry entry) (e.behind place d) := by
  have hmeaning : (b.childAt place).entry entry =
      (declared entry (b.entryDecoder? entry)).toOption.bind fun m ↦
        b.entryMeaning m (b.children place.inside) := by
    rw [toOption_declared]
    rfl
  rw [hmeaning]
  exact (Wire.Reading.Means.give _ _).bind fun m _ ↦ readEntry_means hread hfresh hlevels m

/-! ## Children as they are seen -/

/-- A child is read as it is seen: in each way of reading it, to what it is seen as, to its end. -/
structure ReadAs (b : Bindings) (read : Reader) (e : Element) (inner : Place) (d : Document)
    (child : Child) : Prop where
  tag : child.tag = inner.tag
  value : ∀ source, (read source (.opened inner.tag (e.depth + 1))).Means (e.inChild inner d)
    (child.value source) (e.behindChild inner d)
  entry : ∀ entry, (b.readEntryBy read entry (.opened inner.tag (e.depth + 1))).Means
    (e.inChild inner d) (child.entry entry) (e.behindChild inner d)

theorem Faithful.readAs (hread : b.Faithful read levels) (hfresh : e.Fresh place d)
    (hlevels : place.inside.depth ≤ levels) (hinner : .element inner ∈ place.nodes) :
    b.ReadAs read e inner d (b.childAt inner) where
  tag := rfl
  value source := by
    have hdepth := Content.depth_lt_of_mem_nodes hinner
    exact hread (Element.Fresh.child hinner hfresh.room) (by omega) source
  entry entry := by
    have hdepth := Content.depth_lt_of_mem_nodes hinner
    exact readEntryBy_means hread (Element.Fresh.child hinner hfresh.room) (by omega) entry

variable {child : Child}

/-! ## Structures -/

/-- The members of a structure are read one by one. -/
theorem takes_structChild (hchild : b.ReadAs read e inner d child) (m : StructDecoder) :
    e.Takes (b.structChild read m) inner d fun builder ↦ structStep m builder child := by
  cases harm : armFor StructArm.pattern m.arms inner.tag with
  | none =>
    apply takes_none
    intro builder
    simp only [structChild, structStep, Element.opened, hchild.tag, harm]
    exact .pure builder _
  | some arm =>
    apply takes_all
    intro builder
    simp only [structChild, structStep, Element.opened, hchild.tag, harm]
    cases haction : arm.action with
    | set setter value => exact (hchild.value value.source).map
    | push method item =>
      simp only [StructAction.gathering, Gathering.add, Option.map_map]
      exact (hchild.value item.source).map
    | insert method entry =>
      simp only [StructAction.gathering, Gathering.add, Option.map_map]
      exact (hchild.entry entry).map

/-- A structure of children that are read as they are seen. -/
theorem fill_seen {see : Wire.StartTag × Content → Child} (hfresh : e.Fresh place d)
    (hsee : ∀ inner, .element inner ∈ place.nodes →
      b.ReadAs read e inner d (see (inner.tag, inner.inside)))
    (m : StructDecoder) (start : Builder) :
    (b.fill read m start e).Means d
      ((b.readAttributes place.tag start m.attributes).toOption.bind fun builder ↦
        (place.inside.elements.map see).foldlM (structStep m) builder) (e.behind place d) := by
  unfold fill
  rw [hfresh.start]
  exact (Wire.Reading.Means.give _ _).bind fun builder _ ↦ foldChildren_seen hfresh
    (fun inner hinner ↦ takes_structChild (hsee inner hinner) m) builder

/-- The members of a structure, read into a builder. -/
theorem fill_means (hread : b.Faithful read levels) (hfresh : e.Fresh place d)
    (hlevels : place.inside.depth ≤ levels) (m : StructDecoder) (start : Builder) :
    (b.fill read m start e).Means d
      ((b.readAttributes place.tag start m.attributes).toOption.bind fun builder ↦
        (b.children place.inside).foldlM (structStep m) builder) (e.behind place d) := by
  rw [children_eq_map]
  exact fill_seen hfresh (fun _ ↦ hread.readAs hfresh hlevels) m start

/-! ## Unions, lists and maps -/

theorem takes_unionChild (hchild : b.ReadAs read e inner d child) (m : UnionDecoder) :
    e.Takes (b.unionChild read m) inner d fun held ↦ unionStep m held child := by
  cases harm : armFor UnionArm.pattern m.arms inner.tag with
  | none =>
    apply takes_none
    intro held
    simp only [unionChild, unionStep, Element.opened, hchild.tag, harm]
    exact .pure held _
  | some arm =>
    apply takes_all
    intro held
    simp only [unionChild, unionStep, Element.opened, hchild.tag, harm]
    cases haction : arm.action with
    | set value => exact (hchild.value value.source).map
    | push item =>
      simp only [UnionAction.gathering, Gathering.add, Option.map_map]
      exact (hchild.value item.source).map
    | insert entry =>
      simp only [UnionAction.gathering, Gathering.add, Option.map_map]
      exact (hchild.entry entry).map

/-- A union of children that are read as they are seen. -/
theorem readUnion_seen {see : Wire.StartTag × Content → Child} (hfresh : e.Fresh place d)
    (hsee : ∀ inner, .element inner ∈ place.nodes →
      b.ReadAs read e inner d (see (inner.tag, inner.inside)))
    {m : UnionDecoder} (hdistinct : m.Distinct) :
    (b.readUnion read m e).Means d (m.meaning (place.inside.elements.map see))
      (e.behind place d) := by
  have hmeaning : m.meaning (place.inside.elements.map see) =
      ((place.inside.elements.map see).foldlM (unionStep m) none).map unionValue := by
    rw [UnionDecoder.foldlM_unionStep hdistinct, UnionDecoder.meaning]
    split <;> rfl
  rw [hmeaning]
  exact (foldChildren_seen hfresh
    (fun inner hinner ↦ takes_unionChild (hsee inner hinner) m) none).map

theorem readUnion_means (hread : b.Faithful read levels) (hfresh : e.Fresh place d)
    (hlevels : place.inside.depth ≤ levels) {m : UnionDecoder} (hdistinct : m.Distinct) :
    (b.readUnion read m e).Means d (m.meaning (b.children place.inside)) (e.behind place d) := by
  rw [children_eq_map]
  exact readUnion_seen hfresh (fun _ ↦ hread.readAs hfresh hlevels) hdistinct

/-- A list of children that are read as they are seen. -/
theorem readList_seen {see : Wire.StartTag × Content → Child} (hfresh : e.Fresh place d)
    (hsee : ∀ inner, .element inner ∈ place.nodes →
      b.ReadAs read e inner d (see (inner.tag, inner.inside))) (m : ListDecoder) :
    (readList read m e).Means d (m.meaning (place.inside.elements.map see))
      (e.behind place d) := by
  rw [← foldlM_listStep]
  refine (foldChildren_seen hfresh (fun inner hinner ↦ ?_) []).map
  have hchild := hsee inner hinner
  by_cases hmatch : inner.tag.matchesPattern m.pattern = true
  · apply takes_all
    intro items
    simp only [listStep, Element.opened, hchild.tag, hmatch, if_true]
    exact (hchild.value m.item.source).map
  · apply takes_none
    intro items
    simp only [listStep, Element.opened, hchild.tag, hmatch]
    exact .pure items _

theorem readList_means (hread : b.Faithful read levels) (hfresh : e.Fresh place d)
    (hlevels : place.inside.depth ≤ levels) (m : ListDecoder) :
    (readList read m e).Means d (m.meaning (b.children place.inside)) (e.behind place d) := by
  rw [children_eq_map]
  exact readList_seen hfresh (fun _ ↦ hread.readAs hfresh hlevels) m

/-- A map of children that are read as they are seen. -/
theorem readMap_seen {see : Wire.StartTag × Content → Child} (hfresh : e.Fresh place d)
    (hsee : ∀ inner, .element inner ∈ place.nodes →
      b.ReadAs read e inner d (see (inner.tag, inner.inside))) (m : MapDecoder) :
    (b.readMap read m e).Means d (m.meaning (place.inside.elements.map see))
      (e.behind place d) := by
  rw [← foldlM_mapStep]
  refine (foldChildren_seen hfresh (fun inner hinner ↦ ?_) []).map
  have hchild := hsee inner hinner
  by_cases hmatch : inner.tag.matchesPattern m.entryPattern = true
  · apply takes_all
    intro entries
    simp only [mapStep, Element.opened, hchild.tag, hmatch, if_true]
    exact (hchild.entry m.entryIdent).map
  · apply takes_none
    intro entries
    simp only [mapStep, Element.opened, hchild.tag, hmatch]
    exact .pure entries _

theorem readMap_means (hread : b.Faithful read levels) (hfresh : e.Fresh place d)
    (hlevels : place.inside.depth ≤ levels) (m : MapDecoder) :
    (b.readMap read m e).Means d (m.meaning (b.children place.inside)) (e.behind place d) := by
  rw [children_eq_map]
  exact readMap_seen hfresh (fun _ ↦ hread.readAs hfresh hlevels) m

/-! ## All decoders -/

theorem fillBy_means (hdistinct : b.Distinct) (hread : b.Faithful read levels)
    (hfresh : e.Fresh place d) (hlevels : place.inside.depth ≤ levels) {m : StructDecoder}
    (hm : b.decoder? ident = some (.struct m)) :
    ∃ filled : Option Builder, (b.fillBy read ident e).Means d filled (e.behind place d) ∧
      filled.map Builder.get? = b.structMembers m place.tag (b.children place.inside) := by
  unfold fillBy
  rw [hm]
  exact ⟨_, fill_means hread hfresh hlevels m .empty,
    structMembers_of_fold (hdistinct.struct hm) place.tag (b.children place.inside)⟩

theorem readShape_means (hdistinct : b.Distinct) (hread : b.Faithful read levels)
    (hfresh : e.Fresh place d) (hlevels : place.inside.depth ≤ levels) (decoder : Ident) :
    (b.readShape read decoder e).Means d ((b.childAt place).value (.shape decoder))
      (e.behind place d) := by
  unfold readShape
  simp only [childAt, child, valueOf]
  cases hm : b.decoder? decoder with
  | none => exact .fail _ _ _
  | some decl =>
    cases decl with
    | struct m => exact .fail _ _ _
    | union m => exact readUnion_means hread hfresh hlevels (hdistinct.union hm)
    | list m => exact readList_means hread hfresh hlevels m
    | map m => exact readMap_means hread hfresh hlevels m

theorem build_toOption_by (type : Ident) (builder : Builder) :
    (b.build type builder).toOption =
      (b.structDecl? type).bind fun decl ↦ decl.assembled builder.get? := by
  unfold build
  rw [Failing.toOption_bind, toOption_declared]
  exact congrArg _ (funext fun decl ↦ build_toOption builder decl)

/-- A structure is read into a builder and then built. -/
theorem readStruct_means (hdistinct : b.Distinct) (hread : b.Faithful read levels)
    (hfresh : e.Fresh place d) (hlevels : place.inside.depth ≤ levels) (decoder type : Ident) :
    (b.fillBy read decoder e >>= fun builder ↦ Reading.give (b.build type builder)).Means d
      ((b.childAt place).value (.struct decoder type)) (e.behind place d) := by
  have hfails (hm : ∀ m, b.decoder? decoder ≠ some (.struct m)) :
      (b.fillBy read decoder e).Means d none d := by
    unfold fillBy
    split
    · rename_i m hfound
      exact absurd hfound (hm m)
    · exact .fail _ _ _
  simp only [childAt, child, valueOf]
  cases hm : b.decoder? decoder with
  | none => exact (hfails (by simp [hm])).bind_none
  | some decl =>
    cases decl with
    | union m => exact (hfails (by simp [hm])).bind_none
    | list m => exact (hfails (by simp [hm])).bind_none
    | map m => exact (hfails (by simp [hm])).bind_none
    | struct m =>
      obtain ⟨filled, hfilled, hmembers⟩ := fillBy_means hdistinct hread hfresh hlevels hm
      have hbuild : (b.fillBy read decoder e >>= fun builder ↦
          Reading.give (b.build type builder)).Means d
          (filled.bind fun builder ↦ (b.build type builder).toOption) (e.behind place d) :=
        hfilled.bind fun builder _ ↦ .give (b.build type builder) _
      simp only [build_toOption_by] at hbuild
      cases hdecl : b.structDecl? type with
      | none => simpa [hdecl] using hbuild
      | some decl =>
        dsimp only
        rw [← hmembers]
        simpa [hdecl, Option.bind_map, Function.comp_def] using hbuild

/-- Decoders read what elements mean.  Each level of elements is read with the level below it read
faithfully. -/
theorem faithful_read (hdistinct : b.Distinct) (levels : Nat) :
    b.Faithful (b.read levels) levels := by
  induction levels with
  | zero =>
    intro e place d hfresh hlevels
    exact absurd hlevels (Nat.not_lt_zero _)
  | succ levels ih =>
    intro e place d hfresh hlevels source
    have hbelow : place.inside.depth ≤ levels := Nat.le_of_lt_succ hlevels
    cases source with
    | text source =>
      have hvalue : (b.childAt place).value (.text source) =
          (Value.datum <$> b.datum source place.inside.ownText).toOption :=
        (Failing.toOption_map _ _).symm
      rw [hvalue]
      exact hfresh.text.bind_some (.give _ _)
    | struct decoder type => exact readStruct_means hdistinct ih hfresh hbelow decoder type
    | shape decoder => exact readShape_means hdistinct ih hfresh hbelow decoder

/-! ## Structures -/

/-- What the decoder of a structure does on every element, with enough levels below it: it gives
what the members mean by the tree of the element, and fails exactly where they do not all decode. -/
structure DecodesAs (b : Bindings) (decoder type : Ident) (m : StructDecoder) (decl : StructDecl) :
    Prop where
  struct : b.decoder? decoder = some (.struct m)
  typed : b.structDecl? type = some decl
  /-- A fresh builder is filled with the members. -/
  filled : ∀ (levels : Nat) (e : Element) (place : Place) (d : Document), e.Fresh place d →
    place.inside.depth ≤ levels →
    ((b.fillBy (b.read levels) decoder e) d).answer.toOption.map Builder.get? =
      b.structMembers m place.tag (b.children place.inside)
  /-- Where the structure is nested, it is built of the members. -/
  built : ∀ (levels : Nat) (e : Element) (place : Place) (d : Document), e.Fresh place d →
    place.inside.depth < levels →
    ((b.read levels (.struct decoder type) e) d).answer.toOption =
      (b.structMembers m place.tag (b.children place.inside)).bind decl.assembled
  /-- The usual nesting limit of documents leaves enough levels. -/
  usual : ∀ (e : Element) (place : Place) (d : Document), e.Fresh place d → 0 < e.depth →
    d.maxDepth ≤ Wire.defaultMaxDepth →
    ((b.readElement (.struct decoder type) e) d).answer.toOption =
      (b.structMembers m place.tag (b.children place.inside)).bind decl.assembled
  /-- Nothing but the attributes and the children of members has influence. -/
  alike : ∀ (tag tag' : Wire.StartTag) (children children' : List Child),
    (∀ arm ∈ m.attributes, tag.get? arm.pattern = tag'.get? arm.pattern) →
    (∀ arm ∈ m.arms, arm.found children = arm.found children') →
    b.structMembers m tag children = b.structMembers m tag' children'

/-- A structure that is read and built is what its members make up. -/
theorem read_struct (hdistinct : b.Distinct) {decoder type : Ident} {m : StructDecoder}
    {decl : StructDecl} (hm : b.decoder? decoder = some (.struct m))
    (hdecl : b.structDecl? type = some decl) (hfresh : e.Fresh place d)
    (hlevels : place.inside.depth < levels) :
    ((b.read levels (.struct decoder type) e) d).answer.toOption =
      (b.structMembers m place.tag (b.children place.inside)).bind decl.assembled := by
  rw [(faithful_read hdistinct levels hfresh hlevels (.struct decoder type)).1]
  simp only [childAt, child, valueOf, hm, hdecl]

/-- Distinct bindings decode structures as they mean. -/
theorem decodesAs (hdistinct : b.Distinct) {decoder type : Ident} {m : StructDecoder}
    {decl : StructDecl} (hm : b.decoder? decoder = some (.struct m))
    (hdecl : b.structDecl? type = some decl) : b.DecodesAs decoder type m decl where
  struct := hm
  typed := hdecl
  filled levels e place d hfresh hlevels := by
    obtain ⟨filled, ⟨hanswer, -⟩, hmembers⟩ :=
      fillBy_means hdistinct (faithful_read hdistinct levels) hfresh hlevels hm
    rw [hanswer, hmembers]
  built levels e place d hfresh hlevels := read_struct hdistinct hm hdecl hfresh hlevels
  usual e place d hfresh hdepth hlimit := by
    have hlevels : place.inside.depth < Wire.defaultMaxDepth := by
      have hroom := hfresh.room
      omega
    exact read_struct hdistinct hm hdecl hfresh hlevels
  alike _ _ _ _ := structMembers_congr

end WireShapes.Bindings
