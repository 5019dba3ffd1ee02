import WireShapes.Proofs.Decoding

/-!
# What decoders pass over

A `Role` is how an element is read.  It says which names are looked for among the children and how
a child with such a name is read in turn (`Role.slots`), and which attributes are looked at.  A
content is `Extended` if it differs from another only where its role does not look: it has elements
of other names, attributes of other names, or a text in several parts.  An element read in the same
role then means the same (`same_of_extended`).  Of two runs of a decoder, one child of the longer is
either the next child of the shorter or leaves what was read so far as it is, so both runs are one
fold.
-/

namespace WireShapes.Bindings

open Wire (StartTag Content)
open Code (Ident)
open Xml (Name)

/-! ## Roles -/

/-- How an element is read. -/
inductive Role
  /-- Not at all. -/
  | passed
  | text
  /-- By the decoder of a structure. -/
  | struct (decoder : Ident)
  /-- By the decoder of a union, list or map. -/
  | shape (decoder : Ident)
  /-- By the entry decoder of a map. -/
  | entry (decoder : Ident)
  /-- As a response; the decoder of a structure reads each result in it. -/
  | response (decoder : Ident) (result : String)
deriving DecidableEq

def Source.role : Source → Role
  | .text _ => .text
  | .struct decoder _ => .struct decoder
  | .shape decoder => .shape decoder

def Gathering.role : Gathering → Role
  | .last source | .all source => source.role
  | .keyed entry => .entry entry

namespace Role

variable (b : Bindings)

/-- The patterns looked for among the children of an element, the first match first, with the role
of a child that satisfies one. -/
def slots : Role → List (String × Role)
  | .passed | .text => []
  | .struct decoder =>
    match b.decoder? decoder with
    | some (.struct d) => d.arms.map fun arm ↦ (arm.pattern, arm.action.gathering.role)
    | _ => []
  | .shape decoder =>
    match b.decoder? decoder with
    | some (.union d) => d.arms.map fun arm ↦ (arm.pattern, arm.action.gathering.role)
    | some (.list d) => [(d.pattern, d.item.source.role)]
    | some (.map d) => [(d.entryPattern, .entry d.entryIdent)]
    | _ => []
  | .entry decoder =>
    match b.entryDecoder? decoder with
    | some d => [(d.keyPattern, .text), (d.valuePattern, d.value.source.role)]
    | none => []
  | .response decoder result => [(result, .struct decoder)]

/-- The patterns looked for among the children of an element. -/
def patterns (role : Role) : List String :=
  (role.slots b).map Prod.fst

/-- How a child is read: a child whose name no pattern matches is passed over. -/
def child (role : Role) (name : Name) : Role :=
  (((role.slots b).find? fun slot ↦ name.matchesPattern slot.1).map Prod.snd).getD .passed

/-- The patterns that the attributes of an element are looked up by. -/
def attributes : Role → List String
  | .struct decoder =>
    match b.decoder? decoder with
    | some (.struct d) => d.attributes.map AttributeArm.pattern
    | _ => []
  | _ => []

end Role

/-! ## Contents with more in them -/

/-- The second content has no less in it than the first, and nothing more that the role looks for:
an element whose name no pattern matches may be added, a text may come in parts, and the tags and
contents of elements may differ likewise where the roles of the elements do not look. -/
inductive Extended (b : Bindings) : Role → Content → Content → Prop
  | empty {role : Role} : Extended b role .empty .empty
  | text {role : Role} {rest more : Content} (text : String) : Extended b role rest more →
      Extended b role (.text text rest) (.text text more)
  | parted {role : Role} {rest more : Content} (first second : String) :
      Extended b role (.text first (.text second rest)) more →
      Extended b role (.text (first ++ second) rest) more
  | element {role : Role} {tag tag' : StartTag} {inside inside' rest more : Content} :
      tag'.name = tag.name →
      (∀ pattern ∈ (role.child b tag.name).attributes b, tag'.get? pattern = tag.get? pattern) →
      Extended b (role.child b tag.name) inside inside' → Extended b role rest more →
      Extended b role (.element tag inside rest) (.element tag' inside' more)
  | extra {role : Role} {rest more : Content} (tag : StartTag) (inside : Content) :
      (∀ pattern ∈ role.patterns b, tag.matchesPattern pattern = false) →
      Extended b role rest more → Extended b role rest (.element tag inside more)

namespace Extended

variable {b : Bindings} {role : Role} {content more : Content}

protected theorem refl (b : Bindings) (role : Role) (content : Content) :
    Extended b role content content := by
  induction content generalizing role with
  | empty => exact .empty
  | text text rest ih => exact .text text (ih role)
  | element tag inside rest ihInside ihRest =>
    exact .element rfl (fun _ _ ↦ rfl) (ihInside _) (ihRest role)

theorem ownText (h : Extended b role content more) : more.ownText = content.ownText := by
  induction h with
  | empty => rfl
  | text text _ ih => rw [Content.ownText, Content.ownText, ih]
  | parted first second _ ih => rw [ih, Content.ownText, Content.ownText, Content.ownText,
      String.append_assoc]
  | element _ _ _ _ _ ih => rw [Content.ownText, Content.ownText, ih]
  | extra tag inside _ _ ih => rw [Content.ownText, ih]

theorem depth_le (h : Extended b role content more) : content.depth ≤ more.depth := by
  induction h with
  | empty => exact Nat.le_refl _
  | text _ _ ih => exact ih
  | parted _ _ _ ih => exact ih
  | element _ _ _ _ ihInside ihRest =>
    simp only [Content.depth]
    omega
  | extra tag inside _ _ ih => exact Nat.le_trans ih (Nat.le_max_right _ _)

end Extended

/-! ## Elements with the same meaning -/

variable {b : Bindings} {role : Role} {x y : StartTag × Content}

/-- What the decoder of a structure fills a fresh builder with. -/
def filled (b : Bindings) (decoder : Ident) (x : StartTag × Content) : Option Builder :=
  match b.decoder? decoder with
  | some (.struct d) => (b.readAttributes x.1 .empty d.attributes).toOption.bind fun builder ↦
      (b.children x.2).foldlM (structStep d) builder
  | _ => none

/-- Two elements are the same for those who read them in a role. -/
structure Same (b : Bindings) (role : Role) (x y : StartTag × Content) : Prop where
  name : y.1.name = x.1.name
  text : y.2.ownText = x.2.ownText
  value : ∀ source, Source.role source = role → (b.seen y).value source = (b.seen x).value source
  entry : ∀ ident, role = .entry ident → (b.seen y).entry ident = (b.seen x).entry ident
  filled : ∀ decoder, role = .struct decoder → b.filled decoder y = b.filled decoder x

/-- The elements of one list are those of the other, but for some that a role does not look for. -/
inductive Alike (b : Bindings) (role : Role) :
    List (StartTag × Content) → List (StartTag × Content) → Prop
  | nil : Alike b role [] []
  | cons {x y : StartTag × Content} {xs ys : List (StartTag × Content)} :
      Same b (role.child b x.1.name) x y → Alike b role xs ys → Alike b role (x :: xs) (y :: ys)
  | extra {y : StartTag × Content} {xs ys : List (StartTag × Content)} :
      (∀ pattern ∈ role.patterns b, y.1.matchesPattern pattern = false) →
      Alike b role xs ys → Alike b role xs (y :: ys)

/-- A fold that does the same at the same elements and passes over the others. -/
theorem Alike.foldlM_eq {σ : Type} {step : σ → StartTag × Content → Option σ}
    {xs ys : List (StartTag × Content)} (h : Alike b role xs ys)
    (hsame : ∀ s x y, Same b (role.child b x.1.name) x y → step s y = step s x)
    (hextra : ∀ s y, (∀ pattern ∈ role.patterns b, y.1.matchesPattern pattern = false) →
      step s y = some s) (s : σ) : ys.foldlM step s = xs.foldlM step s := by
  induction h generalizing s with
  | nil => rfl
  | cons hxy _ ih =>
    rw [List.foldlM_cons, List.foldlM_cons, hsame s _ _ hxy]
    exact congrArg _ (funext ih)
  | extra hnone _ ih =>
    rw [List.foldlM_cons, hextra s _ hnone]
    exact ih s

/-- The same of a fold over children. -/
theorem Alike.foldlM_children {σ : Type} {step : σ → Child → Option σ} {content more : Content}
    (h : Alike b role content.elements more.elements)
    (hsame : ∀ s x y, Same b (role.child b x.1.name) x y → step s (b.seen y) = step s (b.seen x))
    (hextra : ∀ s y, (∀ pattern ∈ role.patterns b, y.1.matchesPattern pattern = false) →
      step s (b.seen y) = some s) (s : σ) :
    (b.children more).foldlM step s = (b.children content).foldlM step s := by
  rw [children_eq_map, children_eq_map, List.foldlM_map, List.foldlM_map]
  exact h.foldlM_eq hsame hextra s

/-! ### Steps of the decoders -/

theorem Same.matchesPattern (h : Same b role x y) (pattern : String) :
    y.1.matchesPattern pattern = x.1.matchesPattern pattern := by
  unfold StartTag.matchesPattern
  rw [h.name]

theorem Same.armFor {α : Type} (h : Same b role x y) (pattern : α → String) (arms : List α) :
    armFor pattern arms y.1 = armFor pattern arms x.1 := by
  unfold Bindings.armFor
  simp only [h.matchesPattern]

/-- One more child adds the same to a member. -/
theorem Same.add {g : Gathering} (h : Same b g.role x y) (held : Option Value) :
    g.add held (b.seen y) = g.add held (b.seen x) := by
  cases g with
  | last source => exact h.value source rfl
  | all source => rw [Gathering.add, Gathering.add, h.value source rfl]
  | keyed entry => rw [Gathering.add, Gathering.add, h.entry entry rfl]

/-- The arm for a child says how the child is read. -/
theorem child_of_armFor {α : Type} {pattern : α → String} {gathering : α → Gathering}
    {arms : List α} {tag : StartTag} {arm : α}
    (hslots : role.slots b = arms.map fun arm ↦ (pattern arm, (gathering arm).role))
    (harm : armFor pattern arms tag = some arm) :
    role.child b tag.name = (gathering arm).role := by
  have hfind : arms.find? ((fun slot ↦ tag.name.matchesPattern slot.1) ∘
      fun arm ↦ (pattern arm, (gathering arm).role)) = some arm := harm
  rw [Role.child, hslots, List.find?_map, hfind]
  rfl

/-- No arm is for a child that no pattern matches. -/
theorem armFor_of_extra {α : Type} {pattern : α → String} {gathering : α → Gathering}
    {arms : List α} {tag : StartTag}
    (hslots : role.slots b = arms.map fun arm ↦ (pattern arm, (gathering arm).role))
    (hnone : ∀ pattern ∈ role.patterns b, tag.matchesPattern pattern = false) :
    armFor pattern arms tag = none := by
  apply List.find?_eq_none.mpr
  intro arm harm
  have hmem : pattern arm ∈ role.patterns b := by
    rw [Role.patterns, hslots, List.map_map]
    exact List.mem_map_of_mem harm
  simp [hnone _ hmem]

section Steps

variable {content more : Content}

theorem Alike.structStep_eq {d : StructDecoder} (h : Alike b role content.elements more.elements)
    (hslots : role.slots b = d.arms.map fun arm ↦ (arm.pattern, arm.action.gathering.role))
    (builder : Builder) :
    (b.children more).foldlM (structStep d) builder =
      (b.children content).foldlM (structStep d) builder := by
  refine h.foldlM_children (fun s x y hxy ↦ ?_) (fun s y hnone ↦ ?_) builder
  · simp only [structStep, seen_tag, hxy.armFor]
    cases harm : armFor StructArm.pattern d.arms x.1 with
    | none => rfl
    | some arm =>
      rw [child_of_armFor hslots harm] at hxy
      dsimp only
      rw [hxy.add]
  · simp only [structStep, seen_tag, armFor_of_extra hslots hnone]

theorem Alike.unionStep_eq {d : UnionDecoder} (h : Alike b role content.elements more.elements)
    (hslots : role.slots b = d.arms.map fun arm ↦ (arm.pattern, arm.action.gathering.role))
    (held : Held) :
    (b.children more).foldlM (unionStep d) held =
      (b.children content).foldlM (unionStep d) held := by
  refine h.foldlM_children (fun s x y hxy ↦ ?_) (fun s y hnone ↦ ?_) held
  · simp only [unionStep, seen_tag, hxy.armFor]
    cases harm : armFor UnionArm.pattern d.arms x.1 with
    | none => rfl
    | some arm =>
      rw [child_of_armFor hslots harm] at hxy
      dsimp only
      rw [hxy.add]
  · simp only [unionStep, seen_tag, armFor_of_extra hslots hnone]

/-- A child is read as the one slot says whose pattern it satisfies. -/
theorem child_of_slot {pattern : String} {inner : Role} {name : Name}
    (hslots : role.slots b = [(pattern, inner)]) (hmatch : name.matchesPattern pattern = true) :
    role.child b name = inner := by
  simp [Role.child, hslots, hmatch]

theorem Alike.listStep_eq {d : ListDecoder} (h : Alike b role content.elements more.elements)
    (hslots : role.slots b = [(d.pattern, d.item.source.role)]) (items : List Value) :
    (b.children more).foldlM (listStep d) items =
      (b.children content).foldlM (listStep d) items := by
  refine h.foldlM_children (fun s x y hxy ↦ ?_) (fun s y hnone ↦ ?_) items
  · have hpattern := hxy.matchesPattern d.pattern
    by_cases hmatch : x.1.matchesPattern d.pattern = true
    · rw [child_of_slot hslots hmatch] at hxy
      simp [listStep, hpattern, hmatch, hxy.value _ rfl]
    · simp [listStep, hpattern, hmatch]
  · simp [listStep, hnone d.pattern (by simp [Role.patterns, hslots])]

theorem Alike.mapStep_eq {d : MapDecoder} (h : Alike b role content.elements more.elements)
    (hslots : role.slots b = [(d.entryPattern, .entry d.entryIdent)])
    (entries : List (Datum × Value)) :
    (b.children more).foldlM (mapStep d) entries =
      (b.children content).foldlM (mapStep d) entries := by
  refine h.foldlM_children (fun s x y hxy ↦ ?_) (fun s y hnone ↦ ?_) entries
  · have hpattern := hxy.matchesPattern d.entryPattern
    by_cases hmatch : x.1.matchesPattern d.entryPattern = true
    · rw [child_of_slot hslots hmatch] at hxy
      simp [mapStep, hpattern, hmatch, hxy.entry _ rfl]
    · simp [mapStep, hpattern, hmatch]
  · simp [mapStep, hnone d.entryPattern (by simp [Role.patterns, hslots])]

theorem Alike.entryStep_eq {d : MapDecoder} (h : Alike b role content.elements more.elements)
    (hslots : role.slots b = [(d.keyPattern, .text), (d.valuePattern, d.value.source.role)])
    (parts : EntryParts) :
    (b.children more).foldlM (entryStep b d) parts =
      (b.children content).foldlM (entryStep b d) parts := by
  refine h.foldlM_children (fun s x y hxy ↦ ?_) (fun s y hnone ↦ ?_) parts
  · have hpart : d.part? y.1 = d.part? x.1 := by simp only [MapDecoder.part?, hxy.matchesPattern]
    simp only [entryStep, seen_tag, seen_text, hpart]
    cases hfound : d.part? x.1 with
    | none => rfl
    | some part =>
      cases part with
      | key => simp only [hxy.text]
      | value =>
        have hrole : role.child b x.1.name = d.value.source.role := by
          unfold MapDecoder.part? StartTag.matchesPattern at hfound
          rw [Role.child, hslots]
          split at hfound <;> simp_all
        rw [hrole] at hxy
        dsimp only
        rw [hxy.value _ rfl]
  · have hkey := hnone d.keyPattern (by simp [Role.patterns, hslots])
    have hvalue := hnone d.valuePattern (by simp [Role.patterns, hslots])
    simp [entryStep, MapDecoder.part?, hkey, hvalue]

end Steps

/-! ### Whole elements -/

/-- A structure is what its builder was filled with. -/
theorem value_struct (hdistinct : b.Distinct) (decoder type : Ident) (x : StartTag × Content) :
    (b.seen x).value (.struct decoder type) =
      (b.filled decoder x).bind fun builder ↦ (b.build type builder).toOption := by
  simp only [seen, child, valueOf, filled, build_toOption_by]
  cases hm : b.decoder? decoder with
  | none => rfl
  | some decl =>
    cases decl with
    | union d => rfl
    | list d => rfl
    | map d => rfl
    | struct d =>
      have hmembers := structMembers_of_fold (hdistinct.struct hm) x.1 (b.children x.2) (b := b)
      cases hdecl : b.structDecl? type with
      | none => simp
      | some decl =>
        dsimp only
        rw [← hmembers, Option.bind_map]
        rfl

variable {role : Role}

theorem filled_eq (hattributes : ∀ pattern ∈ role.attributes b, y.1.get? pattern = x.1.get? pattern)
    (halike : Alike b role x.2.elements y.2.elements) {decoder : Ident}
    (hrole : role = .struct decoder) : b.filled decoder y = b.filled decoder x := by
  subst hrole
  unfold filled
  cases hm : b.decoder? decoder with
  | none => rfl
  | some decl =>
    cases decl with
    | union d => rfl
    | list d => rfl
    | map d => rfl
    | struct d =>
      have hread : b.readAttributes y.1 .empty d.attributes =
          b.readAttributes x.1 .empty d.attributes :=
        readAttributes_congr (fun arm harm ↦ hattributes _ (by
          simpa [Role.attributes, hm] using ⟨arm, harm, rfl⟩)) _
      dsimp only
      rw [hread]
      exact congrArg _ (funext fun builder ↦
        halike.structStep_eq (by simp [Role.slots, hm]) builder)

/-- A union, list or map looks at nothing but the children that its decoder looks for. -/
theorem value_shape_eq (hdistinct : b.Distinct) {decoder : Ident}
    (halike : Alike b (.shape decoder) x.2.elements y.2.elements) :
    (b.seen y).value (.shape decoder) = (b.seen x).value (.shape decoder) := by
  simp only [seen, child, valueOf]
  cases hm : b.decoder? decoder with
  | none => rfl
  | some decl =>
    cases decl with
    | struct d => rfl
    | union d =>
      have hmeaning (children : List Child) :
          d.meaning children = (children.foldlM (unionStep d) none).map unionValue := by
        rw [UnionDecoder.foldlM_unionStep (hdistinct.union hm), UnionDecoder.meaning]
        split <;> rfl
      dsimp only
      rw [hmeaning, hmeaning, halike.unionStep_eq (by simp [Role.slots, hm])]
    | list d =>
      dsimp only
      rw [← foldlM_listStep, ← foldlM_listStep, halike.listStep_eq (by simp [Role.slots, hm])]
    | map d =>
      dsimp only
      rw [← foldlM_mapStep, ← foldlM_mapStep, halike.mapStep_eq (by simp [Role.slots, hm])]

/-- An entry looks at nothing but its keys and values. -/
theorem entry_eq {ident : Ident} (halike : Alike b (.entry ident) x.2.elements y.2.elements) :
    (b.seen y).entry ident = (b.seen x).entry ident := by
  simp only [seen, child, entryBy]
  cases hm : b.entryDecoder? ident with
  | none => rfl
  | some d =>
    simp only [Option.bind_some]
    rw [entryMeaning_of_fold d _ (.opened y.1 0), entryMeaning_of_fold d _ (.opened y.1 0),
      halike.entryStep_eq (by simp [Role.slots, hm])]

/-- Elements are the same in a role if their attributes and children are the same for it. -/
theorem same_of_alike (hdistinct : b.Distinct) (hname : y.1.name = x.1.name)
    (hattributes : ∀ pattern ∈ role.attributes b, y.1.get? pattern = x.1.get? pattern)
    (htext : y.2.ownText = x.2.ownText) (halike : Alike b role x.2.elements y.2.elements) :
    Same b role x y where
  name := hname
  text := htext
  value source hrole := by
    subst hrole
    cases source with
    | text source => simp only [seen, child, valueOf, htext]
    | struct decoder type =>
      rw [value_struct hdistinct, value_struct hdistinct, filled_eq hattributes halike rfl]
    | shape decoder => exact value_shape_eq hdistinct halike
  entry ident hrole := by
    subst hrole
    exact entry_eq halike
  filled decoder hrole := filled_eq hattributes halike hrole

/-- The induction is on how the longer content comes about; at an element it gives that the element
is the same in its own role. -/
theorem Extended.alike (hdistinct : b.Distinct) {content more : Content}
    (h : Extended b role content more) : Alike b role content.elements more.elements := by
  induction h with
  | empty => exact .nil
  | text _ _ ih => exact ih
  | parted _ _ _ ih => exact ih
  | element hname hattributes hinside _ ihInside ihRest =>
    exact .cons (same_of_alike hdistinct hname hattributes hinside.ownText ihInside) ihRest
  | extra tag inside hnone _ ih => exact .extra hnone ih

/-- An element with more in it that its role does not look for means the same. -/
theorem same_of_extended (hdistinct : b.Distinct) (hname : y.1.name = x.1.name)
    (hattributes : ∀ pattern ∈ role.attributes b, y.1.get? pattern = x.1.get? pattern)
    (h : Extended b role x.2 y.2) : Same b role x y :=
  same_of_alike hdistinct hname hattributes h.ownText (h.alike hdistinct)

end WireShapes.Bindings
