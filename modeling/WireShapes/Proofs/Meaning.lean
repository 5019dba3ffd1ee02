import Mathlib.Data.List.DropRight
import WireShapes.Decoding.Run
import WireShapes.Proofs.Content
import WireShapes.Proofs.Table

/-!
# What elements mean

The meaning of an element under the decoders of generated bindings, by its tree alone.  A `Child` is
an element as its parent's decoder can see it: the meaning of its content is already made up, for
each way of reading it.  A member is made of the children whose names its pattern matches
(`Gathering`): the last of them, all of them, or the latest of each key.  Nothing here reads a
document or depends on the order of the arms of a decoder.
-/

namespace WireShapes

namespace Wire.Content

/-- The text directly inside, as one. -/
def ownText : Content → String
  | .empty => ""
  | .text content rest => content ++ rest.ownText
  | .element _ _ rest => rest.ownText

/-- The tags and contents of the elements directly inside, in order. -/
def elements : Content → List (StartTag × Content)
  | .empty => []
  | .text _ rest => rest.elements
  | .element tag inside rest => (tag, inside) :: rest.elements

end Wire.Content

namespace Bindings

open Wire (StartTag Content)
open Code (Ident)

/-! ## Members -/

/-- A child element with its tag and its text, and what it is for each way of reading it, if it can
be read so: as a value of a source, or as an entry of the map with an entry decoder. -/
structure Child where
  tag : StartTag
  text : String
  value : Source → Option Value
  entry : Ident → Option (Datum × Value)

/-- How the children of a member make up its value. -/
inductive Gathering
  | last (source : Source)
  | all (source : Source)
  | keyed (entry : Ident)
deriving DecidableEq

namespace Gathering

/-- Whether a child can be read as the member needs it. -/
def decodes : Gathering → Child → Bool
  | .last source, child | .all source, child => (child.value source).isSome
  | .keyed entry, child => (child.entry entry).isSome

/-- The value of a member by its children: that of the last one, the list of all, or the map of the
latest value of each key.  Without children the member is not set. -/
def gather : Gathering → List Child → Option Value
  | .last source, found => found.getLast?.bind fun child ↦ child.value source
  | .all source, found =>
    if found.isEmpty then none
    else some (.list (found.filterMap fun child ↦ child.value source))
  | .keyed entry, found =>
    if found.isEmpty then none
    else some (.map (Table.latest (found.filterMap fun child ↦ child.entry entry)))

/-- The value of a member after one more child. -/
def add : Gathering → (held : Option Value) → Child → Option Value
  | .last source, _, child => child.value source
  | .all source, held, child =>
    (child.value source).map fun item ↦ .list ((held.map Value.items).getD [] ++ [item])
  | .keyed entry, held, child =>
    (child.entry entry).map fun (key, value) ↦
      .map (Value.putEntry ((held.map Value.entries).getD []) key value)

variable {g : Gathering} {child : Child} {found : List Child}

theorem add_isSome_iff (held : Option Value) : (g.add held child).isSome ↔ g.decodes child := by
  cases g <;> simp [add, decodes]

/-- What is gathered one by one is what is gathered at once. -/
theorem add_gather (h : g.decodes child = true) :
    g.add (g.gather found) child = g.gather (found ++ [child]) := by
  cases g with
  | last source => simp [add, gather]
  | all source =>
    obtain ⟨item, hitem⟩ := Option.isSome_iff_exists.mp h
    by_cases hempty : found.isEmpty
    · obtain rfl := List.isEmpty_iff.mp hempty
      simp [add, gather, hitem]
    · simp [add, gather, hitem, hempty, Value.items]
  | keyed entry =>
    obtain ⟨⟨key, value⟩, hentry⟩ := Option.isSome_iff_exists.mp h
    have hput := Table.latest_append (found.filterMap fun child ↦ child.entry entry) key value
    by_cases hempty : found.isEmpty
    · obtain rfl := List.isEmpty_iff.mp hempty
      simp_all [add, gather, Value.putEntry, Table.latest]
    · simp [add, gather, hentry, hempty, Value.entries, Value.putEntry, hput]

end Gathering

/-! ## Structures -/

def StructAction.gathering : StructAction → Gathering
  | .set _ value => .last value.source
  | .push _ item => .all item.source
  | .insert _ entry => .keyed entry

/-- The children that are a member's own. -/
def StructArm.found (arm : StructArm) (children : List Child) : List Child :=
  children.filter fun child ↦ child.tag.matchesPattern arm.pattern

variable (b : Bindings)

/-- The value of an attribute's text. -/
def attributeValue (arm : AttributeArm) (text : String) : Option Value :=
  (b.datum arm.value.source text).toOption.map .datum

/-- Whether the attribute of every member can be read, and every child of a member, whether it
counts or not. -/
def structDecodes (d : StructDecoder) (tag : StartTag) (children : List Child) : Bool :=
  (d.attributes.all fun arm ↦ (tag.get? arm.pattern).all fun text ↦
    (b.attributeValue arm text).isSome) &&
  d.arms.all fun arm ↦ (arm.found children).all arm.action.gathering.decodes

/-- The value of a member: that of its attribute, or that of its children. -/
def structMember (d : StructDecoder) (tag : StartTag) (children : List Child) (member : String) :
    Option Value :=
  match d.attributes.find? fun arm ↦ arm.member = member with
  | some arm => (tag.get? arm.pattern).bind (b.attributeValue arm)
  | none => (d.arms.find? fun arm ↦ arm.member = member).bind fun arm ↦
    arm.action.gathering.gather (arm.found children)

/-- The members of a structure, if everything that is a member's can be read. -/
def structMembers (d : StructDecoder) (tag : StartTag) (children : List Child) :
    Option (String → Option Value) :=
  if b.structDecodes d tag children then some (b.structMember d tag children) else none

/-- Nothing but the attributes and the children of members has influence. -/
theorem structMembers_congr {b : Bindings} {d : StructDecoder} {tag tag' : StartTag}
    {children children' : List Child}
    (hattributes : ∀ arm ∈ d.attributes, tag.get? arm.pattern = tag'.get? arm.pattern)
    (harms : ∀ arm ∈ d.arms, arm.found children = arm.found children') :
    b.structMembers d tag children = b.structMembers d tag' children' := by
  have hdecodes : b.structDecodes d tag children = b.structDecodes d tag' children' := by
    unfold structDecodes
    rw [Bool.eq_iff_iff, Bool.and_eq_true, Bool.and_eq_true, List.all_eq_true, List.all_eq_true,
      List.all_eq_true, List.all_eq_true]
    exact and_congr (forall₂_congr fun arm harm ↦ by rw [hattributes arm harm])
      (forall₂_congr fun arm harm ↦ by rw [harms arm harm])
  have hmember : b.structMember d tag children = b.structMember d tag' children' := by
    funext name
    unfold structMember
    cases hattribute : d.attributes.find? fun arm ↦ arm.member = name with
    | some arm =>
      dsimp only
      rw [hattributes arm (List.mem_of_find?_eq_some hattribute)]
    | none =>
      cases harm : d.arms.find? fun arm ↦ arm.member = name with
      | none => rfl
      | some arm =>
        dsimp only [Option.bind_some]
        rw [harms arm (List.mem_of_find?_eq_some harm)]
  unfold structMembers
  rw [hdecodes, hmember]

/-- The structure that members make up, if the required ones are set. -/
def StructDecl.assembled (decl : StructDecl) (member : String → Option Value) : Option Value :=
  if decl.fields.all fun field ↦ !field.required || (member field.member).isSome then
    some (.struct (decl.fields.filterMap fun field ↦
      (member field.member).map fun value ↦ (field.member, value)))
  else none

/-! ## Unions, lists and maps -/

def UnionAction.gathering : UnionAction → Gathering
  | .set value => .last value.source
  | .push item => .all item.source
  | .insert entry => .keyed entry

namespace UnionDecoder

/-- The children that are some member's, with its arm. -/
def known (d : UnionDecoder) (children : List Child) : List (UnionArm × Child) :=
  children.filterMap fun child ↦
    (armFor UnionArm.pattern d.arms child.tag).map fun arm ↦ (arm, child)

/-- What the union holds: the member of the last known child, made of the known children from the
last one of another member on. -/
def held (known : List (UnionArm × Child)) : Held :=
  known.getLast?.bind fun (arm, _) ↦
    (arm.action.gathering.gather
      ((known.rtakeWhile fun k ↦ k.1.member = arm.member).map Prod.snd)).map
        fun value ↦ (arm.member, value)

/-- The union, if every known child can be read. -/
def meaning (d : UnionDecoder) (children : List Child) : Option Value :=
  if (d.known children).all fun (arm, child) ↦ arm.action.gathering.decodes child then
    some (unionValue (held (d.known children)))
  else none

end UnionDecoder

/-- The list of all children with the item's name. -/
def ListDecoder.meaning (d : ListDecoder) (children : List Child) : Option Value := do
  let items ← (children.filter fun child ↦ child.tag.matchesPattern d.pattern).mapM fun child ↦
    child.value d.item.source
  return .list items

/-- The map of all children with the entry's name, with the latest value of each key. -/
def MapDecoder.meaning (d : MapDecoder) (children : List Child) : Option Value := do
  let entries ← (children.filter fun child ↦ child.tag.matchesPattern d.entryPattern).mapM
    fun child ↦ child.entry d.entryIdent
  return .map (Table.latest entries)

/-- The entry of a map: the last of its keys and the last of its values. -/
def entryMeaning (d : MapDecoder) (children : List Child) : Option (Datum × Value) := do
  let keys ← (children.filter fun child ↦ d.part? child.tag = some .key).mapM fun child ↦
    (b.datum d.key.source child.text).toOption
  let values ← (children.filter fun child ↦ d.part? child.tag = some .value).mapM fun child ↦
    child.value d.value.source
  return (← keys.getLast?, ← values.getLast?)

/-! ## Elements -/

/-- An element as a value of a source, by its tag, its text and its children. -/
def valueOf (tag : StartTag) (text : String) (children : List Child) : Source → Option Value
  | .text source => (b.datum source text).toOption.map .datum
  | .struct decoder type =>
    match b.decoder? decoder, b.structDecl? type with
    | some (.struct d), some decl => (b.structMembers d tag children).bind decl.assembled
    | _, _ => none
  | .shape decoder =>
    match b.decoder? decoder with
    | some (.union d) => d.meaning children
    | some (.list d) => d.meaning children
    | some (.map d) => d.meaning children
    | _ => none

/-- An element as an entry of the map with an entry decoder, by its children. -/
def entryBy (children : List Child) (entry : Ident) : Option (Datum × Value) :=
  (b.entryDecoder? entry).bind fun d ↦ b.entryMeaning d children

/-- An element as its parent sees it. -/
def child (tag : StartTag) (text : String) (children : List Child) : Child where
  tag
  text
  value := b.valueOf tag text children
  entry := b.entryBy children

/-- The children of a content, in order. -/
def children : Content → List Child
  | .empty => []
  | .text _ rest => children rest
  | .element tag inside rest => b.child tag inside.ownText (children inside) :: children rest

/-- An element by its tag and content as its parent sees it. -/
def seen (x : StartTag × Content) : Child :=
  b.child x.1 x.2.ownText (b.children x.2)

@[simp]
theorem seen_tag (x : StartTag × Content) : (b.seen x).tag = x.1 := rfl

@[simp]
theorem seen_text (x : StartTag × Content) : (b.seen x).text = x.2.ownText := rfl

theorem children_eq_map (content : Content) :
    b.children content = content.elements.map b.seen := by
  induction content with
  | empty => rfl
  | text _ rest ih => exact ih
  | element tag inside rest _ ih => rw [children, Content.elements, List.map_cons, ih, seen]

end Bindings

end WireShapes
