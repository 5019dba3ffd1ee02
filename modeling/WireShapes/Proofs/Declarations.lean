import WireShapes.Proofs.Loading

/-!
# What elements of a model document say

The elements that may stand in a `model` element, the attributes that each must have and what these
say, without the loader: an element `Describes` what it declares.  The loader reads exactly that,
where attribute lists are well-formed; it looks attributes up one by one and sees a faulty list only
if it gets to the fault.
-/

namespace WireShapes

open Scalar (Kind)
open Xml (RawTag Token)

/-! ## Attributes -/

namespace Xml

namespace RawTag

/-- The unescaped value of an attribute. -/
def value? (tag : RawTag) (key : String) : Option String :=
  (tag.attributes.found.find? fun a ↦ a.key = key.toList).bind fun a ↦ (expand a.value).toOption

/-- The attribute list has no fault, of which a key that comes twice is one, and the references in
its values stand for characters. -/
structure WellFormed (tag : RawTag) : Prop where
  fault : tag.attributes.fault = none
  values : ∀ a ∈ tag.attributes.found, (expand a.value).toOption.isSome

instance (tag : RawTag) : Decidable tag.WellFormed :=
  decidable_of_iff
    (tag.attributes.fault = none ∧
      ∀ a ∈ tag.attributes.found, (expand a.value).toOption.isSome)
    ⟨fun h ↦ ⟨h.1, h.2⟩, fun h ↦ ⟨h.fault, h.values⟩⟩

end RawTag

/-- A start tag has well-formed attributes. -/
def Token.WellFormed : Token → Prop
  | .start tag => tag.WellFormed
  | .close _ | .text _ | .cdata _ | .aside => True

instance : (token : Token) → Decidable token.WellFormed
  | .start tag => inferInstanceAs (Decidable tag.WellFormed)
  | .close _ | .text _ | .cdata _ | .aside => inferInstanceAs (Decidable True)

/-- All start tags of the element have well-formed attributes. -/
structure Element.WellFormed (element : Element) : Prop where
  tag : element.tag.WellFormed
  inside : ∀ token ∈ element.inside.tokens, token.WellFormed

theorem Content.wellFormed_elements {content : Content} {elements : List Element}
    (h : ∀ token ∈ content.tokens, token.WellFormed)
    (helements : content.elements? = some elements) :
    ∀ element ∈ elements, element.WellFormed := by
  induction content generalizing elements with
  | empty =>
    obtain rfl := Option.some.inj helements
    simp
  | text raw rest ih =>
    have hrest : rest.elements? = some elements := by
      rw [elements?] at helements
      split at helements
      · exact helements
      · cases helements
    exact ih (fun token htoken ↦ h token (List.mem_cons_of_mem _ htoken)) hrest
  | cdata raw rest => cases helements
  | aside rest ih =>
    exact ih (fun token htoken ↦ h token (List.mem_cons_of_mem _ htoken)) helements
  | element tag inside rest _ ih =>
    obtain ⟨more, hmore, rfl⟩ := Option.map_eq_some_iff.mp helements
    have hinside : ∀ token ∈ inside.tokens, token.WellFormed := by
      intro token htoken
      exact h token (by simp [tokens, htoken])
    have hrest : ∀ token ∈ rest.tokens, token.WellFormed := by
      intro token htoken
      exact h token (by simp [tokens, htoken])
    intro element helement
    rcases List.mem_cons.mp helement with rfl | helement
    · exact ⟨h (.start tag) List.mem_cons_self, hinside⟩
    · exact ih hrest hmore element helement

end Xml

/-! ## What elements describe -/

/-- What an attribute says about a flag. -/
inductive SaysFlag : Option String → Bool → Prop
  | absent : SaysFlag none false
  | off : SaysFlag (some "false") false
  | on : SaysFlag (some "true") true

/-- The namespace that two attributes give. -/
def namespaceOf : (uri qualifier : Option String) → Option Namespace
  | none, none => none
  | uri, qualifier => some ⟨uri.getD "", qualifier⟩

/-- The tag has the attributes of the shape that every form has. -/
structure DescribesShape (tag : RawTag) (s : Shape) : Prop where
  name : tag.value? "name" = some s.name
  xmlName : tag.value? "xml-name" = s.xmlName
  xmlNamespace :
    namespaceOf (tag.value? "namespace-uri") (tag.value? "namespace-prefix") = s.xmlNamespace
  isError : SaysFlag (tag.value? "error") s.isError
  doc : tag.value? "doc" = s.doc

/-- The tag has the attributes of the item, key or value of a collection. -/
structure DescribesItem (tag : RawTag) (target xmlName : String) (item : Item) : Prop where
  target : (tag.value? target).map .to = some item.target
  xmlName : tag.value? xmlName = item.xmlName

structure DescribesMember (tag : RawTag) (member : Member) : Prop where
  name : tag.value? "name" = some member.name
  target : (tag.value? "target").map .to = some member.target
  xmlName : tag.value? "xml-name" = member.xmlName
  xmlQualifier : tag.value? "xml-prefix" = member.xmlQualifier
  isAttribute : SaysFlag (tag.value? "attribute") member.isAttribute
  flattened : SaysFlag (tag.value? "flattened") member.flattened
  required : SaysFlag (tag.value? "required") member.required
  doc : tag.value? "doc" = member.doc

structure DescribesValue (tag : RawTag) (value : EnumValue) : Prop where
  name : tag.value? "name" = some value.name
  literal : tag.value? "literal" = value.literal
  doc : tag.value? "doc" = value.doc

structure DescribesOperation (tag : RawTag) (op : Operation) : Prop where
  name : tag.value? "name" = some op.name
  input : tag.value? "input" = op.input
  output : tag.value? "output" = op.output
  errors : ((tag.value? "errors").map Text.blankSeparated).getD [] = op.errors
  doc : tag.value? "doc" = op.doc

/-- A child of a shape has the right name, says what there is to say with its attributes, and is
empty. -/
structure DescribesChild {β : Type} (name : String) (describes : RawTag → β → Prop)
    (child : Xml.Element) (item : β) : Prop where
  name : String.ofList child.tag.name = name
  describes : describes child.tag item
  empty : child.inside.isLayout = true

/-- The elements inside are children of a name. -/
def HasChildren {β : Type} (element : Xml.Element) (name : String) (describes : RawTag → β → Prop)
    (items : List β) : Prop :=
  ∃ children, element.inside.elements? = some children ∧
    List.Forall₂ (DescribesChild name describes) children items

/-- What a shape is made of, as its element says: structures and unions have members, enumerations
values, and the others nothing inside. -/
def DescribesForm (element : Xml.Element) : Form → Prop
  | .struct members => String.ofList element.tag.name = "structure" ∧
    HasChildren element "member" DescribesMember members
  | .union members => String.ofList element.tag.name = "union" ∧
    HasChildren element "member" DescribesMember members
  | .enum values => String.ofList element.tag.name = "enum" ∧
    HasChildren element "value" DescribesValue values
  | .list item => String.ofList element.tag.name = "list" ∧ element.inside.isLayout = true ∧
    DescribesItem element.tag "member" "member-name" item
  | .map key value => String.ofList element.tag.name = "map" ∧ element.inside.isLayout = true ∧
    DescribesItem element.tag "key" "key-name" key ∧
      DescribesItem element.tag "value" "value-name" value
  | .scalar kind => String.ofList element.tag.name = "scalar" ∧ element.inside.isLayout = true ∧
    element.tag.value? "kind" = some kind.name

/-- An element of a model and what it declares. -/
def Describes (element : Xml.Element) : Declared → Prop
  | .shape s => DescribesShape element.tag s ∧ DescribesForm element s.form
  | .operation op => String.ofList element.tag.name = "operation" ∧
    element.inside.isLayout = true ∧ DescribesOperation element.tag op

/-! ### Attributes as they are looked up -/

namespace Declaration

variable {d : Declaration} {key : String}

theorem find?_eq (h : d.tag.WellFormed) (key : String) : d.find? key = .ok (d.tag.value? key) := by
  unfold find? RawTag.value?
  cases hfound : d.tag.attributes.found.find? fun a ↦ a.key = key.toList with
  | none => simp [h.fault]
  | some a =>
    have hsome := h.values a (List.mem_of_find?_eq_some hfound)
    cases hvalue : Xml.expand a.value with
    | error fault => simp [hvalue, Except.toOption] at hsome
    | ok value => simp [hvalue, Except.toOption]

theorem get_eq_ok {value : String} (h : d.tag.WellFormed) :
    d.get key = .ok value ↔ d.tag.value? key = some value := by
  rw [get, find?_eq h]
  cases d.tag.value? key <;> simp [bind, Except.bind, pure, Except.pure, throw, throwThe,
    MonadExceptOf.throw]

theorem flag_eq_ok {value : Bool} (h : d.tag.WellFormed) :
    d.flag key = .ok value ↔ SaysFlag (d.tag.value? key) value := by
  rw [flag, find?_eq h]
  constructor
  · intro hflag
    cases hvalue : d.tag.value? key with
    | none =>
      rw [hvalue] at hflag
      obtain rfl := Except.ok.inj hflag
      exact .absent
    | some text =>
      simp only [hvalue, bind, Except.bind] at hflag
      split at hflag
      · rename_i htext
        obtain rfl := Except.ok.inj hflag
        exact htext ▸ .off
      · split at hflag
        · rename_i htext
          obtain rfl := Except.ok.inj hflag
          exact htext ▸ .on
        · cases hflag
  · intro hsays
    generalize d.tag.value? key = found at hsays
    cases hsays <;> rfl

theorem namespaceOf_eq (uri qualifier : Option String) :
    namespaceOf uri qualifier =
      if uri.isSome || qualifier.isSome then some { uri := uri.getD "", qualifier } else none := by
  cases uri <;> cases qualifier <;> rfl

theorem shape_eq_ok {form : Form} {s : Shape} (h : d.tag.WellFormed) :
    d.shape form = .ok s ↔ DescribesShape d.tag s ∧ s.form = form := by
  simp only [shape, find?_eq h, Failing.bind_eq_ok, get_eq_ok h, flag_eq_ok h, ← namespaceOf_eq]
  constructor
  · rintro ⟨name, hname, _, hxml, _, huri, _, hqualifier, isError, herror, _, hdoc, hs⟩
    cases hxml
    cases huri
    cases hqualifier
    cases hdoc
    obtain rfl := Except.ok.inj hs
    exact ⟨⟨hname, rfl, rfl, herror, rfl⟩, rfl⟩
  · rintro ⟨⟨hname, hxml, hnamespace, herror, hdoc⟩, rfl⟩
    refine ⟨s.name, hname, _, rfl, _, rfl, _, rfl, s.isError, herror, _, rfl, ?_⟩
    rw [hxml, hnamespace, hdoc]
    rfl

theorem item_eq_ok {target xmlName : String} {item : Item} (h : d.tag.WellFormed) :
    d.item target xmlName = .ok item ↔ DescribesItem d.tag target xmlName item := by
  simp only [Declaration.item, find?_eq h, Failing.bind_eq_ok, get_eq_ok h]
  constructor
  · rintro ⟨name, hname, _, hxml, hitem⟩
    cases hxml
    obtain rfl := Except.ok.inj hitem
    exact ⟨by rw [hname]; rfl, rfl⟩
  · rintro ⟨htarget, hxml⟩
    obtain ⟨name, hname, htarget⟩ := Option.map_eq_some_iff.mp htarget
    refine ⟨name, hname, _, rfl, ?_⟩
    rw [hxml, show ({ target := name } : Reference) = item.target from htarget]
    rfl

theorem list_eq_ok {s : Shape} (h : d.tag.WellFormed) :
    d.list = .ok s ↔ DescribesShape d.tag s ∧
      ∃ item, DescribesItem d.tag "member" "member-name" item ∧ s.form = .list item := by
  simp only [list, Failing.bind_eq_ok, item_eq_ok h, shape_eq_ok h]
  constructor
  · rintro ⟨item, hitem, hshape, hform⟩
    exact ⟨hshape, item, hitem, hform⟩
  · rintro ⟨hshape, item, hitem, hform⟩
    exact ⟨item, hitem, hshape, hform⟩

theorem map_eq_ok {s : Shape} (h : d.tag.WellFormed) :
    d.map = .ok s ↔ DescribesShape d.tag s ∧
      ∃ key value, (DescribesItem d.tag "key" "key-name" key ∧
        DescribesItem d.tag "value" "value-name" value) ∧ s.form = .map key value := by
  simp only [map, Failing.bind_eq_ok, item_eq_ok h, shape_eq_ok h]
  constructor
  · rintro ⟨key, hkey, value, hvalue, hshape, hform⟩
    exact ⟨hshape, key, value, ⟨hkey, hvalue⟩, hform⟩
  · rintro ⟨hshape, key, value, ⟨hkey, hvalue⟩, hform⟩
    exact ⟨key, hkey, value, hvalue, hshape, hform⟩

theorem scalar_eq_ok {s : Shape} (h : d.tag.WellFormed) :
    d.scalar = .ok s ↔ DescribesShape d.tag s ∧
      ∃ kind : Kind, d.tag.value? "kind" = some kind.name ∧ s.form = .scalar kind := by
  simp only [scalar, Failing.bind_eq_ok, get_eq_ok h]
  constructor
  · rintro ⟨name, hname, hscalar⟩
    split at hscalar
    case h_1 kind hkind =>
      obtain ⟨hshape, hform⟩ := (shape_eq_ok h).mp hscalar
      have hkind : kind.name = name := by simpa using List.find?_some hkind
      exact ⟨hshape, kind, hkind ▸ hname, hform⟩
    case h_2 => cases hscalar
  · rintro ⟨hshape, kind, hkind, hform⟩
    have hname : Kind.ofName? kind.name = some kind := by cases kind <;> decide
    refine ⟨_, hkind, ?_⟩
    rw [hname]
    exact (shape_eq_ok h).mpr ⟨hshape, hform⟩

theorem member_eq_ok {member : Member} (h : d.tag.WellFormed) :
    d.member = .ok member ↔ DescribesMember d.tag member := by
  simp only [Declaration.member, find?_eq h, Failing.bind_eq_ok, get_eq_ok h, flag_eq_ok h]
  constructor
  · rintro ⟨name, hname, target, htarget, _, hxml, _, hqualifier, isAttribute, hattribute, flattened,
      hflattened, required, hrequired, _, hdoc, hmember⟩
    cases hxml
    cases hqualifier
    cases hdoc
    obtain rfl := Except.ok.inj hmember
    exact ⟨hname, by rw [htarget]; rfl, rfl, rfl, hattribute, hflattened, hrequired, rfl⟩
  · rintro ⟨hname, htarget, hxml, hqualifier, hattribute, hflattened, hrequired, hdoc⟩
    obtain ⟨target, hfound, htarget⟩ := Option.map_eq_some_iff.mp htarget
    refine ⟨_, hname, target, hfound, _, rfl, _, rfl, _, hattribute, _, hflattened, _, hrequired, _,
      rfl, ?_⟩
    rw [hxml, hqualifier, hdoc, show ({ target } : Reference) = member.target from htarget]
    rfl

theorem enumValue_eq_ok {value : EnumValue} (h : d.tag.WellFormed) :
    d.enumValue = .ok value ↔ DescribesValue d.tag value := by
  simp only [enumValue, find?_eq h, Failing.bind_eq_ok, get_eq_ok h]
  constructor
  · rintro ⟨name, hname, _, hliteral, _, hdoc, hvalue⟩
    cases hliteral
    cases hdoc
    obtain rfl := Except.ok.inj hvalue
    exact ⟨hname, rfl, rfl⟩
  · rintro ⟨hname, hliteral, hdoc⟩
    refine ⟨_, hname, _, rfl, _, rfl, ?_⟩
    rw [hliteral, hdoc]
    rfl

theorem operation_eq_ok {op : Operation} (h : d.tag.WellFormed) :
    d.operation = .ok op ↔ DescribesOperation d.tag op := by
  simp only [operation, find?_eq h, Failing.bind_eq_ok, get_eq_ok h]
  constructor
  · rintro ⟨name, hname, _, hinput, _, houtput, _, herrors, _, hdoc, hop⟩
    cases hinput
    cases houtput
    cases herrors
    cases hdoc
    obtain rfl := Except.ok.inj hop
    exact ⟨hname, rfl, rfl, rfl, rfl⟩
  · rintro ⟨hname, hinput, houtput, herrors, hdoc⟩
    refine ⟨_, hname, _, rfl, _, rfl, _, rfl, _, rfl, ?_⟩
    rw [hinput, houtput, herrors, hdoc]
    rfl

end Declaration

/-! ### Elements as they are loaded -/

namespace LoadState

/-- To shapes of a form are added the children of a name, as they are described. -/
def Adds {β : Type} (form : List β → Form) (name : String) (describes : RawTag → β → Prop) : Prop :=
  ∀ (s filled : Shape) (items : List β) (tag : RawTag), tag.WellFormed → s.form = form items →
    (addChild s tag = .ok filled ↔ String.ofList tag.name = name ∧
      ∃ item, describes tag item ∧ { s with form := form (items ++ [item]) } = filled)

theorem adds_struct : Adds .struct "member" DescribesMember := by
  rintro s filled members tag h hform
  unfold addChild
  simp only [hform]
  by_cases hname : String.ofList tag.name = "member"
  · simp only [hname, Failing.bind_eq_ok, Declaration.member_eq_ok (d := ⟨"member", tag⟩) h]
    simp [pure, Except.pure]
  · split <;> simp_all

theorem adds_union : Adds .union "member" DescribesMember := by
  rintro s filled members tag h hform
  unfold addChild
  simp only [hform]
  by_cases hname : String.ofList tag.name = "member"
  · simp only [hname, Failing.bind_eq_ok, Declaration.member_eq_ok (d := ⟨"member", tag⟩) h]
    simp [pure, Except.pure]
  · split <;> simp_all

theorem adds_enum : Adds .enum "value" DescribesValue := by
  rintro s filled values tag h hform
  unfold addChild
  simp only [hform]
  by_cases hname : String.ofList tag.name = "value"
  · simp only [hname, Failing.bind_eq_ok, Declaration.enumValue_eq_ok (d := ⟨"value", tag⟩) h]
    simp [pure, Except.pure]
  · split <;> simp_all

end LoadState

namespace Declared

open LoadState (Adds)

variable {β : Type} {form : List β → Form} {name : String} {describes : RawTag → β → Prop}

/-- The children of a shape are those that its form can have, one after the other. -/
theorem fill?_eq_some (hadds : Adds form name describes) {s filled : Shape} {items : List β}
    (hform : s.form = form items) {children : List Xml.Element}
    (hwell : ∀ child ∈ children, child.WellFormed) :
    fill? s children = some filled ↔
      ∃ more, List.Forall₂ (DescribesChild name describes) children more ∧
        { s with form := form (items ++ more) } = filled := by
  induction children generalizing s items with
  | nil =>
    have hsame : { s with form := form items } = s := by rw [← hform]
    simp [fill?, hsame]
  | cons child rest ih =>
    obtain ⟨hchild, hrest⟩ := List.forall_mem_cons.mp hwell
    unfold fill?
    constructor
    · intro hfill
      split at hfill
      case isTrue hempty =>
        obtain ⟨next, hnext, hfill⟩ := Option.bind_eq_some_iff.mp hfill
        obtain ⟨hname, item, hitem, rfl⟩ :=
          (hadds s next items child.tag hchild.tag hform).mp (Failing.toOption_eq_some.mp hnext)
        obtain ⟨more, hmore, rfl⟩ := (ih rfl hrest).mp hfill
        exact ⟨item :: more, .cons ⟨hname, hitem, hempty⟩ hmore, by simp⟩
      case isFalse => cases hfill
    · rintro ⟨more, hmore, rfl⟩
      cases hmore with
      | @cons _ item _ more hitem hmore =>
        have hadd := (hadds s _ items child.tag hchild.tag hform).mpr
          ⟨hitem.name, item, hitem.describes, rfl⟩
        rw [if_pos hitem.empty, hadd]
        exact (ih rfl hrest).mpr ⟨more, hmore, by simp⟩

variable {element : Xml.Element} {item : Declared}

/-- Elements of shapes that have children. -/
theorem ofElement?_children (hadds : Adds form name describes) (h : element.WellFormed)
    {d : Declaration} (hd : d.tag = element.tag)
    (hdeclare : LoadState.declare .fresh element.tag = (.shape .fresh ·) <$> d.shape (form []))
    (hname : String.ofList element.tag.name ≠ "operation")
    (hforms : ∀ s : Shape, DescribesForm element s.form ↔
      ∃ items, s.form = form items ∧ HasChildren element name describes items) :
    ofElement? element = some item ↔ Describes element item := by
  have hwell : d.tag.WellFormed := hd ▸ h.tag
  rw [ofElement?, hdeclare]
  constructor
  · intro hitem
    cases hread : d.shape (form []) with
    | error error => simp [hread, Functor.map, Except.map] at hitem
    | ok start =>
      obtain ⟨hstart, hform⟩ := (Declaration.shape_eq_ok hwell).mp hread
      simp only [hread, Functor.map, Except.map, Option.map_eq_some_iff,
        Option.bind_eq_some_iff] at hitem
      obtain ⟨s, ⟨children, hchildren, hfill⟩, rfl⟩ := hitem
      obtain ⟨items, hitems, rfl⟩ := (fill?_eq_some hadds hform
        (Xml.Content.wellFormed_elements h.inside hchildren)).mp hfill
      rw [hd] at hstart
      exact ⟨⟨hstart.name, hstart.xmlName, hstart.xmlNamespace, hstart.isError, hstart.doc⟩,
        (hforms _).mpr ⟨items, rfl, children, hchildren, hitems⟩⟩
  · intro hdescribes
    cases item with
    | operation op => exact absurd hdescribes.1 hname
    | shape s =>
      obtain ⟨hshape, hform⟩ := hdescribes
      obtain ⟨items, hform, children, hchildren, hitems⟩ := (hforms s).mp hform
      rw [← hd] at hshape
      have hread : d.shape (form []) = .ok { s with form := form [] } :=
        (Declaration.shape_eq_ok hwell).mpr ⟨⟨hshape.name, hshape.xmlName, hshape.xmlNamespace,
          hshape.isError, hshape.doc⟩, rfl⟩
      have hfill : fill? { s with form := form [] } children = some s :=
        (fill?_eq_some hadds rfl (Xml.Content.wellFormed_elements h.inside hchildren)).mpr
          ⟨items, hitems, by rw [List.nil_append, ← hform]⟩
      simp [hread, Functor.map, Except.map, hchildren, hfill]

/-- Elements of shapes that have none. -/
theorem ofElement?_empty {read : Except LoadError Shape} {made : Shape → Prop}
    (hdeclare : LoadState.declare .fresh element.tag = (.leaf .fresh ·) <$> read)
    (hname : String.ofList element.tag.name ≠ "operation")
    (hread : ∀ s, read = .ok s ↔ DescribesShape element.tag s ∧ made s)
    (hforms : ∀ s : Shape, DescribesForm element s.form ↔
      element.inside.isLayout = true ∧ made s) :
    ofElement? element = some item ↔ Describes element item := by
  rw [ofElement?, hdeclare]
  constructor
  · intro hitem
    cases hok : read with
    | error error => simp [hok, Functor.map, Except.map] at hitem
    | ok s =>
      rw [hok] at hitem
      obtain ⟨hlayout, heq⟩ := Option.ite_none_right_eq_some.mp hitem
      obtain rfl := Option.some.inj heq
      obtain ⟨hshape, hmade⟩ := (hread s).mp hok
      exact ⟨hshape, (hforms s).mpr ⟨hlayout, hmade⟩⟩
  · intro hdescribes
    cases item with
    | operation op => exact absurd hdescribes.1 hname
    | shape s =>
      obtain ⟨hshape, hform⟩ := hdescribes
      obtain ⟨hlayout, hmade⟩ := (hforms s).mp hform
      rw [(hread s).mpr ⟨hshape, hmade⟩]
      exact if_pos hlayout

theorem ofElement?_operation (h : element.WellFormed)
    (hname : String.ofList element.tag.name = "operation") :
    ofElement? element = some item ↔ Describes element item := by
  have hdeclare : LoadState.declare .fresh element.tag =
      (.operation .fresh ·) <$> Declaration.operation ⟨"operation", element.tag⟩ := by
    simp [LoadState.declare, hname]
  rw [ofElement?, hdeclare]
  constructor
  · intro hitem
    cases hok : Declaration.operation ⟨"operation", element.tag⟩ with
    | error error => simp [hok, Functor.map, Except.map] at hitem
    | ok op =>
      rw [hok] at hitem
      obtain ⟨hlayout, heq⟩ := Option.ite_none_right_eq_some.mp hitem
      obtain rfl := Option.some.inj heq
      exact ⟨hname, hlayout, (Declaration.operation_eq_ok h.tag).mp hok⟩
  · intro hdescribes
    cases item with
    | shape s =>
      obtain ⟨-, hform⟩ := hdescribes
      cases hs : s.form <;> simp [DescribesForm, hname, hs] at hform
    | operation op =>
      obtain ⟨-, hlayout, hop⟩ := hdescribes
      rw [(Declaration.operation_eq_ok (d := ⟨"operation", element.tag⟩) h.tag).mpr hop]
      exact if_pos hlayout

/-- An element is loaded exactly as what it describes. -/
theorem ofElement?_eq_some (h : element.WellFormed) :
    ofElement? element = some item ↔ Describes element item := by
  obtain ⟨tag, inside⟩ := element
  by_cases hstruct : String.ofList tag.name = "structure"
  · refine ofElement?_children LoadState.adds_struct h (d := ⟨"structure", tag⟩) rfl ?_ (by simp [hstruct])
      fun s ↦ ?_
    · simp [LoadState.declare, hstruct]
    · cases hform : s.form <;> simp [DescribesForm, hstruct]
  by_cases hunion : String.ofList tag.name = "union"
  · refine ofElement?_children LoadState.adds_union h (d := ⟨"union", tag⟩) rfl ?_ (by simp [hunion])
      fun s ↦ ?_
    · simp [LoadState.declare, hunion]
    · cases hform : s.form <;> simp [DescribesForm, hunion]
  by_cases henum : String.ofList tag.name = "enum"
  · refine ofElement?_children LoadState.adds_enum h (d := ⟨"enum", tag⟩) rfl ?_ (by simp [henum])
      fun s ↦ ?_
    · simp [LoadState.declare, henum]
    · cases hform : s.form <;> simp [DescribesForm, henum]
  by_cases hlist : String.ofList tag.name = "list"
  · refine ofElement?_empty (by simp [LoadState.declare, hlist]) (by simp [hlist])
      (fun _ ↦ Declaration.list_eq_ok (d := ⟨"list", tag⟩) h.tag) fun s ↦ ?_
    cases hform : s.form <;> simp [DescribesForm, hlist]
  by_cases hmap : String.ofList tag.name = "map"
  · refine ofElement?_empty (by simp [LoadState.declare, hmap]) (by simp [hmap])
      (fun _ ↦ Declaration.map_eq_ok (d := ⟨"map", tag⟩) h.tag) fun s ↦ ?_
    cases hform : s.form <;> simp [DescribesForm, hmap]
  by_cases hscalar : String.ofList tag.name = "scalar"
  · refine ofElement?_empty (by simp [LoadState.declare, hscalar]) (by simp [hscalar])
      (fun _ ↦ Declaration.scalar_eq_ok (d := ⟨"scalar", tag⟩) h.tag) fun s ↦ ?_
    cases hform : s.form <;> simp [DescribesForm, hscalar]
  by_cases hoperation : String.ofList tag.name = "operation"
  · exact ofElement?_operation h hoperation
  have hnone : ofElement? ⟨tag, inside⟩ = none := by
    simp [ofElement?, LoadState.declare]
  cases item with
  | operation op => simp [hnone, Describes, hoperation]
  | shape s =>
    cases hform : s.form <;>
      simp [hnone, Describes, DescribesForm, hform, hstruct, hunion, henum, hlist, hmap, hscalar]

end Declared

end WireShapes
