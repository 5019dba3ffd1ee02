import WireShapes.Proofs.DecodersInStep
import WireShapes.Proofs.Extras

/-!
# The order of attributes

A look-up takes the first attribute that its pattern matches, so the order of the attributes of a
tag is of no account just where all attributes that the pattern matches have one value
(`StartTag.Settles`).  For a qualified pattern they always do: the keys of a tag are distinct.  A
bare pattern may match several, under different qualifiers.

A document is `Reordered` if attributes of some of its tags are permuted, in tags where every
pattern that is looked up is settled.  What is looked up in a tag depends on how the element is
read; roles follow the open elements through the tokens.  The functions of bindings do the same to
the reordered document, errors and all.
-/

namespace WireShapes

open Xml (Name RawAttribute RawTag Token)

/-- A function that fails in one way only either fails on a list and on its permutations, or gives
results that are permutations of each other. -/
theorem Failing.mapM_perm {ε α β : Type} {f : α → Except ε β} {as as' : List α}
    (hperm : as'.Perm as) (hone : ∀ a ∈ as, ∀ a' ∈ as, ∀ e e', f a = .error e →
      f a' = .error e' → e = e') :
    (∃ e, as.mapM f = .error e ∧ as'.mapM f = .error e) ∨
      ∃ bs bs', as.mapM f = .ok bs ∧ as'.mapM f = .ok bs' ∧ bs'.Perm bs := by
  have hresults {as : List α} {bs : List β} (h : as.mapM f = .ok bs) :
      bs = as.filterMap fun a ↦ (f a).toOption := by
    have hall := forall₂_of_mapM_ok h
    clear h
    induction hall with
    | nil => rfl
    | cons ha _ ih => simp [ha, Except.toOption, ih]
  have hfails {as as' : List α} {e : ε} {bs' : List β} (hperm : as'.Perm as)
      (h : as.mapM f = .error e) (h' : as'.mapM f = .ok bs') : False := by
    obtain ⟨a, ha, herror⟩ := exists_of_mapM_error h
    obtain ⟨b, -, hb⟩ := exists_of_mem_left (forall₂_of_mapM_ok h') (hperm.mem_iff.mpr ha)
    simp [herror] at hb
  cases h : as.mapM f with
  | error e =>
    cases h' : as'.mapM f with
    | error e' =>
      obtain ⟨a, ha, herror⟩ := exists_of_mapM_error h
      obtain ⟨a', ha', herror'⟩ := exists_of_mapM_error h'
      obtain rfl := hone a ha a' (hperm.mem_iff.mp ha') e e' herror herror'
      exact .inl ⟨e, rfl, rfl⟩
    | ok bs' => exact (hfails hperm h h').elim
  | ok bs =>
    cases h' : as'.mapM f with
    | error e' => exact (hfails hperm.symm h' h).elim
    | ok bs' =>
      refine .inr ⟨bs, bs', rfl, rfl, ?_⟩
      rw [hresults h, hresults h']
      exact hperm.filterMap _

/-! ## Look-ups -/

namespace Wire.StartTag

variable {tag tag' : StartTag} {pattern : String}

/-- The attributes that a pattern matches, in order. -/
def found (tag : StartTag) (pattern : String) : List Attribute :=
  tag.attributes.filter fun a ↦ !a.name.declaresNamespace && a.name.matchesPattern pattern

theorem get?_eq (tag : StartTag) (pattern : String) :
    tag.get? pattern = (tag.found pattern).head?.map Attribute.value := by
  unfold get? found
  rw [← List.head?_filter, List.filter_filter]
  simp only [Bool.and_comm]

/-- All attributes that a pattern matches have one value. -/
def Settles (tag : StartTag) (pattern : String) : Prop :=
  ∀ a ∈ tag.found pattern, ∀ a' ∈ tag.found pattern, a.value = a'.value

instance (tag : StartTag) (pattern : String) : Decidable (tag.Settles pattern) :=
  inferInstanceAs (Decidable (∀ a ∈ tag.found pattern, ∀ a' ∈ tag.found pattern,
    a.value = a'.value))

theorem Settles.get?_eq (h : tag.Settles pattern) (hperm : tag'.attributes.Perm tag.attributes) :
    tag'.get? pattern = tag.get? pattern := by
  have hfound : (tag'.found pattern).Perm (tag.found pattern) := hperm.filter _
  rw [StartTag.get?_eq, StartTag.get?_eq]
  cases hfirst : tag.found pattern with
  | nil =>
    rw [hfirst] at hfound
    rw [hfound.eq_nil]
  | cons a rest =>
    cases hfirst' : tag'.found pattern with
    | nil =>
      rw [hfirst', hfirst] at hfound
      exact absurd hfound.symm.eq_nil (by simp)
    | cons a' rest' =>
      have ha : a ∈ tag.found pattern := by simp [hfirst]
      have ha' : a' ∈ tag.found pattern := hfound.mem_iff.mp (by simp [hfirst'])
      exact congrArg some (h a' ha' a ha)

/-- Any attribute that a pattern matches can be put first. -/
theorem settles_of_get?_eq (h : ∀ tag' : StartTag, tag'.name = tag.name →
      tag'.attributes.Perm tag.attributes → tag'.get? pattern = tag.get? pattern) :
    tag.Settles pattern := by
  have hvalue (a : Attribute) (ha : a ∈ tag.found pattern) : tag.get? pattern = some a.value := by
    obtain ⟨hmem, hfound⟩ := List.mem_filter.mp ha
    rw [← h ⟨tag.name, a :: tag.attributes.erase a⟩ rfl (List.perm_cons_erase hmem).symm, get?_eq]
    simp [found, hfound]
  intro a ha a' ha'
  exact Option.some.inj ((hvalue a ha).symm.trans (hvalue a' ha'))

end Wire.StartTag

/-! ## Keys -/

namespace Xml

theorem Name.ofList_injective : Function.Injective Name.ofList := by
  intro cs cs' h
  have htext (cs : List Char) : (Name.ofList cs).toText.toList = cs := by
    have htext := Name.toText_ofText (String.ofList cs)
    rw [Name.ofText, String.toList_ofList] at htext
    rw [htext, String.toList_ofList]
  rw [← htext cs, h, htext cs']

/-- A qualified pattern matches the name it spells alone. -/
theorem Name.eq_of_matches {name : Name} {pattern : String}
    (hpattern : (Name.ofText pattern).qualifier.isSome)
    (h : name.matchesPattern pattern = true) : name = Name.ofText pattern := by
  unfold Name.matchesPattern at h
  obtain ⟨qualifier, base⟩ := name
  split at h <;> simp_all

/-- The key of which the value is still to be read. -/
def AttributeStage.openKey? : AttributeStage → Option (List Char)
  | .opening name | .value name _ _ => some name
  | _ => none

namespace Attributes

variable {known : List (List Char × Nat)} {key : List Char} {attributes : Attributes}

theorem declaredAt?_eq_none : declaredAt? known key = none ↔ key ∉ known.map Prod.fst := by
  simp only [declaredAt?, Option.map_eq_none_iff, List.find?_eq_none, decide_eq_true_eq,
    List.mem_map, not_exists, not_and]

/-- The keys of attributes are distinct, and none was known but the one that is open. -/
structure Distinct (known : List (List Char × Nat)) (openKey? : Option (List Char))
    (attributes : Attributes) : Prop where
  nodup : (attributes.found.map RawAttribute.key).Nodup
  fresh : ∀ key ∈ attributes.found.map RawAttribute.key,
    key ∈ known.map Prod.fst → key ∈ openKey?

theorem Distinct.nil {openKey? : Option (List Char)} (fault : Option AttributeFault) :
    Distinct known openKey? ⟨[], fault⟩ :=
  ⟨List.nodup_nil, fun _ h ↦ absurd h List.not_mem_nil⟩

/-- A key becomes known when its value is opened. -/
theorem Distinct.of_opened {start : Nat} (hkey : key ∉ known.map Prod.fst)
    (h : Distinct ((key, start) :: known) (some key) attributes) :
    Distinct known none attributes where
  nodup := h.nodup
  fresh other hother hknown := by
    obtain rfl : key = other :=
      Option.mem_some_iff.mp (h.fresh other hother (List.mem_cons_of_mem _ hknown))
    exact absurd hknown hkey

theorem Distinct.cons {value : List Char} (hkey : key ∈ known.map Prod.fst)
    (h : Distinct known none attributes) :
    Distinct known (some key) (attributes.cons ⟨key, value⟩) where
  nodup := List.nodup_cons.mpr ⟨fun hlater ↦ by simpa using h.fresh key hlater hkey, h.nodup⟩
  fresh other hother hknown := by
    rcases List.mem_cons.mp hother with rfl | hlater
    · rfl
    · simpa using h.fresh other hlater hknown

theorem distinct_scanFrom (stage : AttributeStage) (index : Nat) (cs : List Char)
    (hopen : ∀ key ∈ stage.openKey?, key ∈ known.map Prod.fst) :
    Distinct known stage.openKey? (scanFrom known stage index cs) := by
  fun_induction scanFrom known stage index cs with
  | case1 known stage index => cases stage <;> exact .nil _
  | case5 _ _ _ _ _ hnew _ ih | case10 _ _ _ _ _ hnew _ _ ih =>
    exact .of_opened (declaredAt?_eq_none.mp hnew) (ih (by simp [AttributeStage.openKey?]))
  | case15 _ _ _ key quote seen _ ih =>
    exact .cons (hopen key rfl) (ih (by simp [AttributeStage.openKey?]))
  | case4 | case9 | case11 | case14 => exact .nil _
  | _ =>
    -- The same keys are known, and the same one is open.
    rename_i ih
    exact ih hopen

end Attributes

end Xml

namespace Wire.StartTag

variable {tag : RawTag} {start : StartTag} {pattern : String}

theorem readAttribute_name {raw : RawAttribute} {a : Attribute} (h : readAttribute raw = .ok a) :
    a.name = Name.ofList raw.key := by
  unfold readAttribute at h
  split at h
  · exact Except.ok.inj h ▸ rfl
  · simp at h

/-- The attributes of a tag have distinct names. -/
theorem nodup_names (h : ofRaw tag = .ok start) : (start.attributes.map Attribute.name).Nodup := by
  obtain ⟨-, attributes, hattributes, rfl⟩ := ofRaw_eq_ok.mp h
  have hnames : attributes.map Attribute.name =
      (tag.attributes.found.map RawAttribute.key).map Name.ofList := by
    generalize tag.attributes.found = raws at hattributes ⊢
    have hall := Failing.forall₂_of_mapM_ok hattributes
    clear hattributes h
    induction hall with
    | nil => rfl
    | cons hfirst _ ih => simp [readAttribute_name hfirst, ih]
  rw [hnames]
  have hkeys : (tag.attributes.found.map RawAttribute.key).Nodup :=
    (Xml.Attributes.distinct_scanFrom .between _ _ (by simp [Xml.AttributeStage.openKey?])).nodup
  exact hkeys.map Name.ofList_injective

/-- A qualified pattern matches one attribute of a tag at most. -/
theorem settles_of_qualified (h : ofRaw tag = .ok start)
    (hpattern : (Name.ofText pattern).qualifier.isSome) : start.Settles pattern := by
  intro a ha a' ha'
  obtain ⟨hmem, hfound⟩ := List.mem_filter.mp ha
  obtain ⟨hmem', hfound'⟩ := List.mem_filter.mp ha'
  have hname : a.name = a'.name := by
    rw [Name.eq_of_matches hpattern (Bool.and_eq_true_iff.mp hfound).2,
      Name.eq_of_matches hpattern (Bool.and_eq_true_iff.mp hfound').2]
  rw [List.inj_on_of_nodup_map (nodup_names h) hmem hmem' hname]

end Wire.StartTag

/-! ## Reordered documents -/

namespace Xml.RawTag

open Wire (StartTag)

/-- Tags that differ in the order of their attributes. -/
structure Permutes (tag tag' : RawTag) : Prop where
  name : tag'.name = tag.name
  whole : tag.attributes.fault = none
  whole' : tag'.attributes.fault = none
  found : tag'.attributes.found.Perm tag.attributes.found

/-- Every permutation of the attributes of a tag is read the same as far as some patterns go: what
keeps its attributes from being read is one fault, and each pattern is settled. -/
structure Settled (patterns : List String) (tag : RawTag) : Prop where
  fault : ∀ raw ∈ tag.attributes.found, ∀ raw' ∈ tag.attributes.found, ∀ fault fault',
    StartTag.readAttribute raw = .error fault → StartTag.readAttribute raw' = .error fault' →
      fault = fault'
  settles : ∀ start, StartTag.ofRaw tag = .ok start → ∀ pattern ∈ patterns, start.Settles pattern

/-- A tag that can be read needs its patterns settled, and no more. -/
theorem Settled.of_read {tag : RawTag} {start : StartTag} {patterns : List String}
    (h : StartTag.ofRaw tag = .ok start)
    (hsettles : ∀ pattern ∈ patterns, start.Settles pattern) : tag.Settled patterns where
  fault raw hraw _ _ fault _ hfault _ := by
    obtain ⟨-, attributes, hattributes, -⟩ := StartTag.ofRaw_eq_ok.mp h
    obtain ⟨a, -, ha⟩ :=
      Failing.exists_of_mem_left (Failing.forall₂_of_mapM_ok hattributes) hraw
    simp [hfault] at ha
  settles other hother := by
    obtain rfl : start = other := Except.ok.inj (h.symm.trans hother)
    exact hsettles

theorem Permutes.ofRaw_cases {tag tag' : RawTag} {patterns : List String}
    (h : tag.Permutes tag') (hsettled : tag.Settled patterns) :
    (∃ fault, StartTag.ofRaw tag = .error fault ∧ StartTag.ofRaw tag' = .error fault) ∨
      ∃ start start', StartTag.ofRaw tag = .ok start ∧ StartTag.ofRaw tag' = .ok start' ∧
        start.name = start'.name ∧
        ∀ pattern ∈ patterns, start.get? pattern = start'.get? pattern := by
  have hread (tag : RawTag) (hwhole : tag.attributes.fault = none) : StartTag.ofRaw tag =
      (tag.attributes.found.mapM StartTag.readAttribute).map (⟨Name.ofList tag.name, ·⟩) := by
    unfold StartTag.ofRaw
    rw [hwhole]
    cases tag.attributes.found.mapM StartTag.readAttribute <;> rfl
  have hstart := hread tag h.whole
  have hstart' := hread tag' h.whole'
  rcases Failing.mapM_perm h.found hsettled.fault with ⟨fault, hfault, hfault'⟩ |
    ⟨attributes, attributes', hok, hok', hperm⟩
  · rw [hfault] at hstart
    rw [hfault'] at hstart'
    exact .inl ⟨fault, hstart, hstart'⟩
  · rw [hok] at hstart
    rw [hok'] at hstart'
    refine .inr ⟨_, _, hstart, hstart', by rw [h.name], fun pattern hpattern ↦ ?_⟩
    exact ((hsettled.settles _ hstart pattern hpattern).get?_eq hperm).symm

end Xml.RawTag

namespace Bindings

open Wire (Lexeme StartTag Document)

variable {b : Bindings} {root : Role} {roles : List Role}

/-- Tokens inside elements read in some roles, and the same tokens with the attributes of some tags
permuted, where every pattern that is looked up in the tag is settled. -/
inductive Reordered (b : Bindings) (root : Role) : List Role → List Token → List Token → Prop
  | nil {roles : List Role} : Reordered b root roles [] []
  | start {roles : List Role} {rest rest' : List Token} (tag : RawTag) :
      Reordered b root (Role.below b root roles (Name.ofList tag.name) :: roles) rest rest' →
      Reordered b root roles (.start tag :: rest) (.start tag :: rest')
  | permuted {roles : List Role} {rest rest' : List Token} {tag tag' : RawTag} :
      tag.Permutes tag' →
      tag.Settled ((Role.below b root roles (Name.ofList tag.name)).attributes b) →
      Reordered b root (Role.below b root roles (Name.ofList tag.name) :: roles) rest rest' →
      Reordered b root roles (.start tag :: rest) (.start tag' :: rest')
  | close {roles : List Role} {rest rest' : List Token} (name : List Char) :
      Reordered b root roles.tail rest rest' →
      Reordered b root roles (.close name :: rest) (.close name :: rest')
  | text {roles : List Role} {rest rest' : List Token} (raw : List Char) :
      Reordered b root roles rest rest' →
      Reordered b root roles (.text raw :: rest) (.text raw :: rest')
  | cdata {roles : List Role} {rest rest' : List Token} (raw : List Char) :
      Reordered b root roles rest rest' →
      Reordered b root roles (.cdata raw :: rest) (.cdata raw :: rest')
  | aside {roles : List Role} {rest rest' : List Token} : Reordered b root roles rest rest' →
      Reordered b root roles (.aside :: rest) (.aside :: rest')

theorem Reordered.paired {tokens tokens' : List Token}
    (h : Reordered b root roles tokens tokens') :
    Paired b root roles (tokens.filterMap Lexeme.ofToken?)
      (tokens'.filterMap Lexeme.ofToken?) := by
  have hstart {roles : List Role} {rest rest' : List Lexeme} {tag : RawTag}
      {start start' : StartTag} (hok : StartTag.ofRaw tag = .ok start)
      (hname : start.name = start'.name)
      (hget : ∀ pattern ∈ (Role.below b root roles (Name.ofList tag.name)).attributes b,
        start.get? pattern = start'.get? pattern)
      (hrest : Paired b root (Role.below b root roles (Name.ofList tag.name) :: roles) rest rest') :
      Paired b root roles (.start (.ok start) :: rest) (.start (.ok start') :: rest') := by
    rw [← StartTag.name_of_ofRaw hok] at hget hrest
    exact .start ⟨hname, hget⟩ hrest
  induction h with
  | nil => exact .nil
  | start tag _ ih =>
    rw [List.filterMap_cons, List.filterMap_cons, Lexeme.ofToken?]
    cases hok : StartTag.ofRaw tag with
    | error fault => exact .fault fault _ _
    | ok start => exact hstart hok rfl (fun _ _ ↦ rfl) ih
  | @permuted _ _ _ tag tag' hpermutes hsettled _ ih =>
    rw [List.filterMap_cons, List.filterMap_cons, Lexeme.ofToken?, Lexeme.ofToken?]
    rcases hpermutes.ofRaw_cases hsettled with ⟨fault, hfault, hfault'⟩ |
      ⟨start, start', hok, hok', hname, hget⟩
    · rw [hfault, hfault']
      exact .fault fault _ _
    · rw [hok, hok']
      exact hstart hok hname hget ih
  | close name _ ih => exact .close ih
  | text raw _ ih => exact .text _ ih
  | cdata raw _ ih => exact .text _ ih
  | aside _ ih => exact ih

/-- Bytes that hold a document, and bytes that hold it with the attributes of some tags permuted. -/
def BytesReordered (b : Bindings) (root : Role) (bytes bytes' : List UInt8) : Prop :=
  ∃ cs cs', Text.Utf8.decode bytes = .ok cs ∧ Text.Utf8.decode bytes' = .ok cs' ∧
    (Xml.Stream.ofChars cs).fault = (Xml.Stream.ofChars cs').fault ∧
    Reordered b root [] (Xml.Stream.ofChars cs).tokens (Xml.Stream.ofChars cs').tokens

theorem BytesReordered.paired {bytes bytes' : List UInt8} (h : BytesReordered b root bytes bytes') :
    BytesPaired b root bytes bytes' := by
  obtain ⟨cs, cs', hcs, hcs', hfault, hreordered⟩ := h
  refine ⟨Document.ofChars cs, Document.ofChars cs', ?_, ?_, hreordered.paired, hfault, rfl, rfl,
    rfl⟩
  · rw [Document.ofBytes, hcs]
  · rw [Document.ofBytes, hcs']

/-- The order of attributes is of no account to a look-up just where all attributes that the pattern
matches have one value, as they have for every qualified pattern in a tag of a document.  So a
function of bindings does the same to a document, errors included, when the attributes of tags are
permuted in which every pattern is settled that the decoder of the element looks up. -/
theorem call_of_reordered :
    (∀ (tag : StartTag) (pattern : String),
      (∀ tag' : StartTag, tag'.name = tag.name → tag'.attributes.Perm tag.attributes →
        tag'.get? pattern = tag.get? pattern) ↔ tag.Settles pattern) ∧
    (∀ (raw : RawTag) (tag : StartTag) (pattern : String), StartTag.ofRaw raw = .ok tag →
      (Name.ofText pattern).qualifier.isSome → tag.Settles pattern) ∧
    ∀ (b : Bindings) (name : String), b.call? name = (b.callable? name).map (·.run b) ∧
      ∀ fn, b.callable? name = some fn → ∀ bytes bytes',
        BytesReordered b (fn.rootRole bytes) bytes bytes' → fn.run b bytes = fn.run b bytes' := by
  refine ⟨fun tag pattern ↦ ⟨StartTag.settles_of_get?_eq, fun h _ _ hperm ↦ h.get?_eq hperm⟩,
    fun _ _ _ ↦ StartTag.settles_of_qualified, fun b name ↦ ⟨call?_eq b name, ?_⟩⟩
  exact fun fn hfn bytes bytes' h ↦ fn.run_paired hfn h.paired

end Bindings

namespace Samples

open Bindings
open Wire (StartTag DecodeError)

/-- The text of a member of a structure that was decoded. -/
def decodedText (member : String) : Except DecodeError Answer → Option String
  | .ok (.value value) => (value.member? member).bind Value.string?
  | _ => none

/-- An empty element of the showcase with attributes. -/
def emptyTop (attributes : String) : List Char :=
  "<Top ".toList ++ attributes.toList ++ "/>".toList

/-- Its start tag. -/
def topTag (attributes : String) : RawTag :=
  ⟨"Top".toList, ' ' :: attributes.toList⟩

/-- An identifier that is given twice under different qualifiers, once behind a version and once in
front of it. -/
theorem same_ids_decode : ∃ b fn tag, rest = .ok b ∧ b.callable? "de_top" = some fn ∧
    b.call? "de_top" = some (fn.run b) ∧
    StartTag.ofRaw (topTag "p:id=\"1\" version=\"3\" id=\"1\"") = .ok tag ∧
    tag.Settles "p:id" ∧
    (∀ tag' : StartTag, tag'.name = tag.name → tag'.attributes.Perm tag.attributes →
      tag'.get? "id" = tag.get? "id") ∧
    fn.run b (Xml.utf8Bytes (emptyTop "p:id=\"1\" version=\"3\" id=\"1\"")) =
      fn.run b (Xml.utf8Bytes (emptyTop "version=\"3\" id=\"1\" p:id=\"1\"")) ∧
    decodedText "id" (fn.run b (Xml.utf8Bytes (emptyTop "p:id=\"1\" version=\"3\" id=\"1\""))) =
      some "1" := by
  let before := emptyTop "p:id=\"1\" version=\"3\" id=\"1\""
  let after := emptyTop "version=\"3\" id=\"1\" p:id=\"1\""
  let tag : StartTag := ⟨⟨none, "Top"⟩,
    [⟨⟨some "p", "id"⟩, "1"⟩, ⟨⟨none, "version"⟩, "3"⟩, ⟨⟨none, "id"⟩, "1"⟩]⟩
  obtain ⟨horder, hqualified, hfunctions⟩ := call_of_reordered
  obtain ⟨b, hb, hfound⟩ := Showcase.exists_bindings { errorWrapping := false }
    (fun b ↦ (b.callable? "de_top").any fun fn ↦
      ((fn.rootRole (Xml.utf8Bytes before)).attributes b == ["id", "version"]) &&
        decodedText "id" (fn.run b (Xml.utf8Bytes before)) == some "1")
    (by decide +kernel)
  obtain ⟨fn, hfn, hroot⟩ := (Option.any_eq_true _ _).mp hfound
  obtain ⟨hattributes, hid⟩ := Bool.and_eq_true_iff.mp hroot
  have htag : StartTag.ofRaw (topTag "p:id=\"1\" version=\"3\" id=\"1\"") = .ok tag := by
    decide +kernel
  have hsettled : (topTag "p:id=\"1\" version=\"3\" id=\"1\"").Settled ["id", "version"] :=
    .of_read htag (by decide +kernel)
  have hpermutes : (topTag "p:id=\"1\" version=\"3\" id=\"1\"").Permutes
      (topTag "version=\"3\" id=\"1\" p:id=\"1\"") :=
    ⟨rfl, by decide +kernel, by decide +kernel, by decide +kernel⟩
  have hreordered : BytesReordered b (fn.rootRole (Xml.utf8Bytes before)) (Xml.utf8Bytes before)
      (Xml.utf8Bytes after) := by
    have hbefore : (Xml.Stream.ofChars before).tokens =
        [.start (topTag "p:id=\"1\" version=\"3\" id=\"1\""), .close "Top".toList] := by
      decide +kernel
    have hafter : (Xml.Stream.ofChars after).tokens =
        [.start (topTag "version=\"3\" id=\"1\" p:id=\"1\""), .close "Top".toList] := by
      decide +kernel
    refine ⟨before, after, by decide +kernel, by decide +kernel, by decide +kernel, ?_⟩
    rw [hbefore, hafter]
    refine .permuted hpermutes ?_ (.close _ .nil)
    rwa [← eq_of_beq hattributes] at hsettled
  obtain ⟨hcall, hsame⟩ := hfunctions b "de_top"
  rw [hfn] at hcall
  exact ⟨b, fn, tag, hb, hfn, hcall, htag,
    hqualified _ tag "p:id" htag (by decide +kernel), (horder tag "id").mpr (by decide +kernel),
    hsame fn hfn _ _ hreordered, eq_of_beq hid⟩

/-- The first of two identifiers under different qualifiers is the one that a look-up finds, and the
one that the decoder of the element gives.  The first of two unknown entities is the one that keeps
a tag from being read. -/
theorem first_attribute_counts :
    (topTag "p:id=\"1\" q:id=\"2\"").Permutes (topTag "q:id=\"2\" p:id=\"1\"") ∧
    (∃ tag tag', StartTag.ofRaw (topTag "p:id=\"1\" q:id=\"2\"") = .ok tag ∧
      StartTag.ofRaw (topTag "q:id=\"2\" p:id=\"1\"") = .ok tag' ∧
      tag'.attributes.Perm tag.attributes ∧
      tag.get? "id" = some "1" ∧ tag'.get? "id" = some "2") ∧
    Xml.Stream.ofChars (emptyTop "p:id=\"1\" q:id=\"2\"") =
      ⟨[.start (topTag "p:id=\"1\" q:id=\"2\""), .close "Top".toList], none⟩ ∧
    Xml.Stream.ofChars (emptyTop "q:id=\"2\" p:id=\"1\"") =
      ⟨[.start (topTag "q:id=\"2\" p:id=\"1\""), .close "Top".toList], none⟩ ∧
    (∃ b f, rest = .ok b ∧ b.call? "de_top" = some f ∧
      decodedText "id" (f (Xml.utf8Bytes (emptyTop "p:id=\"1\" q:id=\"2\""))) = some "1" ∧
      decodedText "id" (f (Xml.utf8Bytes (emptyTop "q:id=\"2\" p:id=\"1\""))) = some "2") ∧
    StartTag.ofRaw (topTag "id=\"&first;\" version=\"&second;\"") ≠
      StartTag.ofRaw (topTag "version=\"&second;\" id=\"&first;\"") := by
  refine ⟨⟨rfl, by decide +kernel, by decide +kernel, by decide +kernel⟩,
    ⟨⟨⟨none, "Top"⟩, [⟨⟨some "p", "id"⟩, "1"⟩, ⟨⟨some "q", "id"⟩, "2"⟩]⟩,
      ⟨⟨none, "Top"⟩, [⟨⟨some "q", "id"⟩, "2"⟩, ⟨⟨some "p", "id"⟩, "1"⟩]⟩,
      by decide +kernel, by decide +kernel, by decide +kernel, by decide +kernel,
      by decide +kernel⟩, by decide +kernel, by decide +kernel, ?_, by decide +kernel⟩
  obtain ⟨b, hb, hfound⟩ := Showcase.exists_bindings { errorWrapping := false }
    (fun b ↦ (b.call? "de_top").any fun f ↦
      decodedText "id" (f (Xml.utf8Bytes (emptyTop "p:id=\"1\" q:id=\"2\""))) == some "1" &&
        decodedText "id" (f (Xml.utf8Bytes (emptyTop "q:id=\"2\" p:id=\"1\""))) == some "2")
    (by decide +kernel)
  obtain ⟨f, hf, hanswers⟩ := (Option.any_eq_true _ _).mp hfound
  obtain ⟨hfirst, hsecond⟩ := Bool.and_eq_true_iff.mp hanswers
  exact ⟨b, f, hb, hf, eq_of_beq hfirst, eq_of_beq hsecond⟩

end Samples

end WireShapes
