import WireShapes.Proofs.Assembly

/-!
# How generated decoders read

One level of the recursion of decoders is `Bindings.level`: what it does to an element, given what
is done to elements inside it.  Every decoder form is `Made` of answers, texts and folds over
children, so one induction over the levels serves for all there is to say about documents
(`Bindings.made_read`): what decoders read, how they fail, how deep their values nest, and that
levels past the nesting limit of documents make no difference.
-/

namespace WireShapes

open Wire (DecodeError Element Reading StartTag)
open Code (Ident)

/-! ## How deep values nest -/

/-- Structures and unions nest at most so deep in a value. -/
inductive Value.Nests : (levels : Nat) → Value → Prop
  | datum (levels : Nat) (datum : Datum) : Nests levels (.datum datum)
  | list {levels : Nat} {items : List Value} :
      (∀ item ∈ items, item.Nests levels) → Nests levels (.list items)
  | map {levels : Nat} {entries : List (Datum × Value)} :
      (∀ entry ∈ entries, entry.2.Nests levels) → Nests levels (.map entries)
  | struct {levels : Nat} {members : List (String × Value)} :
      (∀ member ∈ members, member.2.Nests levels) → Nests (levels + 1) (.struct members)
  | variant {levels : Nat} {payload : Value} (member : String) :
      payload.Nests levels → Nests (levels + 1) (.variant member payload)
  | unknownVariant (levels : Nat) : Nests (levels + 1) .unknownVariant

namespace Value.Nests

variable {levels : Nat} {value : Value}

theorem succ (h : value.Nests levels) : value.Nests (levels + 1) := by
  induction h with
  | datum levels datum => exact .datum _ datum
  | list _ ih => exact .list ih
  | map _ ih => exact .map ih
  | struct _ ih => exact .struct ih
  | variant member _ ih => exact .variant member ih
  | unknownVariant levels => exact .unknownVariant _

theorem of_items (h : value.Nests levels) : ∀ item ∈ value.items, item.Nests levels := by
  cases h with
  | list hitems => exact hitems
  | _ => simp [Value.items]

theorem of_entries (h : value.Nests levels) : ∀ entry ∈ value.entries, entry.2.Nests levels := by
  cases h with
  | map hentries => exact hentries
  | _ => simp [Value.entries]

end Value.Nests

/-- The members set so far nest at most so deep. -/
def Builder.Nests (levels : Nat) (builder : Builder) : Prop :=
  ∀ member ∈ builder.members, member.2.Nests levels

namespace Builder.Nests

variable {levels : Nat} {builder : Builder} {value item : Value}

theorem empty (levels : Nat) : Builder.empty.Nests levels := by
  intro member hmember
  simp [Builder.empty] at hmember

theorem set (h : builder.Nests levels) (member : String) (hvalue : value.Nests levels) :
    (builder.set member (some value)).Nests levels := by
  intro entry hentry
  rcases Table.mem_put hentry with rfl | hmem
  · exact hvalue
  · exact h entry hmem

theorem get? (h : builder.Nests levels) {member : String}
    (hvalue : builder.get? member = some value) : value.Nests levels := by
  obtain ⟨before, after, hmembers, -⟩ := List.lookup_eq_some_iff.mp hvalue
  exact h (member, value) (by simp [hmembers])

theorem push (h : builder.Nests levels) (member : String) (hitem : item.Nests levels) :
    (builder.push member item).Nests levels := by
  apply h.set
  refine .list fun other hother ↦ ?_
  rcases List.mem_append.mp hother with hmem | hlast
  · cases hheld : builder.get? member with
    | none => simp [hheld] at hmem
    | some held => exact (h.get? hheld).of_items other (by simpa [hheld] using hmem)
  · exact List.mem_singleton.mp hlast ▸ hitem

theorem insert (h : builder.Nests levels) (member : String) (key : Datum)
    (hvalue : value.Nests levels) : (builder.insert member key value).Nests levels := by
  apply h.set
  refine .map fun entry hentry ↦ ?_
  rcases Table.mem_put hentry with rfl | hmem
  · exact hvalue
  · cases hheld : builder.get? member with
    | none => simp [hheld] at hmem
    | some held => exact (h.get? hheld).of_entries entry (by simpa [hheld] using hmem)

theorem buildFields (h : builder.Nests levels) {shape : String} {fields : List Bindings.Field}
    {members : List (String × Value)} (hbuild : builder.buildFields shape fields = .ok members) :
    ∀ member ∈ members, member.2.Nests levels := by
  induction fields generalizing members with
  | nil =>
    obtain rfl : [] = members := by simpa [Builder.buildFields] using hbuild
    simp
  | cons field rest ih =>
    unfold Builder.buildFields at hbuild
    split at hbuild
    · rename_i value hvalue
      obtain ⟨later, hlater, rfl⟩ := Failing.map_eq_ok.mp hbuild
      intro member hmember
      rcases List.mem_cons.mp hmember with rfl | hmem
      · exact h.get? hvalue
      · exact ih hlater member hmem
    · split at hbuild
      · simp at hbuild
      · exact ih hbuild

end Builder.Nests

namespace Bindings

/-! ## Looking declarations up -/

section Lookups

variable (b : Bindings) (allows : DecodeError → Prop)

/-- A look-up finds what is called, unless it may be undeclared. -/
def Finds (ident : Ident) (found : Prop) : Prop :=
  found ∨ allows (.undeclared ident.toText)

def TextSource.Resolves : TextSource → Prop
  | .enum type => Finds allows type (b.enumDecl? type).isSome
  | _ => True

/-- The decoder of a structure, and the structure's type. -/
def StructResolves (decoder type : Ident) : Prop :=
  Finds allows decoder (∃ d, b.decoder? decoder = some (.struct d)) ∧
    Finds allows type (b.structDecl? type).isSome

def Source.Resolves : Source → Prop
  | .text source => source.Resolves b allows
  | .struct decoder type => StructResolves b allows decoder type
  | .shape decoder => Finds allows decoder
      (∃ decl, b.decoder? decoder = some decl ∧ ∀ d, decl ≠ .struct d)

def EntryResolves (entry : Ident) : Prop :=
  Finds allows entry (b.entryDecoder? entry).isSome

def StructAction.Resolves : StructAction → Prop
  | .set _ value => value.source.Resolves b allows
  | .push _ item => item.source.Resolves b allows
  | .insert _ entry => EntryResolves b allows entry

def UnionAction.Resolves : UnionAction → Prop
  | .set value => value.source.Resolves b allows
  | .push item => item.source.Resolves b allows
  | .insert entry => EntryResolves b allows entry

/-- Everything that a decoder looks up is found, unless it may be undeclared. -/
def DecoderDecl.Resolves : DecoderDecl → Prop
  | .struct d => (∀ arm ∈ d.attributes, arm.value.source.Resolves b allows) ∧
      ∀ arm ∈ d.arms, arm.action.Resolves b allows
  | .union d => ∀ arm ∈ d.arms, arm.action.Resolves b allows
  | .list d => d.item.source.Resolves b allows
  | .map d => d.key.source.Resolves b allows ∧ d.value.source.Resolves b allows ∧
      EntryResolves b allows d.entryIdent

/-- Decoding fails on values alone: on a text, on an entry without a part, on a member that is not
set, and on what the bindings do not declare, unless they declare it. -/
structure Fails : Prop where
  scalar : ∀ kind text, allows (.scalar kind text)
  incompleteEntry : ∀ entry missing, allows (.incompleteEntry entry missing)
  missingMember : ∀ shape member, allows (.missingMember shape member)
  resolves : ∀ decl ∈ b.decoders, decl.Resolves b allows

end Lookups

/-! ## One level -/

/-- Reads an element as a value, given how elements inside it are read. -/
def level (b : Bindings) (read : Reader) : Reader
  | .text source, e => do
    let text ← e.text
    Reading.give (.datum <$> b.datum source text)
  | .struct decoder type, e => do
    let builder ← b.fillBy read decoder e
    Reading.give (b.build type builder)
  | .shape decoder, e => b.readShape read decoder e

theorem read_succ (b : Bindings) (levels : Nat) :
    b.read (levels + 1) = b.level (b.read levels) := by
  funext source e
  cases source <;> rfl

/-! ## Decoders are made of folds -/

variable {b : Bindings} {allows : DecodeError → Prop} {limit levels depth : Nat}
  {read read' : Reader} {e : Element}

/-- Two ways to read an element so far down are made alike. -/
def MadeAlike (b : Bindings) (allows : DecodeError → Prop) (limit levels depth : Nat)
    (read read' : Reader) : Prop :=
  ∀ source (e : Element), e.closed = false → depth ≤ e.depth → source.Resolves b allows →
    Reading.Made allows limit true e (Value.Nests levels) (read source e) (read' source e)

theorem declared_fails {α : Type} {ident : Ident} {found : Option α} {error : DecodeError}
    (hfinds : Finds allows ident found.isSome) (herror : declared ident found = .error error) :
    allows error := by
  cases found with
  | some decl => simp [declared] at herror
  | none =>
    obtain rfl : DecodeError.undeclared ident.toText = error := by simpa [declared] using herror
    simpa [Finds] using hfinds

theorem datum_fails (hfails : b.Fails allows) {source : TextSource} {text : String}
    {error : DecodeError} (hsource : source.Resolves b allows)
    (herror : b.datum source text = .error error) : allows error := by
  cases source with
  | string => simp [datum] at herror
  | scalar kind =>
    cases hvalue : kind.value? text with
    | some value => simp [datum, hvalue] at herror
    | none =>
      obtain rfl : DecodeError.scalar kind.label text = error := by
        simpa [datum, hvalue] using herror
      exact hfails.scalar _ _
  | enum type =>
    exact declared_fails hsource (Failing.map_eq_error.mp herror)

theorem armFor_mem {α : Type} {pattern : α → String} {arms : List α} {start : StartTag} {arm : α}
    (h : armFor pattern arms start = some arm) : arm ∈ arms :=
  List.mem_of_find?_eq_some h

/-! ### Entries -/

theorem made_entryChild (hfails : b.Fails allows)
    (hread : b.MadeAlike allows limit levels (e.depth + 1) read read') {d : MapDecoder}
    (hkey : d.key.source.Resolves b allows) (hvalue : d.value.source.Resolves b allows)
    {parts : EntryParts} (hparts : ∀ value ∈ parts.2, value.Nests levels) {child : Element}
    (hopen : child.closed = false) (hdepth : child.depth = e.depth + 1) :
    Reading.Made allows limit false child (fun parts ↦ ∀ value ∈ parts.2, value.Nests levels)
      (b.entryChild read d parts child) (b.entryChild read' d parts child) := by
  unfold entryChild
  cases d.part? child.start with
  | none => exact .pure hparts
  | some part =>
    cases part with
    | key =>
      refine .whole (.then_answer
        (fun text ↦ (fun key ↦ (some key, parts.2)) <$> b.datum d.key.source text)
        (fun text ↦ by cases b.datum d.key.source text <;> rfl) .text
        (fun _ _ _ herror ↦ datum_fails hfails hkey (Failing.map_eq_error.mp herror))
        fun text after _ hafter ↦ ?_)
      obtain ⟨key, -, rfl⟩ := Failing.map_eq_ok.mp hafter
      exact hparts
    | value =>
      refine .whole (.then_pure (hread _ _ hopen (Nat.le_of_eq hdepth.symm) hvalue) ?_)
      intro value hnests other hother
      obtain rfl : value = other := by simpa using hother
      exact hnests

theorem made_readEntry (hfails : b.Fails allows)
    (hread : b.MadeAlike allows limit levels (e.depth + 1) read read') {d : MapDecoder}
    (hkey : d.key.source.Resolves b allows) (hvalue : d.value.source.Resolves b allows) :
    Reading.Made allows limit true e (fun entry ↦ entry.2.Nests levels) (b.readEntry read d e)
      (b.readEntry read' d e) := by
  refine .then_give (.fold (by simp) fun parts child hparts hopen hdepth ↦
    made_entryChild hfails hread hkey hvalue hparts hopen hdepth) ?_ ?_
  · rintro ⟨key, value⟩ error - herror
    rcases key with - | key
    · obtain rfl : DecodeError.incompleteEntry e.name d.keyPattern = error := by
        simpa [entryOf] using herror
      exact hfails.incompleteEntry _ _
    · rcases value with - | value
      · obtain rfl : DecodeError.incompleteEntry e.name d.valuePattern = error := by
          simpa [entryOf] using herror
        exact hfails.incompleteEntry _ _
      · simp [entryOf] at herror
  · rintro ⟨key, value⟩ entry hparts hentry
    rcases key with - | key
    · simp [entryOf] at hentry
    · rcases value with - | value
      · simp [entryOf] at hentry
      · obtain rfl : (key, value) = entry := by simpa [entryOf] using hentry
        exact hparts value rfl

theorem entryDecoder_mem {entry : Ident} {d : MapDecoder} (h : b.entryDecoder? entry = some d) :
    .map d ∈ b.decoders := by
  obtain ⟨decl, hmem, hdecl⟩ := List.exists_of_findSome?_eq_some h
  cases decl with
  | map m =>
    have heq : m = d := by
      by_contra hne
      simp [hne] at hdecl
    exact heq ▸ hmem
  | _ => simp at hdecl

theorem made_readEntryBy (hfails : b.Fails allows)
    (hread : b.MadeAlike allows limit levels (e.depth + 1) read read') {entry : Ident}
    (hentry : EntryResolves b allows entry) :
    Reading.Made allows limit true e (fun entry ↦ entry.2.Nests levels)
      (b.readEntryBy read entry e) (b.readEntryBy read' entry e) := by
  refine .after_give (fun error herror ↦ declared_fails hentry herror) fun d hd ↦ ?_
  have hdecoder : b.entryDecoder? entry = some d := by
    cases hfound : b.entryDecoder? entry with
    | none => simp [declared, hfound] at hd
    | some decl => simpa [declared, hfound] using hd
  obtain ⟨hkey, hvalue, -⟩ := hfails.resolves _ (entryDecoder_mem hdecoder)
  exact made_readEntry hfails hread hkey hvalue

/-! ### Structures -/

theorem readAttributes_fails (hfails : b.Fails allows) {start : StartTag}
    {arms : List AttributeArm} (harms : ∀ arm ∈ arms, arm.value.source.Resolves b allows)
    {builder : Builder} {error : DecodeError}
    (herror : b.readAttributes start builder arms = .error error) : allows error := by
  induction arms generalizing builder with
  | nil => simp [readAttributes] at herror
  | cons arm rest ih =>
    obtain ⟨harm, hrest⟩ := List.forall_mem_cons.mp harms
    unfold readAttributes at herror
    split at herror
    · exact ih hrest herror
    · rename_i text _
      rcases Failing.bind_eq_error.mp herror with hdatum | ⟨value, -, hlater⟩
      · exact datum_fails hfails harm hdatum
      · exact ih hrest hlater

theorem readAttributes_nests {start : StartTag} {arms : List AttributeArm}
    {builder after : Builder} (hbuilder : builder.Nests levels)
    (h : b.readAttributes start builder arms = .ok after) : after.Nests levels := by
  induction arms generalizing builder with
  | nil =>
    obtain rfl : builder = after := by simpa [readAttributes] using h
    exact hbuilder
  | cons arm rest ih =>
    unfold readAttributes at h
    split at h
    · exact ih hbuilder h
    · obtain ⟨value, -, hlater⟩ := Failing.bind_eq_ok.mp h
      exact ih (hbuilder.set _ (.datum _ value)) hlater

theorem made_structChild (hfails : b.Fails allows)
    (hread : b.MadeAlike allows limit levels (e.depth + 1) read read') {d : StructDecoder}
    (harms : ∀ arm ∈ d.arms, arm.action.Resolves b allows) {builder : Builder}
    (hbuilder : builder.Nests levels) {child : Element} (hopen : child.closed = false)
    (hdepth : child.depth = e.depth + 1) :
    Reading.Made allows limit false child (Builder.Nests levels)
      (b.structChild read d builder child) (b.structChild read' d builder child) := by
  unfold structChild
  cases harm : armFor StructArm.pattern d.arms child.start with
  | none => exact .pure hbuilder
  | some arm =>
    have haction := harms arm (armFor_mem harm)
    obtain ⟨pattern, member, action⟩ := arm
    cases action with
    | set setter value =>
      exact .whole (.then_pure (hread _ _ hopen (Nat.le_of_eq hdepth.symm) haction)
        fun _ hvalue ↦ hbuilder.set _ hvalue)
    | push method item =>
      exact .whole (.then_pure (hread _ _ hopen (Nat.le_of_eq hdepth.symm) haction)
        fun _ hitem ↦ hbuilder.push _ hitem)
    | insert method entry =>
      have hchild : b.MadeAlike allows limit levels (child.depth + 1) read read' :=
        fun source e hopen hlevel ↦ hread source e hopen (by omega)
      exact .whole (.then_pure (made_readEntryBy hfails hchild haction)
        fun entry hentry ↦ hbuilder.insert _ _ hentry)

theorem made_fill (hfails : b.Fails allows)
    (hread : b.MadeAlike allows limit levels (e.depth + 1) read read') {d : StructDecoder}
    (hd : DecoderDecl.Resolves b allows (.struct d)) {builder : Builder}
    (hbuilder : builder.Nests levels) :
    Reading.Made allows limit true e (Builder.Nests levels) (b.fill read d builder e)
      (b.fill read' d builder e) :=
  .after_give (fun _ herror ↦ readAttributes_fails hfails hd.1 herror) fun _ hafter ↦
    .fold (readAttributes_nests hbuilder hafter) fun _ _ hbuilder hopen hdepth ↦
      made_structChild hfails hread hd.2 hbuilder hopen hdepth

theorem made_fillBy (hfails : b.Fails allows)
    (hread : b.MadeAlike allows limit levels (e.depth + 1) read read') {decoder : Ident}
    (hdecoder : Finds allows decoder (∃ d, b.decoder? decoder = some (.struct d))) :
    Reading.Made allows limit true e (Builder.Nests levels) (b.fillBy read decoder e)
      (b.fillBy read' decoder e) := by
  rcases hdecoder with ⟨d, hd⟩ | hallows
  · simp only [fillBy, hd]
    exact made_fill hfails hread (hfails.resolves _ (List.mem_of_find?_eq_some hd)) (.empty levels)
  · unfold fillBy
    split
    · rename_i d hd
      exact made_fill hfails hread (hfails.resolves _ (List.mem_of_find?_eq_some hd))
        (.empty levels)
    · exact .fail hallows

theorem buildFields_fails (hfails : b.Fails allows) {builder : Builder} {shape : String}
    {fields : List Field} {error : DecodeError}
    (herror : builder.buildFields shape fields = .error error) : allows error := by
  induction fields with
  | nil => simp [Builder.buildFields] at herror
  | cons field rest ih =>
    unfold Builder.buildFields at herror
    split at herror
    · exact ih (Failing.map_eq_error.mp herror)
    · split at herror
      · obtain rfl : DecodeError.missingMember shape field.member = error := by
          simpa using herror
        exact hfails.missingMember _ _
      · exact ih herror

theorem build_fails (hfails : b.Fails allows) {type : Ident}
    (htype : Finds allows type (b.structDecl? type).isSome) {builder : Builder}
    {error : DecodeError} (herror : b.build type builder = .error error) : allows error := by
  rcases Failing.bind_eq_error.mp herror with hdecl | ⟨decl, -, hbuild⟩
  · exact declared_fails htype hdecl
  · exact buildFields_fails hfails (Failing.map_eq_error.mp hbuild)

theorem build_nests {type : Ident} {builder : Builder} (hbuilder : builder.Nests levels)
    {value : Value} (h : b.build type builder = .ok value) : value.Nests (levels + 1) := by
  obtain ⟨decl, -, hbuild⟩ := Failing.bind_eq_ok.mp h
  obtain ⟨members, hmembers, rfl⟩ := Failing.map_eq_ok.mp hbuild
  exact .struct (hbuilder.buildFields hmembers)

/-! ### Unions, lists and maps -/

/-- What a union holds nests at most so deep. -/
def Held.Nests (levels : Nat) (held : Held) : Prop :=
  ∀ holder ∈ held, holder.2.Nests levels

theorem Held.Nests.heldOf {held : Held} (h : held.Nests levels) {member : String} {value : Value}
    (hvalue : heldOf held member = some value) : value.Nests levels := by
  unfold Bindings.heldOf at hvalue
  split at hvalue
  · split at hvalue
    · obtain rfl := Option.some.inj hvalue
      exact h _ rfl
    · simp at hvalue
  · simp at hvalue

theorem made_unionChild (hfails : b.Fails allows)
    (hread : b.MadeAlike allows limit levels (e.depth + 1) read read') {d : UnionDecoder}
    (harms : ∀ arm ∈ d.arms, arm.action.Resolves b allows) {held : Held}
    (hheld : held.Nests levels) {child : Element} (hopen : child.closed = false)
    (hdepth : child.depth = e.depth + 1) :
    Reading.Made allows limit false child (Held.Nests levels)
      (b.unionChild read d held child) (b.unionChild read' d held child) := by
  unfold unionChild
  cases harm : armFor UnionArm.pattern d.arms child.start with
  | none => exact .pure hheld
  | some arm =>
    have haction := harms arm (armFor_mem harm)
    obtain ⟨pattern, member, variant, action⟩ := arm
    cases action with
    | set value =>
      refine .whole (.then_pure (hread _ _ hopen (Nat.le_of_eq hdepth.symm) haction) ?_)
      intro value hvalue holder hholder
      obtain rfl : (member, value) = holder := by simpa using hholder
      exact hvalue
    | push item =>
      refine .whole (.then_pure (hread _ _ hopen (Nat.le_of_eq hdepth.symm) haction) ?_)
      intro value hvalue holder hholder
      obtain rfl := Option.some.inj hholder
      refine .list fun other hother ↦ ?_
      rcases List.mem_append.mp hother with hmem | hlast
      · cases hown : heldOf held member with
        | none => simp [hown] at hmem
        | some own => exact (hheld.heldOf hown).of_items other (by simpa [hown] using hmem)
      · exact List.mem_singleton.mp hlast ▸ hvalue
    | insert entry =>
      have hchild : b.MadeAlike allows limit levels (child.depth + 1) read read' :=
        fun source e hopen hlevel ↦ hread source e hopen (by omega)
      refine .whole (.then_pure (made_readEntryBy hfails hchild haction) ?_)
      intro entry hentry holder hholder
      obtain rfl := Option.some.inj hholder
      refine .map fun other hother ↦ ?_
      rcases Table.mem_put hother with rfl | hmem
      · exact hentry
      · cases hown : heldOf held member with
        | none => simp [hown] at hmem
        | some own => exact (hheld.heldOf hown).of_entries other (by simpa [hown] using hmem)

theorem made_readUnion (hfails : b.Fails allows)
    (hread : b.MadeAlike allows limit levels (e.depth + 1) read read') {d : UnionDecoder}
    (hd : DecoderDecl.Resolves b allows (.union d)) :
    Reading.Made allows limit true e (Value.Nests (levels + 1)) (b.readUnion read d e)
      (b.readUnion read' d e) := by
  refine .then_pure (.fold (fun holder hholder ↦ by simp at hholder) fun _ _ hheld hopen hdepth ↦
    made_unionChild hfails hread hd hheld hopen hdepth) ?_
  intro held hheld
  cases held with
  | none => exact .unknownVariant levels
  | some holder => exact .variant holder.1 (hheld holder rfl)

theorem made_readList (hread : b.MadeAlike allows limit levels (e.depth + 1) read read')
    {d : ListDecoder} (hd : DecoderDecl.Resolves b allows (.list d)) :
    Reading.Made allows limit true e (Value.Nests (levels + 1)) (readList read d e)
      (readList read' d e) := by
  unfold readList
  refine .then_pure (.fold (List.forall_mem_nil _) fun items child hitems hopen hdepth ↦ ?_)
    fun _ hitems ↦ (Value.Nests.list hitems).succ
  split
  · refine .whole (.then_pure (hread _ _ hopen (Nat.le_of_eq hdepth.symm) hd) ?_)
    intro item hitem other hother
    rcases List.mem_append.mp hother with hmem | hlast
    · exact hitems other hmem
    · exact List.mem_singleton.mp hlast ▸ hitem
  · exact .pure hitems

theorem made_readMap (hfails : b.Fails allows)
    (hread : b.MadeAlike allows limit levels (e.depth + 1) read read') {d : MapDecoder}
    (hd : DecoderDecl.Resolves b allows (.map d)) :
    Reading.Made allows limit true e (Value.Nests (levels + 1)) (b.readMap read d e)
      (b.readMap read' d e) := by
  unfold readMap
  refine .then_pure (.fold (List.forall_mem_nil _) fun entries child hentries hopen hdepth ↦ ?_)
    fun _ hentries ↦ (Value.Nests.map hentries).succ
  split
  · have hchild : b.MadeAlike allows limit levels (child.depth + 1) read read' :=
      fun source e hopen hlevel ↦ hread source e hopen (by omega)
    refine .whole (.then_pure (made_readEntryBy hfails hchild hd.2.2) ?_)
    intro entry hentry other hother
    rcases Table.mem_put hother with rfl | hmem
    · exact hentry
    · exact hentries other hmem
  · exact .pure hentries

theorem made_readShape (hfails : b.Fails allows)
    (hread : b.MadeAlike allows limit levels (e.depth + 1) read read') {decoder : Ident}
    (hdecoder : Finds allows decoder
      (∃ decl, b.decoder? decoder = some decl ∧ ∀ d, decl ≠ .struct d)) :
    Reading.Made allows limit true e (Value.Nests (levels + 1)) (b.readShape read decoder e)
      (b.readShape read' decoder e) := by
  unfold readShape
  split
  · rename_i d hd
    exact made_readUnion hfails hread (hfails.resolves _ (List.mem_of_find?_eq_some hd))
  · rename_i d hd
    exact made_readList hread (hfails.resolves _ (List.mem_of_find?_eq_some hd))
  · rename_i d hd
    exact made_readMap hfails hread (hfails.resolves _ (List.mem_of_find?_eq_some hd))
  · rename_i hunion hlist hmap
    refine .fail (hdecoder.resolve_left ?_)
    rintro ⟨decl, hdecl, hstruct⟩
    cases decl with
    | struct d => exact hstruct d rfl
    | union d => exact hunion d hdecl
    | list d => exact hlist d hdecl
    | map d => exact hmap d hdecl

/-! ## Every level -/

theorem made_level (hfails : b.Fails allows)
    (hread : b.MadeAlike allows limit levels (e.depth + 1) read read') (source : Source)
    (hsource : source.Resolves b allows) :
    Reading.Made allows limit true e (Value.Nests (levels + 1)) (b.level read source e)
      (b.level read' source e) := by
  cases source with
  | text source =>
    refine .then_give .text
      (fun _ _ _ herror ↦ datum_fails hfails hsource (Failing.map_eq_error.mp herror))
      fun text value _ hvalue ↦ ?_
    obtain ⟨datum, -, rfl⟩ := Failing.map_eq_ok.mp hvalue
    exact .datum _ datum
  | struct decoder type =>
    exact .then_give (made_fillBy hfails hread hsource.1)
      (fun builder error _ herror ↦ build_fails hfails hsource.2 herror)
      fun builder value hbuilder hvalue ↦ build_nests hbuilder hvalue
  | shape decoder => exact made_readShape hfails hread hsource

/-- Elements that nest deeper than the limit have no influence on what is read, however they would
be read; errors are those that are allowed, and values nest no deeper than the levels. -/
theorem madeAlike_iterate (hfails : b.Fails allows) (read read' : Reader)
    (hdepth : limit < depth + levels) :
    b.MadeAlike allows limit levels depth (b.level^[levels] read) (b.level^[levels] read') := by
  induction levels generalizing depth with
  | zero => exact fun source e _ hlevel _ ↦ .deep (Nat.lt_of_lt_of_le hdepth hlevel)
  | succ levels ih =>
    intro source e _ hlevel hsource
    rw [Function.iterate_succ_apply', Function.iterate_succ_apply']
    exact made_level hfails (ih (by omega)) source hsource

theorem read_add (b : Bindings) (levels more : Nat) :
    b.read (levels + more) = b.level^[levels] (b.read more) := by
  induction levels with
  | zero => rw [Nat.zero_add, Function.iterate_zero_apply]
  | succ levels ih => rw [Nat.succ_add, read_succ, ih, Function.iterate_succ_apply']

theorem readElement_eq (b : Bindings) (hlevels : levels ≤ Wire.defaultMaxDepth) :
    b.readElement = b.level^[levels] (b.read (Wire.defaultMaxDepth - levels)) := by
  rw [readElement, ← read_add, Nat.add_sub_cancel' hlevels]

/-- How an element is read depends on as many levels as it may nest, however deeper ones are. -/
theorem madeAlike_readElement (hfails : b.Fails allows) (read : Reader)
    (hlevels : levels ≤ Wire.defaultMaxDepth) (hdepth : Wire.defaultMaxDepth < depth + levels) :
    b.MadeAlike allows Wire.defaultMaxDepth levels depth b.readElement (b.level^[levels] read) := by
  rw [readElement_eq b hlevels]
  exact madeAlike_iterate hfails _ read hdepth

theorem madeAlike_self (hfails : b.Fails allows) (hlevels : levels ≤ Wire.defaultMaxDepth)
    (hdepth : Wire.defaultMaxDepth < depth + levels) :
    b.MadeAlike allows Wire.defaultMaxDepth levels depth b.readElement b.readElement := by
  have halike :=
    madeAlike_readElement hfails (b.read (Wire.defaultMaxDepth - levels)) hlevels hdepth
  rwa [← readElement_eq b hlevels] at halike

/-! ## Where every error is allowed -/

section All

variable (b : Bindings)

theorem TextSource.resolves_all (source : TextSource) : source.Resolves b fun _ ↦ True := by
  cases source with
  | enum type => exact .inr trivial
  | _ => exact trivial

theorem Source.resolves_all (source : Source) : source.Resolves b fun _ ↦ True := by
  cases source with
  | text source => exact source.resolves_all b
  | struct decoder type => exact ⟨.inr trivial, .inr trivial⟩
  | shape decoder => exact .inr trivial

theorem StructAction.resolves_all (action : StructAction) :
    action.Resolves b fun _ ↦ True := by
  cases action with
  | set setter value => exact value.source.resolves_all b
  | push method item => exact item.source.resolves_all b
  | insert method entry => exact .inr trivial

theorem UnionAction.resolves_all (action : UnionAction) : action.Resolves b fun _ ↦ True := by
  cases action with
  | set value => exact value.source.resolves_all b
  | push item => exact item.source.resolves_all b
  | insert entry => exact .inr trivial

/-- Where every error is allowed, nothing has to be declared. -/
theorem fails_all : b.Fails fun _ ↦ True where
  scalar _ _ := trivial
  incompleteEntry _ _ := trivial
  missingMember _ _ := trivial
  resolves decl _ := by
    cases decl with
    | struct d => exact ⟨fun arm _ ↦ arm.value.source.resolves_all b,
        fun arm _ ↦ arm.action.resolves_all b⟩
    | union d => exact fun arm _ ↦ arm.action.resolves_all b
    | list d => exact d.item.source.resolves_all b
    | map d => exact ⟨d.key.source.resolves_all b, d.value.source.resolves_all b, .inr trivial⟩

end All

end Bindings

end WireShapes
