import WireShapes.Proofs.Resolution
import WireShapes.Proofs.TypeRuns

/-!
# Generated code does what decoders do

In generated bindings every name that is printed is found, so the functions that decoders are
written as do what the decoders do (`Bindings.runs_as_written`): they give the same values, end with
the same errors and read on in the document by as much.  A function that is called decodes an
element one level deeper, and the induction is on the levels that are left.  The functions of
operations are not run here.
-/

namespace WireShapes

open Wire (Element Reading DecodeError)
open Code (Calls Object Fn Ident answered)

/-! ## Functions by their names -/

namespace Code

variable {code : List Decl}

theorem map_functions (code : List Decl) : (functions code).map Prod.fst = functionNames code := by
  rw [functions, functionNames, List.map_filterMap]
  congr
  funext decl
  cases decl <;> rfl

/-- A function is found by its name if names are distinct. -/
theorem lookup_function (hnodup : (functionNames code).Nodup) {function : Fn}
    (hmem : .fn function ∈ code) : (functions code).lookup function.name = some function := by
  rw [← map_functions] at hnodup
  exact (Table.lookup_eq_some_iff_mem hnodup).mpr (List.mem_filterMap.mpr ⟨_, hmem, rfl⟩)

theorem map_members (code : List Decl) : (members code).map Prod.fst = methodNames code := by
  have hparts (parts : List Part) : (parts.filterMap Part.fn?).map Fn.name =
      parts.filterMap Part.functionName? := by
    rw [List.map_filterMap]
    congr
    funext part
    cases part <;> rfl
  rw [members, methodNames, owned, List.map_flatMap]
  induction code with
  | nil => rfl
  | cons decl rest ih =>
    rw [List.flatMap_cons, ih, List.filterMap_cons]
    cases decl with
    | implementation trait type parts =>
      cases trait with
      | some trait => rfl
      | none =>
        cases hname : type.name? with
        | none => simp [Decl.methods?, hname]
        | some owner => simp [Decl.methods?, hname, ← hparts]
    | _ => rfl

/-- A function of a type is found by its name if names are distinct. -/
theorem find?_member (hnodup : (methodNames code).Nodup) {owner : String} {type : Ty}
    {parts : List Part} {function : Fn} (hmem : .implementation none type parts ∈ code)
    (howner : type.name? = some owner) (hpart : .fn function ∈ parts) :
    (members code).find? (fun entry ↦ entry.1 = (owner, function.name)) =
      some ((owner, function.name), function) := by
  rw [← map_members] at hnodup
  have hentry : ((owner, function.name), function) ∈ members code := by
    refine List.mem_flatMap.mpr ⟨_, hmem, ?_⟩
    simp only [howner, Option.toList_some, List.flatMap_cons, List.flatMap_nil, List.append_nil,
      List.mem_map]
    exact ⟨function, List.mem_filterMap.mpr ⟨_, hpart, rfl⟩, rfl⟩
  exact (Table.forall_find?_key_iff (.of_map _ hnodup)).mpr hnodup _ hentry

end Code

namespace Bindings

variable {ctx : Context} {reached : List String} {b : Bindings} {shape : Shape}

/-! ## Types by their names -/

section Types

variable (h : ctx.declarationsFor reached = .ok b)

include h

theorem typeNamed?_eq {made : TypeDecl} (hmade : made ∈ b.types) {ident : Ident}
    (hident : ident ∈ made.typeIdents) : b.typeNamed? ident.toText = some made := by
  have hnodup : (b.types.flatMap fun made ↦ made.typeIdents.map Ident.toText).Nodup := by
    have hall := typeNames_nodup h
    rw [Code.typeNames, (defines_code b).types_eq, List.map_append, List.map_flatMap] at hall
    exact hall.of_append_left
  have hname : ident.toText ∈ made.typeIdents.map Ident.toText := List.mem_map_of_mem hident
  have hsome : (b.typeNamed? ident.toText).isSome :=
    List.find?_isSome.mpr ⟨made, hmade, decide_eq_true hname⟩
  obtain ⟨found, hfound⟩ := Option.isSome_iff_exists.mp hsome
  have hfits := List.find?_some hfound
  rw [hfound, eq_of_nodup_flatMap hnodup (List.mem_of_find?_eq_some hfound) hmade
    (of_decide_eq_true hfits) hname]

/-- A method of a structure or of its builder is the function of that name. -/
theorem callMember_eq {decl : StructDecl} (hdecl : .struct decl ∈ b.types) {owner : Ident}
    (howner : owner ∈ [decl.ident, decl.builder]) {parts : List Code.Part} {function : Fn}
    (hcode : .implementation none (.named owner.toText) parts ∈ decl.code)
    (hpart : .fn function ∈ parts) (arguments : List Object) :
    b.callMember owner.toText function.name arguments = function.call b .none arguments := by
  have hnamed : b.typeNamed? owner.toText = some (.struct decl) := typeNamed?_eq h hdecl howner
  have hfound := Code.find?_member (methodNames_nodup h)
    (mem_code_of_mem_types hdecl hcode) (Code.name?_named _) hpart
  simp [callMember, enumNamed?, hnamed, hfound]

section Structures

variable {members : List Member} {decl : StructDecl} (hdecl : .struct decl ∈ b.types)
  (hof : StructOf ctx shape members decl)

include hdecl

theorem structNamed?_eq : b.structNamed? decl.ident.toText = some decl := by
  have hnamed := typeNamed?_eq h hdecl (show decl.ident ∈ _ by simp [TypeDecl.typeIdents])
  simp [structNamed?, hnamed]

theorem structDecl?_eq_some :
    b.structDecl? decl.ident = some decl := by
  have hsome : (b.structDecl? decl.ident).isSome :=
    List.findSome?_isSome_iff.mpr ⟨_, hdecl, by simp⟩
  obtain ⟨found, hfound⟩ := Option.isSome_iff_exists.mp hsome
  obtain ⟨made, hmade, htake⟩ := List.exists_of_findSome?_eq_some hfound
  cases made with
  | struct other =>
    obtain ⟨hident, rfl⟩ : other.ident = decl.ident ∧ other = found := by simpa using htake
    have hsame := eq_of_mem_typeIdents h hmade hdecl
      (show decl.ident ∈ _ by simp [TypeDecl.typeIdents, hident]) (by simp [TypeDecl.typeIdents])
    rw [hfound, TypeDecl.struct.inj hsame]
  | union _ | enum _ => simp at htake

theorem unionNamed?_struct : b.unionNamed? decl.ident.toText = none := by
  have hnamed := typeNamed?_eq h hdecl (show decl.ident ∈ _ by simp [TypeDecl.typeIdents])
  simp [unionNamed?, hnamed]

theorem callMember_start :
    b.callMember decl.ident.toText "builder" [] = pure (.builder decl .empty) := by
  have hnamed : b.builderNamed? decl.builder.toText = some decl := by
    have hmade := typeNamed?_eq h hdecl (show decl.builder ∈ _ by simp [TypeDecl.typeIdents])
    simp [builderNamed?, hmade]
  have hcode : .implementation none (.named decl.ident.toText) [decl.start] ∈ decl.code := by
    simp [StructDecl.code, StructDecl.type]
  obtain ⟨function, hfunction, hname, hcall⟩ := call_start .none hnamed
  rw [← hname, callMember_eq h hdecl (by simp) hcode (by simp [hfunction]), hcall]

/-- A method of the builder is the function of that name. -/
theorem callMember_builder {function : Fn}
    (hpart : .fn function ∈ decl.fields.flatMap Field.methods ++ [decl.finish])
    (arguments : List Object) :
    b.callMember decl.builder.toText function.name arguments = function.call b .none arguments := by
  have hcode : .implementation none (.named decl.builder.toText)
      (decl.fields.flatMap Field.methods ++ [decl.finish]) ∈ decl.code := by
    simp [StructDecl.code, StructDecl.builderType]
  exact callMember_eq h hdecl (by simp) hcode hpart arguments

include hof

theorem callMember_finish (builder : Builder) :
    b.callMember decl.builder.toText "build" [.builder decl builder] =
      pure (.result (.value <$> builder.build decl)) := by
  obtain ⟨function, hfunction, hname, hcall⟩ :=
    call_finish .none hof.fields_nodup (structNamed?_eq h hdecl)
  rw [← hname, callMember_builder h hdecl (by simp [hfunction]), hcall]

/-- The setter of a member sets it. -/
theorem callMember_setter {member : Member} (hmember : member ∈ members) {object : Object}
    {held : Option Value} (hobject : object.member? = some held) (builder : Builder) :
    b.callMember decl.builder.toText (Code.functionIdent "set_" member.name "").toText
        [.builder decl builder, object] =
      pure (.builder decl (builder.set member.name held)) := by
  obtain ⟨field, hfield, hfieldOf⟩ := Failing.exists_of_mem_left hof.fields hmember
  obtain ⟨function, hmem, hname, hcall⟩ := exists_setter b .none field
  rw [← hfieldOf.setter_eq, ← hname, ← hfieldOf.member_eq, callMember_builder h hdecl
    (List.mem_append_left _ (List.mem_flatMap.mpr ⟨field, hfield, hmem⟩)),
    hcall decl builder held object (fieldNamed?_name hof.fields_nodup hfield) hobject]

/-- The method that adds to a member which targets a list does so. -/
theorem callMember_push {member : Member} (hmember : member ∈ members) {target : Shape}
    {item : Item} (htarget : ctx.model.shape? member.target.target = some target)
    (hform : target.form = .list item) (builder : Builder) (held : Value) :
    b.callMember decl.builder.toText (Code.functionIdent "push_" member.name "").toText
        [.builder decl builder, .value held] =
      pure (.builder decl (builder.push member.name held)) := by
  obtain ⟨field, hfield, hfieldOf⟩ := Failing.exists_of_mem_left hof.fields hmember
  obtain ⟨found, hfound, hadder⟩ := hfieldOf.adder
  obtain rfl := Option.some.inj (htarget.symm.trans hfound)
  rw [hform] at hadder
  obtain ⟨type, -, hadder⟩ := hadder
  obtain ⟨function, hmem, hname, hcall⟩ := exists_push b .none hadder
  rw [← hname, ← hfieldOf.member_eq, callMember_builder h hdecl
    (List.mem_append_left _ (List.mem_flatMap.mpr ⟨field, hfield, hmem⟩)),
    hcall decl builder held (fieldNamed?_name hof.fields_nodup hfield)]

/-- The method that adds to a member which targets a map does so. -/
theorem callMember_insert {member : Member} (hmember : member ∈ members) {target : Shape}
    {key value : Item} (htarget : ctx.model.shape? member.target.target = some target)
    (hform : target.form = .map key value) (builder : Builder) (datum : Datum) (held : Value) :
    b.callMember decl.builder.toText (Code.functionIdent "insert_" member.name "").toText
        [.builder decl builder, .value (.datum datum), .value held] =
      pure (.builder decl (builder.insert member.name datum held)) := by
  obtain ⟨field, hfield, hfieldOf⟩ := Failing.exists_of_mem_left hof.fields hmember
  obtain ⟨found, hfound, hadder⟩ := hfieldOf.adder
  obtain rfl := Option.some.inj (htarget.symm.trans hfound)
  rw [hform] at hadder
  obtain ⟨keyType, valueType, -, -, hadder⟩ := hadder
  obtain ⟨function, hmem, hname, hcall⟩ := exists_insert b .none hadder
  rw [← hname, ← hfieldOf.member_eq, callMember_builder h hdecl
    (List.mem_append_left _ (List.mem_flatMap.mpr ⟨field, hfield, hmem⟩)),
    hcall decl builder datum held (fieldNamed?_name hof.fields_nodup hfield)]

end Structures

/-- A variant of a declared union is found by its name. -/
theorem isVariant {members : List Member} {decl : UnionDecl} (hdecl : .union decl ∈ b.types)
    (hof : UnionOf ctx shape members decl) {member : Member} (hmember : member ∈ members) :
    IsVariant b decl.ident (Code.camelIdent member.name) member.name := by
  obtain ⟨case, hcase, hcaseOf⟩ := Failing.exists_of_mem_left hof.cases hmember
  have hnamed := typeNamed?_eq h hdecl (show decl.ident ∈ _ by simp [TypeDecl.typeIdents])
  have hvariants := (List.nodup_append'.mp hof.variants_nodup).1
  refine ⟨decl, case, by simp [unionNamed?, hnamed], ?_, hcaseOf.member_eq⟩
  rw [← hcaseOf.variant_eq]
  exact (Table.forall_find?_key_iff (.of_map _ hvariants)).mpr hvariants case hcase

/-- Texts are converted as they are written to be. -/
theorem converts (hshape : shape ∈ ctx.model.shapes.values) {source : TextSource}
    (hsource : SourceOf shape (.text source)) {calls : Calls}
    (hmember : calls.member = b.callMember) : source.Converts b calls := by
  cases source with
  | enum type =>
    obtain ⟨⟨values, hform⟩, rfl⟩ := hsource
    obtain ⟨decl, hdecl, hof⟩ := exists_enum h hshape hform
    have hnamed := typeNamed?_eq h hdecl (show decl.ident ∈ _ by simp [TypeDecl.typeIdents])
    rw [hof.ident_eq] at hnamed
    refine ⟨by simp [unionNamed?, hnamed], fun text ↦ ?_⟩
    have hvariants := (List.nodup_append'.mp hof.variants_nodup).1
    have hfound := enumDecl?_eq_some h hdecl
    rw [hof.ident_eq] at hfound
    simp only [hmember, callMember, enumNamed?, hnamed, EnumDecl.convert?_from hvariants,
      textObject, datum, hfound]
    rfl
  | _ => exact trivial

end Types

/-! ## Functions of decoders -/

theorem own_functionIdent (name after : String) : Own (Code.functionIdent "de_" name after) := by
  have hstart (word : String) (hword : word.toList.head? ∈ [some 'd', some 'r']) :
      word ∉ ["Some", "Ok", "Err"] := by
    intro hmem
    simp only [List.mem_cons, List.not_mem_nil, or_false] at hmem
    rcases hmem with rfl | rfl | rfl <;> simp at hword
  apply hstart
  unfold Code.functionIdent Ident.ofText Ident.toText
  split
  · simp
  · split <;> simp

section Decoders

variable (hkeyed : ctx.model.Keyed)
  (hbindings : BindingMap.ofModel ctx.model ctx.defaults = .ok ctx.bindings)
  (h : ctx.declarationsFor reached = .ok b)

include hkeyed hbindings h

theorem functionIdents_nodup :
    (b.decoders.flatMap fun decl ↦ decl.functionIdents.map Ident.toText).Nodup := by
  have hall := functionNames_nodup hkeyed hbindings h
  rw [Code.functionNames, (defines_code b).functions_eq, List.map_append, List.map_flatMap] at hall
  exact hall.of_append_left

/-- The function of a decoder is found by its name. -/
theorem callFunction_eq {decl : DecoderDecl} (hdecl : decl ∈ b.decoders) {function : Fn}
    (hfunction : .fn function ∈ decl.code) (calls : Calls) (arguments : List Object) :
    b.callFunction calls function.name arguments = function.call b calls arguments := by
  have hmem : .fn function ∈ b.code := mem_code_of_mem_decoders hdecl hfunction
  rw [callFunction, Code.lookup_function (functionNames_nodup hkeyed hbindings h) hmem]

theorem map_idents_ne {d : MapDecoder} (hd : .map d ∈ b.decoders) :
    d.ident.toText ≠ d.entryIdent.toText := by
  have hnodup := (List.nodup_flatMap.mp (functionIdents_nodup hkeyed hbindings h)).1 _ hd
  simpa [DecoderDecl.functionIdents] using hnodup

omit hkeyed hbindings h in
theorem decodesEntries_entryIdent {d : MapDecoder} (hd : .map d ∈ b.decoders) :
    b.decodesEntries d.entryIdent.toText = true :=
  List.any_eq_true.mpr ⟨_, hd, by simp⟩

theorem decodesEntries_ident {decl : DecoderDecl} (hdecl : decl ∈ b.decoders) :
    b.decodesEntries decl.ident.toText = false := by
  by_contra hentries
  obtain ⟨made, hmade, hname⟩ := List.any_eq_true.mp (Bool.not_eq_false _ ▸ hentries)
  cases made with
  | map d =>
    have hname : d.entryIdent.toText = decl.ident.toText := by simpa using hname
    have hmem : d.entryIdent.toText ∈ (DecoderDecl.map d).functionIdents.map Ident.toText :=
      List.mem_map_of_mem (by simp [DecoderDecl.functionIdents])
    have hmem' : d.entryIdent.toText ∈ decl.functionIdents.map Ident.toText :=
      hname ▸ List.mem_map_of_mem decl.ident_mem
    obtain rfl := eq_of_nodup_flatMap (functionIdents_nodup hkeyed hbindings h) hmade hdecl hmem
      hmem'
    exact map_idents_ne hkeyed hbindings h hmade hname.symm
  | _ => simp at hname

end Decoders

/-! ## Levels -/

/-- What can be called decodes shapes that nest so deep. -/
structure Serves (b : Bindings) (calls : Calls) (levels : Nat) : Prop where
  function : ∀ decl ∈ b.decoders,
    calls.function decl.ident.toText = b.shapeCalls levels decl.ident.toText
  member : calls.member = b.callMember

/-- Every shape that is reached is read as it is written, by whatever serves so many levels. -/
def SourcesRun (ctx : Context) (reached : List String) (b : Bindings) (levels : Nat) : Prop :=
  ∀ calls, b.Serves calls levels → ∀ shape ∈ ctx.model.shapes.values, shape.name ∈ reached →
    ∀ source, SourceOf shape source → source.Runs b calls (b.read levels)

/-- The functions that a decoder is written as do what it does with an element inside which as many
levels may nest. -/
def DecoderDecl.RunsAs (b : Bindings) (levels : Nat) : DecoderDecl → Prop
  | .struct d => ∃ decl, .struct decl ∈ b.types ∧ decl.builder = d.builder ∧ ∀ e builder,
      (b.calls (levels + 1)).function d.ident.toText [.element e, .builder decl builder] =
        answered (.builder decl) (b.fill (b.read levels) d builder e)
  | .union d => ∀ e, (b.calls (levels + 1)).function d.ident.toText [.element e] =
      answered .value (b.readUnion (b.read levels) d e)
  | .list d => ∀ e, (b.calls (levels + 1)).function d.ident.toText [.element e] =
      answered .value (readList (b.read levels) d e)
  | .map d => ∀ e, (b.calls (levels + 1)).function d.ident.toText [.element e] =
        answered .value (b.readMap (b.read levels) d e) ∧
      (b.calls levels).function d.entryIdent.toText [.element e] =
        answered pairObject (b.readEntry (b.read levels) d e)

section Levels

variable {levels : Nat} (hkeyed : ctx.model.Keyed)
  (hbindings : BindingMap.ofModel ctx.model ctx.defaults = .ok ctx.bindings)
  (h : ctx.declarationsFor reached = .ok b)

theorem serves_shapeCalls (b : Bindings) (levels : Nat) :
    b.Serves ⟨b.shapeCalls levels, b.callMember⟩ levels :=
  ⟨fun _ _ ↦ rfl, rfl⟩

include hkeyed hbindings h

theorem serves_calls (levels : Nat) : b.Serves (b.calls levels) levels := by
  refine ⟨fun decl hdecl ↦ ?_, rfl⟩
  funext arguments
  simp [calls, callsBy, decodesEntries_ident hkeyed hbindings h hdecl]

/-- A function that decodes a shape calls those for one level less. -/
theorem calls_succ {decl : DecoderDecl} (hdecl : decl ∈ b.decoders) {function : Fn}
    (hfunction : .fn function ∈ decl.code) (hname : function.name = decl.ident.toText)
    (arguments : List Object) :
    (b.calls (levels + 1)).function decl.ident.toText arguments =
      function.call b (b.calls levels) arguments := by
  rw [(serves_calls hkeyed hbindings h (levels + 1)).function decl hdecl, shapeCalls, ← hname]
  exact callFunction_eq hkeyed hbindings h hdecl hfunction _ _

/-- A function that decodes entries calls those for the same level. -/
theorem calls_entry {d : MapDecoder} (hd : .map d ∈ b.decoders) {function : Fn}
    (hfunction : .fn function ∈ d.code) (hname : function.name = d.entryIdent.toText)
    (arguments : List Object) :
    (b.calls levels).function d.entryIdent.toText arguments =
      function.call b ⟨b.shapeCalls levels, b.callMember⟩ arguments := by
  rw [← callFunction_eq hkeyed hbindings h hd hfunction, hname]
  simp [calls, callsBy, decodesEntries_entryIdent hd]

section Step

variable (hreaches : Reaches ctx.model reached) (hsources : SourcesRun ctx reached b levels)

include hsources

omit hbindings h in
theorem runs_reads {calls : Calls} (hserves : b.Serves calls levels) {ref : Reference}
    (href : ref.target ∈ reached) {value : Boxing Source} (hreads : Reads ctx ref value) :
    value.source.Runs b calls (b.read levels) := by
  obtain ⟨-, target, htarget, hsource⟩ := hreads
  exact hsources calls hserves target (Model.mem_values_of_shape? htarget)
    (hkeyed.name_of_shape? htarget ▸ href) _ hsource

include hreaches

/-- The function for entries reads an entry. -/
theorem runs_mapEntry {d : MapDecoder} (hd : .map d ∈ b.decoders) (e : Element) :
    (b.calls levels).function d.entryIdent.toText [.element e] =
      answered pairObject (b.readEntry (b.read levels) d e) := by
  obtain ⟨shape, hshape, hreached, key, value, hform, hof⟩ :=
    exists_shape_of_mem_decoders hkeyed hbindings h hd
  obtain ⟨function, hfunction, hname⟩ :
      ∃ function, .fn function ∈ d.code ∧ function.name = d.entryIdent.toText :=
    ⟨_, List.mem_cons_of_mem _ List.mem_cons_self, rfl⟩
  obtain ⟨-, target, htarget, hsource⟩ := hof.key
  rw [calls_entry hkeyed hbindings h hd hfunction hname]
  exact MapDecoder.run_entry hfunction hname (map_idents_ne hkeyed hbindings h hd)
    (converts h (Model.mem_values_of_shape? htarget) hsource rfl)
    (runs_reads hkeyed hsources (serves_shapeCalls b levels)
      (hreaches shape hshape hreached .value value.target (Shape.value_mem_refs hform)) hof.value)

theorem runs_entry {ref : Reference} (href : ref.target ∈ reached) {target : Shape}
    (htarget : ctx.model.shape? ref.target = some target) {key value : Item}
    (hform : target.form = .map key value) :
    EntryRuns b (b.calls levels) (b.read levels) (entryIdent target.name) := by
  refine ⟨own_functionIdent _ _, fun child ↦ ?_⟩
  obtain ⟨decl, hdecl, hof⟩ := exists_decoder hkeyed hbindings h
    (Model.mem_values_of_shape? htarget) (hkeyed.name_of_shape? htarget ▸ href)
    (show decoderIdent target.name ∈ _ by simp [decoderFunctions, hform])
  cases decl with
  | map d =>
    obtain ⟨_, _, -, hof⟩ := hof
    rw [← hof.entry_eq, runs_mapEntry hkeyed hbindings h hreaches hsources hdecl, readEntryBy,
      entryDecoder?_entryIdent hkeyed hbindings h hdecl]
    rfl
  | _ => simp [DecoderOf, hform] at hof

theorem runs_item {ref : Reference} (href : ref.target ∈ reached) {target : Shape}
    (htarget : ctx.model.shape? ref.target = some target) {item : Item}
    (hform : target.form = .list item) {value : Boxing Source}
    (hreads : Reads ctx item.target value) :
    value.source.Runs b (b.calls levels) (b.read levels) := by
  have hname : target.name ∈ reached := hkeyed.name_of_shape? htarget ▸ href
  exact runs_reads hkeyed hsources (serves_calls hkeyed hbindings h levels)
    (hreaches target (Model.mem_values_of_shape? htarget) hname .item item.target
      (Shape.item_mem_refs hform)) hreads

theorem runs_structAction {members : List Member} {decl : StructDecl}
    (hdecl : .struct decl ∈ b.types) (hof : StructOf ctx shape members decl) {member : Member}
    (hmember : member ∈ members) (href : member.target.target ∈ reached) {action : StructAction}
    (haction : ActionOf ctx member action) :
    action.Runs b (b.calls levels) (b.read levels) decl member.name := by
  cases action with
  | set setter value =>
    obtain ⟨rfl, hreads⟩ := haction
    exact ⟨runs_reads hkeyed hsources (serves_calls hkeyed hbindings h levels) href hreads,
      fun builder held ↦ callMember_setter h hdecl hof hmember rfl builder⟩
  | push method item =>
    obtain ⟨rfl, target, listItem, htarget, hform, hreads⟩ := haction
    exact ⟨runs_item hkeyed hbindings h hreaches hsources href htarget hform hreads,
      callMember_push h hdecl hof hmember htarget hform⟩
  | insert method entry =>
    obtain ⟨rfl, target, key, value, htarget, hform, rfl⟩ := haction
    exact ⟨runs_entry hkeyed hbindings h hreaches hsources href htarget hform,
      callMember_insert h hdecl hof hmember htarget hform⟩

theorem runs_unionAction {member : Member} (href : member.target.target ∈ reached)
    {action : UnionAction} (haction : UnionActionOf ctx member action) :
    action.Runs b (b.calls levels) (b.read levels) := by
  cases action with
  | set value =>
    exact runs_reads hkeyed hsources (serves_calls hkeyed hbindings h levels) href haction
  | push item =>
    obtain ⟨target, listItem, htarget, hform, hreads⟩ := haction
    exact runs_item hkeyed hbindings h hreaches hsources href htarget hform hreads
  | insert entry =>
    obtain ⟨target, key, value, htarget, hform, rfl⟩ := haction
    exact runs_entry hkeyed hbindings h hreaches hsources href htarget hform

/-- The functions of a decoder do what it does if those for one level less do. -/
theorem runs_decoder {decl : DecoderDecl} (hdecl : decl ∈ b.decoders) : decl.RunsAs b levels := by
  obtain ⟨shape, hshape, hreached, hof⟩ := exists_shape_of_mem_decoders hkeyed hbindings h hdecl
  have hmember {member : Member} (hmem : member ∈ shape.members) :
      member.target.target ∈ reached := hreaches.member hshape hreached hmem
  cases decl with
  | struct d =>
    obtain ⟨members, hform, hof⟩ := hof
    obtain ⟨made, hmade, hmadeOf⟩ := exists_struct h hshape hform
    refine ⟨made, hmade, hmadeOf.builder_eq.trans hof.builder_eq.symm, fun e builder ↦ ?_⟩
    refine (calls_succ hkeyed hbindings h hdecl List.mem_cons_self rfl _).trans
      (StructDecoder.run List.mem_cons_self (fun arm harm ↦ ?_) fun arm harm ↦ ?_)
    · obtain ⟨member, hmem, hname, hsetter, -, target, htarget, hsource⟩ := hof.attributes arm harm
      refine ⟨converts h (Model.mem_values_of_shape? htarget) hsource rfl, fun builder datum ↦ ?_⟩
      rw [hname, hsetter]
      exact callMember_setter h hmade hmadeOf hmem rfl builder
    · obtain ⟨member, hmem, hname, haction⟩ := hof.arms arm harm
      rw [hname]
      exact runs_structAction hkeyed hbindings h hreaches hsources hmade hmadeOf hmem
        (hmember (by simpa [Shape.members, hform] using hmem)) haction
  | union d =>
    obtain ⟨members, hform, hof⟩ := hof
    obtain ⟨made, hmade, hmadeOf⟩ := exists_union h hshape hform
    have htype : d.type = made.ident := hof.type_eq.trans hmadeOf.ident_eq.symm
    have hnamed : b.unionNamed? d.type.toText = some made := by
      have hfound := typeNamed?_eq h hmade (show made.ident ∈ _ by simp [TypeDecl.typeIdents])
      simp [unionNamed?, htype, hfound]
    intro e
    refine (calls_succ hkeyed hbindings h hdecl List.mem_cons_self rfl _).trans
      (UnionDecoder.run List.mem_cons_self hnamed fun arm harm ↦ ?_)
    obtain ⟨member, hmem, hname, hvariant, haction⟩ := hof.arms arm harm
    rw [htype, hname, hvariant]
    exact ⟨isVariant h hmade hmadeOf hmem, runs_unionAction hkeyed hbindings h hreaches hsources
      (hmember (by simpa [Shape.members, hform] using hmem)) haction⟩
  | list d =>
    obtain ⟨item, hform, hof⟩ := hof
    intro e
    refine (calls_succ hkeyed hbindings h hdecl List.mem_cons_self rfl _).trans
      (ListDecoder.run List.mem_cons_self ?_)
    exact runs_reads hkeyed hsources (serves_calls hkeyed hbindings h levels)
      (hreaches shape hshape hreached .item item.target (Shape.item_mem_refs hform)) hof.item
  | map d =>
    obtain ⟨key, value, hform, hof⟩ := hof
    intro e
    refine ⟨(calls_succ hkeyed hbindings h hdecl List.mem_cons_self rfl _).trans
      (MapDecoder.run List.mem_cons_self rfl (map_idents_ne hkeyed hbindings h hdecl) ?_),
      runs_mapEntry hkeyed hbindings h hreaches hsources hdecl e⟩
    refine ⟨hof.entry_eq ▸ own_functionIdent _ _, fun child ↦ ?_⟩
    rw [runs_mapEntry hkeyed hbindings h hreaches hsources hdecl, readEntryBy,
      entryDecoder?_entryIdent hkeyed hbindings h hdecl]
    rfl

end Step

omit hkeyed hbindings in
/-- What is called for a structure builds it, if its decoder fills the builder. -/
theorem structRuns {decl : StructDecl} {members : List Member} (hdecl : .struct decl ∈ b.types)
    (hof : StructOf ctx shape members decl) {calls : Calls} (hmember : calls.member = b.callMember)
    {fill : Element → Reading Builder}
    (hfills : ∀ child, calls.function (decoderIdent shape.name).toText
      [.element child, .builder decl .empty] = answered (.builder decl) (fill child)) :
    StructRuns b calls (decoderIdent shape.name) (Code.camelIdent shape.name) decl fill := by
  rw [← hof.ident_eq]
  exact {
    notUnion := unionNamed?_struct h hdecl
    start := hmember ▸ callMember_start h hdecl
    fills := hfills
    builds := fun builder ↦ hmember ▸ callMember_finish h hdecl hof builder }

/-- No element can nest deeper than the levels that are left. -/
theorem sourcesRun_zero : SourcesRun ctx reached b 0 := by
  intro calls hserves shape hshape hreached source hsource
  have hdeep (decl : DecoderDecl) (hdecl : decl ∈ b.decoders) (arguments : List Object) :
      calls.function decl.ident.toText arguments =
        pure (.result (.error (.tooDeep Wire.defaultMaxDepth))) := by
    rw [hserves.function decl hdecl]
    rfl
  cases source with
  | text source => exact ⟨converts h hshape hsource hserves.member, fun _ ↦ rfl⟩
  | struct decoder type =>
    obtain ⟨⟨members, hform⟩, rfl, rfl⟩ := hsource
    obtain ⟨decl, hdecl, hof⟩ := exists_struct h hshape hform
    obtain ⟨made, hmade, hmadeOf⟩ := exists_decoder hkeyed hbindings h hshape hreached
      (show decoderIdent shape.name ∈ _ by simp [decoderFunctions, hform])
    refine ⟨decl, fun _ ↦ Reading.fail (.tooDeep Wire.defaultMaxDepth),
      structRuns h hdecl hof hserves.member fun child ↦ ?_, fun _ ↦ rfl⟩
    rw [← hmadeOf.ident_eq]
    exact hdeep made hmade _
  | shape decoder =>
    obtain ⟨rfl, hform⟩ := hsource
    have hmem : decoderIdent shape.name ∈ decoderFunctions shape := by
      rcases hform with ⟨members, hform⟩ | ⟨item, hform⟩ | ⟨key, value, hform⟩ <;>
        simp [decoderFunctions, hform]
    obtain ⟨made, hmade, hmadeOf⟩ := exists_decoder hkeyed hbindings h hshape hreached hmem
    refine ⟨own_functionIdent _ _, fun child ↦ ?_⟩
    rw [← hmadeOf.ident_eq]
    exact hdeep made hmade _

theorem sourcesRun_succ (hruns : ∀ decl ∈ b.decoders, decl.RunsAs b levels) :
    SourcesRun ctx reached b (levels + 1) := by
  intro calls hserves shape hshape hreached source hsource
  have hcalls (decl : DecoderDecl) (hdecl : decl ∈ b.decoders) :
      calls.function decl.ident.toText = (b.calls (levels + 1)).function decl.ident.toText := by
    rw [hserves.function decl hdecl,
      (serves_calls hkeyed hbindings h (levels + 1)).function decl hdecl]
  cases source with
  | text source => exact ⟨converts h hshape hsource hserves.member, fun _ ↦ rfl⟩
  | struct decoder type =>
    obtain ⟨⟨members, hform⟩, rfl, rfl⟩ := hsource
    obtain ⟨decl, hdecl, hof⟩ := exists_struct h hshape hform
    obtain ⟨made, hmade, hmadeOf⟩ := exists_decoder hkeyed hbindings h hshape hreached
      (show decoderIdent shape.name ∈ _ by simp [decoderFunctions, hform])
    cases made with
    | struct d =>
      obtain ⟨other, hother, hbuilder, hfill⟩ := hruns _ hmade
      obtain ⟨_, -, hdecoderOf⟩ := hmadeOf
      have hsame : decl.builder = other.builder :=
        hof.builder_eq.trans (hdecoderOf.builder_eq.symm.trans hbuilder.symm)
      obtain rfl := TypeDecl.struct.inj (eq_of_mem_typeIdents h hother hdecl
        (show decl.builder ∈ _ by simp [TypeDecl.typeIdents, hsame])
        (by simp [TypeDecl.typeIdents]))
      refine ⟨other, b.fill (b.read levels) d .empty,
        structRuns h hother hof hserves.member fun child ↦ ?_, fun child ↦ ?_⟩
      · rw [← hdecoderOf.ident_eq, ← hfill child .empty]
        exact congrFun (hcalls _ hmade) _
      · have hdecoder := decoder?_ident hkeyed hbindings h hmade
        have hbuild (builder : Builder) :
            b.build (Code.camelIdent shape.name) builder = builder.build other := by
          rw [build, ← hof.ident_eq, structDecl?_eq_some h hother]
          rfl
        rw [DecoderDecl.ident, hdecoderOf.ident_eq] at hdecoder
        simp only [read, fillBy, hdecoder, hbuild]
    | _ => simp [DecoderOf, hform] at hmadeOf
  | shape decoder =>
    obtain ⟨rfl, hform⟩ := hsource
    have hmem : decoderIdent shape.name ∈ decoderFunctions shape := by
      rcases hform with ⟨members, hform⟩ | ⟨item, hform⟩ | ⟨key, value, hform⟩ <;>
        simp [decoderFunctions, hform]
    obtain ⟨made, hmade, hmadeOf⟩ := exists_decoder hkeyed hbindings h hshape hreached hmem
    refine ⟨own_functionIdent _ _, fun child ↦ ?_⟩
    have hdecoder := decoder?_ident hkeyed hbindings h hmade
    rw [← hmadeOf.ident_eq, hcalls made hmade]
    cases made with
    | struct d =>
      obtain ⟨_, hstruct, -⟩ := hmadeOf
      rcases hform with ⟨_, hform⟩ | ⟨_, hform⟩ | ⟨_, _, hform⟩ <;> simp [hstruct] at hform
    | union d => simp only [read, readShape, hdecoder]; exact hruns _ hmade child
    | list d => simp only [read, readShape, hdecoder]; exact hruns _ hmade child
    | map d => simp only [read, readShape, hdecoder]; exact (hruns _ hmade child).1

theorem sourcesRun (hreaches : Reaches ctx.model reached) (levels : Nat) :
    SourcesRun ctx reached b levels := by
  induction levels with
  | zero => exact sourcesRun_zero hkeyed hbindings h
  | succ levels ih =>
    exact sourcesRun_succ hkeyed hbindings h fun decl hdecl ↦
      runs_decoder hkeyed hbindings h hreaches ih hdecl

end Levels

/-- The functions that generated code decodes shapes with do what its decoders do: they give the
same values, end with the same errors, and leave the same rest of the document. -/
theorem runs_as_written {m : Model} {defaults : Defaults} (hkeyed : m.Keyed)
    (h : m.bindings defaults = .ok b) (levels : Nat) :
    ∀ decl ∈ b.decoders, decl.RunsAs b levels := by
  intro decl hdecl
  obtain ⟨ctx, hmodel, hdefaults, hsymbols, hbindings, hmade⟩ := exists_of_bindings h
  have hbroken : ctx.model.Keyed := hmodel ▸ hkeyed.breakCycles
  rw [← hdefaults] at hbindings
  have hreaches := reaches_reachable hbroken hsymbols
  exact runs_decoder hbroken hbindings hmade hreaches
    (sourcesRun hbroken hbindings hmade hreaches levels) hdecl

end Bindings

end WireShapes
