import WireShapes.Proofs.Definitions

/-!
# Legal identifiers

Names come from models and may be any text.  Dropping characters can leave nothing of them, a
leading digit, a lone underscore or a keyword, and an identifier made from such a word is refused.
Here every way of naming things in generated code is shown to give an identifier that can be made
and that is read back as one.
-/

namespace WireShapes.Code

/-! ## What is legal -/

/-- Words that the 2021 edition uses for itself or keeps for later. -/
def reservedWords : List String := [
  "as", "break", "const", "continue", "crate", "else", "enum", "extern", "false", "fn", "for",
  "if", "impl", "in", "let", "loop", "match", "mod", "move", "mut", "pub", "ref", "return", "self",
  "Self", "static", "struct", "super", "trait", "true", "type", "unsafe", "use", "where", "while",
  "async", "await", "dyn",
  "abstract", "become", "box", "do", "final", "macro", "override", "priv", "typeof", "unsized",
  "virtual", "yield", "try"]

/-- Words that are refused as raw identifiers. -/
def refusedRaw : List String := ["_", "crate", "self", "super", "Self"]

/-- ASCII letters, digits and underscores. -/
def ContinueChars (cs : List Char) : Prop :=
  ∀ c ∈ cs, c.isAlphanum ∨ c = '_'

/-- At least one of those characters, the first of them no digit. -/
def WordChars : List Char → Prop
  | [] => False
  | c :: rest => (c.isAlpha ∨ c = '_') ∧ ContinueChars rest

instance : DecidablePred ContinueChars :=
  fun cs ↦ List.decidableBAll (fun c : Char ↦ c.isAlphanum = true ∨ c = '_') cs

instance : DecidablePred WordChars
  | [] => inferInstanceAs (Decidable False)
  | _ :: _ => inferInstanceAs (Decidable (_ ∧ _))

/-- What is read as an identifier: a word that is not reserved, or any but a few words after the
mark of a raw identifier. -/
inductive LegalText : String → Prop
  | plain {word : String} (chars : WordChars word.toList) (letter : word ≠ "_")
      (free : word ∉ reservedWords) : LegalText word
  | raw {word : String} (chars : WordChars word.toList) (allowed : word ∉ refusedRaw) :
      LegalText ("r#" ++ word)

/-- An identifier that can be made, since it is made of a word and raw only where that is allowed,
and that is printed as one. -/
structure Ident.Legal (ident : Ident) : Prop where
  chars : WordChars ident.name.toList
  allowed : ident.raw → ident.name ∉ refusedRaw
  text : LegalText ident.toText

/-! ## Words -/

theorem isWordChar_iff {c : Char} : Text.isWordChar c ↔ c.isAlphanum ∨ c = '_' := by
  have hranges : c.isAlphanum = (decide (c.val ≥ 65 ∧ c.val ≤ 90) ||
      decide (c.val ≥ 97) && decide (c.val ≤ 122) ||
      decide (c.val ≥ 48) && decide (c.val ≤ 57)) := rfl
  have hascii (h : c.isAlphanum) : c.toNat < 128 := by
    simp only [hranges, Bool.or_eq_true, Bool.and_eq_true, decide_eq_true_eq, ge_iff_le,
      UInt32.le_iff_toNat_le] at h
    simp only [Char.toNat]
    grind
  simp only [Text.isWordChar, Bool.or_eq_true, Bool.and_eq_true, decide_eq_true_eq, beq_iff_eq]
  grind

namespace WordChars

variable {cs more : List Char}

theorem continueChars (h : WordChars cs) : ContinueChars cs := by
  cases cs with
  | nil => exact h.elim
  | cons first rest =>
    obtain ⟨hfirst, hrest⟩ := h
    intro c hc
    rcases List.mem_cons.mp hc with rfl | hc
    · exact hfirst.imp_left fun halpha ↦ by simp [Char.isAlphanum, halpha]
    · exact hrest c hc

theorem append (h : WordChars cs) (hmore : ContinueChars more) : WordChars (cs ++ more) := by
  cases cs with
  | nil => exact h.elim
  | cons first rest =>
    obtain ⟨hfirst, hrest⟩ := h
    refine ⟨hfirst, fun c hc ↦ ?_⟩
    rcases List.mem_append.mp hc with hc | hc
    · exact hrest c hc
    · exact hmore c hc

end WordChars

/-- What is completed is a word, also where nothing or a digit was left at its start. -/
theorem wordChars_completed {fallback : String} (hfallback : WordChars fallback.toList)
    {cs : List Char} (hcs : ∀ c ∈ cs, Text.isWordChar c) :
    WordChars (completed fallback cs).toList := by
  have hchars : ContinueChars cs := fun c hc ↦ isWordChar_iff.mp (hcs c hc)
  cases cs with
  | nil => exact hfallback
  | cons first rest =>
    unfold completed
    rw [String.toList_ofList]
    split
    · exact ⟨.inr rfl, hchars⟩
    next hdigit =>
      have hfirst := hchars first List.mem_cons_self
      exact ⟨by simpa [Char.isAlphanum, hdigit] using hfirst,
        fun c hc ↦ hchars c (List.mem_cons_of_mem _ hc)⟩

theorem wordChars_camelName (name : String) : WordChars (camelName name).toList := by
  apply wordChars_completed (by decide)
  exact fun c hc ↦ (List.mem_filter.mp hc).2

theorem wordChars_snakeName (name : String) : WordChars (snakeName name).toList := by
  apply wordChars_completed (by decide)
  exact fun c hc ↦ (List.mem_filter.mp hc).2

/-! ## Identifiers -/

/-- Every reserved word is known as a keyword, or as one that has no raw form. -/
theorem reservedWords_subset : reservedWords ⊆ keywords ++ neverRaw := by
  decide +kernel

/-- An underscore sets the words that have no raw form apart from what is reserved. -/
theorem free_of_mem_neverRaw :
    ∀ word ∈ neverRaw, word ++ "_" ≠ "_" ∧ word ++ "_" ∉ reservedWords := by
  decide +kernel

theorem refusedRaw_subset : refusedRaw ⊆ neverRaw := by
  decide

variable {word : String}

/-- Any word makes a legal identifier. -/
theorem legal_ofText (h : WordChars word.toList) : (Ident.ofText word).Legal := by
  unfold Ident.ofText
  split
  next hnever =>
    have hchars : WordChars (word ++ "_").toList := by
      rw [String.toList_append]
      exact h.append (by decide)
    obtain ⟨hletter, hfree⟩ := free_of_mem_neverRaw word hnever
    exact ⟨hchars, nofun, .plain hchars hletter hfree⟩
  next hnever =>
    have hallowed : word ∉ refusedRaw := fun hmem ↦ hnever (refusedRaw_subset hmem)
    split
    next => exact ⟨h, fun _ ↦ hallowed, .raw h hallowed⟩
    next hkeyword =>
      have hletter : word ≠ "_" := fun heq ↦ hnever (by simp [neverRaw, heq])
      have hfree : word ∉ reservedWords := fun hmem ↦
        (List.mem_append.mp (reservedWords_subset hmem)).elim hkeyword hnever
      exact ⟨h, nofun, .plain h hletter hfree⟩

/-- A word before the name, and characters of words after it, leave a word. -/
theorem legal_functionIdent {before after : String} (hbefore : WordChars before.toList)
    (hafter : ContinueChars after.toList) (name : String) :
    (functionIdent before name after).Legal := by
  apply legal_ofText
  rw [String.toList_append, String.toList_append]
  exact (hbefore.append (wordChars_snakeName name).continueChars).append hafter

theorem legal_camelName_append {after : String} (hafter : ContinueChars after.toList)
    (name : String) :
    (Ident.ofText (camelName name ++ after)).Legal := by
  apply legal_ofText
  rw [String.toList_append]
  exact (wordChars_camelName name).append hafter

/-- What the functions of generated code have before and after the name that they are about. -/
def functionAffixes : List (String × String) := [
  ("de_", ""), ("de_", "_entry"), ("set_", ""), ("get_", ""), ("push_", ""), ("insert_", ""),
  ("as_", ""), ("is_", ""), ("parse_", "_input"), ("parse_", "_output"), ("parse_", "_error")]

theorem wordChars_functionAffixes : ∀ affix ∈ functionAffixes,
    WordChars affix.1.toList ∧ ContinueChars affix.2.toList := by
  decide

theorem legal_camelIdent (name : String) : (camelIdent name).Legal :=
  legal_ofText (wordChars_camelName name)

theorem legal_snakeIdent (name : String) : (snakeIdent name).Legal :=
  legal_ofText (wordChars_snakeName name)

theorem legal_builderTypeIdent (name : String) : (builderTypeIdent name).Legal :=
  legal_camelName_append (by decide) name

theorem legal_errorTypeIdent (name : String) : (errorTypeIdent name).Legal :=
  legal_camelName_append (by decide) name

theorem legal_of_mem_functionAffixes {before after : String}
    (h : (before, after) ∈ functionAffixes) (name : String) :
    (functionIdent before name after).Legal := by
  obtain ⟨hbefore, hafter⟩ := wordChars_functionAffixes _ h
  exact legal_functionIdent hbefore hafter name

/-- Whatever a model calls something, everything that is named after it has a legal identifier. -/
theorem legal_idents (name : String) :
    (camelIdent name).Legal ∧ (snakeIdent name).Legal ∧
      (∀ affix ∈ functionAffixes, (functionIdent affix.1 name affix.2).Legal) ∧
      (builderTypeIdent name).Legal ∧ (errorTypeIdent name).Legal :=
  ⟨legal_camelIdent name, legal_snakeIdent name,
    fun _ haffix ↦ legal_of_mem_functionAffixes haffix name,
    legal_builderTypeIdent name, legal_errorTypeIdent name⟩

/-- Accented letters are dropped, and the underscore between them is not left alone. -/
theorem legal_idents_of_accents :
    ("de_", "_entry") ∈ functionAffixes ∧ (functionIdent "de_" "é-é" "_entry").Legal ∧
      (snakeIdent "é-é").toText = "__" ∧ (snakeIdent "é-é").Legal := by
  obtain ⟨-, hsnake, hfunctions, -⟩ := legal_idents "é-é"
  have haffix : ("de_", "_entry") ∈ functionAffixes := by decide
  exact ⟨haffix, hfunctions _ haffix, by decide +kernel, hsnake⟩

end WireShapes.Code

namespace WireShapes.Bindings

open Code (Ident LegalText typeNames functionNames variantNames methodNames)
open Code (legal_camelIdent legal_snakeIdent legal_builderTypeIdent legal_errorTypeIdent)
open Code (legal_of_mem_functionAffixes)

/-! ## Names in generated code -/

variable {ctx : Context} {owner shape : Shape} {member : Member} {members : List Member}

theorem legal_adder {adder : Adder} (h : AdderOf ctx member (some adder)) :
    adder.method.Legal := by
  obtain ⟨target, -, hadder⟩ := h
  split at hadder
  · obtain ⟨type, -, heq⟩ := hadder
    obtain rfl := Option.some.inj heq
    exact legal_of_mem_functionAffixes (by decide) member.name
  · obtain ⟨keyType, valueType, -, -, heq⟩ := hadder
    obtain rfl := Option.some.inj heq
    exact legal_of_mem_functionAffixes (by decide) member.name
  · cases hadder

theorem legal_field {field : Field} (h : FieldOf ctx owner member field) :
    ∀ ident ∈ field.methodIdents, ident.Legal := by
  have hset : field.setter.Legal := by
    rw [h.setter_eq]
    exact legal_of_mem_functionAffixes (by decide) member.name
  have hget : field.getter.Legal := by
    rw [h.getter_eq]
    exact legal_of_mem_functionAffixes (by decide) member.name
  have hadder : ∀ adder ∈ field.adder, adder.method.Legal := fun adder hadder ↦
    legal_adder (Option.mem_def.mp hadder ▸ h.adder)
  simp only [Field.methodIdents, List.forall_mem_append, List.forall_mem_cons, List.forall_mem_map,
    Option.mem_toList]
  exact ⟨⟨h.ident_eq ▸ legal_snakeIdent member.name, hset, hget, nofun⟩, hadder⟩

theorem legal_case {case : UnionCase} (h : CaseOf ctx owner member case) :
    case.variant.Legal ∧ ∀ ident ∈ case.methodIdents, ident.Legal := by
  have has : case.asMethod.Legal := by
    rw [h.asMethod_eq]
    exact legal_of_mem_functionAffixes (by decide) member.name
  have his : case.isMethod.Legal := by
    rw [h.isMethod_eq]
    exact legal_of_mem_functionAffixes (by decide) member.name
  simp only [UnionCase.methodIdents, List.forall_mem_cons]
  exact ⟨h.variant_eq ▸ legal_camelIdent member.name, has, his, nofun⟩

/-- Words of the generator's own that are printed as they stand are legal. -/
theorem legalText_own (words : List String)
    (hwords : ∀ word ∈ words, Plain word ∧ Code.WordChars word.toList) :
    ∀ word ∈ words, LegalText word := by
  intro word hword
  obtain ⟨hplain, hchars⟩ := hwords word hword
  have hlegal := (Code.legal_ofText hchars).text
  rwa [toText_ofText_of_plain hplain] at hlegal

theorem legalText_append {idents : List Ident} (hidents : ∀ ident ∈ idents, ident.Legal)
    {words : List String} (hwords : ∀ word ∈ words, LegalText word) :
    ∀ name ∈ idents.map Ident.toText ++ words, LegalText name := by
  refine List.forall_mem_append.mpr ⟨List.forall_mem_map.mpr ?_, hwords⟩
  exact fun ident hident ↦ (hidents ident hident).text

theorem legal_typeIdents {made : TypeDecl} (h : TypeOf ctx shape (some made)) :
    ∀ ident ∈ made.typeIdents, ident.Legal := by
  rw [typeIdents_shape h, List.forall_mem_map]
  have htype := legal_camelIdent shape.name
  have hbuilder := legal_builderTypeIdent shape.name
  unfold shapeTypes
  cases shape.form with
  | struct members => simp [htype, hbuilder]
  | union members | enum values => simp [htype]
  | scalar kind | list item | map key value => simp

theorem legal_variants {made : TypeDecl} (h : TypeOf ctx shape (some made)) :
    ∀ entry ∈ made.variants, ∀ name ∈ entry.2, LegalText name := by
  cases made with
  | struct decl => nofun
  | union decl =>
    obtain ⟨members, -, hof⟩ := h
    have hvariants : ∀ ident ∈ decl.cases.map UnionCase.variant, ident.Legal := by
      refine List.forall_mem_map.mpr fun case hcase ↦ ?_
      obtain ⟨member, -, hcaseOf⟩ := Failing.exists_of_mem_right hof.cases hcase
      exact (legal_case hcaseOf).1
    have hlegal := legalText_append hvariants (legalText_own ["Unknown"] (by decide))
    simpa [TypeDecl.variants, Function.comp_def] using hlegal
  | enum decl =>
    obtain ⟨values, -, hof⟩ := h
    have hvariants : ∀ ident ∈ decl.cases.map EnumCase.variant, ident.Legal := by
      refine List.forall_mem_map.mpr fun case hcase ↦ ?_
      obtain ⟨value, -, hcaseOf⟩ := Failing.exists_of_mem_right hof.cases hcase
      exact hcaseOf.variant_eq ▸ legal_camelIdent value.name
    have hlegal := legalText_append hvariants (legalText_own ["Unknown"] (by decide))
    simpa [TypeDecl.variants, Function.comp_def] using hlegal

theorem legal_methods {made : TypeDecl} (h : TypeOf ctx shape (some made)) :
    ∀ entry ∈ made.methods, ∀ name ∈ entry.2, LegalText name := by
  cases made with
  | struct decl =>
    obtain ⟨members, -, hof⟩ := h
    have hmethods : ∀ ident ∈ decl.fields.flatMap Field.methodIdents, ident.Legal := by
      refine List.forall_mem_flatMap.mpr fun field hfield ↦ ?_
      obtain ⟨member, -, hfieldOf⟩ := Failing.exists_of_mem_right hof.fields hfield
      exact legal_field hfieldOf
    unfold TypeDecl.methods
    refine List.forall_mem_cons.mpr ⟨legalText_own ["builder"] (by decide), ?_⟩
    refine List.forall_mem_singleton.mpr ?_
    exact legalText_append hmethods (legalText_own ["build"] (by decide))
  | union decl =>
    obtain ⟨members, -, hof⟩ := h
    have hmethods : ∀ ident ∈ decl.cases.flatMap UnionCase.methodIdents, ident.Legal := by
      refine List.forall_mem_flatMap.mpr fun case hcase ↦ ?_
      obtain ⟨member, -, hcaseOf⟩ := Failing.exists_of_mem_right hof.cases hcase
      exact (legal_case hcaseOf).2
    refine List.forall_mem_singleton.mpr ?_
    exact legalText_append hmethods (legalText_own ["is_unknown"] (by decide))
  | enum decl =>
    exact List.forall_mem_singleton.mpr (legalText_own ["as_str", "values"] (by decide))

theorem legal_decoderFunctions (shape : Shape) : ∀ ident ∈ decoderFunctions shape, ident.Legal := by
  have hdecoder : (decoderIdent shape.name).Legal :=
    legal_of_mem_functionAffixes (by decide) shape.name
  have hentry : (entryIdent shape.name).Legal :=
    legal_of_mem_functionAffixes (by decide) shape.name
  unfold decoderFunctions
  cases shape.form with
  | struct members | union members | list item => simp [hdecoder]
  | map key value => simp [hdecoder, hentry]
  | scalar kind | enum values => simp

variable {op : Operation} {functions after : Claims}

theorem legal_entryPoints (op : Operation) : ∀ ident ∈ entryPoints op, ident.Legal := by
  have hinput : (Code.functionIdent "parse_" op.name "_input").Legal :=
    legal_of_mem_functionAffixes (by decide) op.name
  have houtput : (Code.functionIdent "parse_" op.name "_output").Legal :=
    legal_of_mem_functionAffixes (by decide) op.name
  have herror : (Code.functionIdent "parse_" op.name "_error").Legal :=
    legal_of_mem_functionAffixes (by decide) op.name
  simp [entryPoints, or_imp, forall_and, hinput, houtput, herror]

variable {b : Bindings} {reached : List String}

theorem legal_errorVariants {decl : OperationErrorDecl} (h : ErrorsOf ctx op decl) :
    ∀ name ∈ decl.variants.2, LegalText name := by
  obtain ⟨shapes, -, hcases⟩ := h.shapes
  have hvariants : ∀ ident ∈ decl.cases.map ErrorCase.variant, ident.Legal := by
    refine List.forall_mem_map.mpr fun case hcase ↦ ?_
    obtain ⟨shape, -, hvariant, -⟩ := Failing.exists_of_mem_right hcases hcase
    exact hvariant ▸ legal_camelIdent shape.name
  have hlegal := legalText_append hvariants (legalText_own ["Unhandled"] (by decide))
  simpa [OperationErrorDecl.variants, Function.comp_def] using hlegal

theorem legal_typeNames (h : ctx.declarationsFor reached = .ok b) :
    ∀ name ∈ typeNames b.code, LegalText name := by
  rw [typeNames, (defines_code b).types_eq]
  refine List.forall_mem_map.mpr fun ident hident ↦ ?_
  rcases List.mem_append.mp hident with hmem | hmem
  · obtain ⟨made, hmade, hident⟩ := List.mem_flatMap.mp hmem
    obtain ⟨shape, -, hof⟩ := Context.exists_shape_of_mem_types h hmade
    exact (legal_typeIdents hof ident hident).text
  · obtain ⟨decl, hdecl, rfl⟩ := List.mem_map.mp hmem
    obtain ⟨-, -, herrors, -⟩ := Context.declarationsFor_ok h
    obtain ⟨op, -, hof⟩ := Failing.exists_of_mem_right herrors hdecl
    exact (hof.ident_eq ▸ legal_errorTypeIdent op.name).text

theorem legal_functionNames (hkeyed : ctx.model.Keyed)
    (hbindings : BindingMap.ofModel ctx.model ctx.defaults = .ok ctx.bindings)
    (h : ctx.declarationsFor reached = .ok b) : ∀ name ∈ functionNames b.code, LegalText name := by
  rw [functionNames_eq hkeyed hbindings h]
  refine List.forall_mem_map.mpr fun ident hident ↦ ?_
  rcases List.mem_append.mp hident with hmem | hmem
  · obtain ⟨shape, -, hident⟩ := List.mem_flatMap.mp hmem
    exact (legal_decoderFunctions shape ident hident).text
  · obtain ⟨op, -, hident⟩ := List.mem_flatMap.mp hmem
    exact (legal_entryPoints op ident hident).text

theorem legal_variantNames (h : ctx.declarationsFor reached = .ok b) :
    ∀ entry ∈ variantNames b.code, LegalText entry.2 := by
  rw [variantNames, (defines_code b).variants_eq]
  rintro ⟨owner, name⟩ hentry
  obtain ⟨names, hnames, hname⟩ := Code.mem_owned_iff.mp hentry
  rcases List.mem_append.mp hnames with hmem | hmem
  · obtain ⟨made, hmade, hmem⟩ := List.mem_flatMap.mp hmem
    obtain ⟨shape, -, hof⟩ := Context.exists_shape_of_mem_types h hmade
    exact legal_variants hof _ hmem name hname
  · obtain ⟨decl, hdecl, heq⟩ := List.mem_map.mp hmem
    obtain ⟨-, -, herrors, -⟩ := Context.declarationsFor_ok h
    obtain ⟨op, -, hof⟩ := Failing.exists_of_mem_right herrors hdecl
    exact legal_errorVariants hof name (heq ▸ hname)

theorem legal_methodNames (h : ctx.declarationsFor reached = .ok b) :
    ∀ entry ∈ methodNames b.code, LegalText entry.2 := by
  rw [methodNames, (defines_code b).methods_eq]
  rintro ⟨owner, name⟩ hentry
  obtain ⟨names, hnames, hname⟩ := Code.mem_owned_iff.mp hentry
  obtain ⟨made, hmade, hmem⟩ := List.mem_flatMap.mp hnames
  obtain ⟨shape, -, hof⟩ := Context.exists_shape_of_mem_types h hmade
  exact legal_methods hof _ hmem name hname

/-- Every name that generated code defines is legal: types, functions, variants and methods. -/
theorem legal_code {m : Model} {defaults : Defaults} (hkeyed : m.Keyed)
    (h : m.bindings defaults = .ok b) :
    (∀ name ∈ typeNames b.code ++ functionNames b.code, LegalText name) ∧
      ∀ entry ∈ variantNames b.code ++ methodNames b.code, LegalText entry.2 := by
  obtain ⟨ctx, hmodel, hdefaults, -, hbindings, hmade⟩ := exists_of_bindings h
  have hbroken : ctx.model.Keyed := hmodel ▸ hkeyed.breakCycles
  rw [← hdefaults] at hbindings
  exact ⟨List.forall_mem_append.mpr
      ⟨legal_typeNames hmade, legal_functionNames hbroken hbindings hmade⟩,
    List.forall_mem_append.mpr ⟨legal_variantNames hmade, legal_methodNames hmade⟩⟩

end WireShapes.Bindings
