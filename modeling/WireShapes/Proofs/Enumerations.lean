import WireShapes.Decoding.Run
import WireShapes.Proofs.GeneratedCode

/-!
# Conversions of enumerations

An enumeration turns a text into a value and a value into a text by two case distinctions, over its
literals and over its variants.  What such code gives is computed from the code itself
(`Code.Fn.run?`), and agrees with what decoders do (`EnumDecl.run_fromText`).

A text is always written back as it was, and is unknown just if no value has it.  The other way
round, no two variants have one identifier, but two values may have one literal: then the first of
them takes the text, and the later ones are never read.
-/

namespace WireShapes

namespace Code

/-! ## Running case distinctions -/

/-- What the conversions of an enumeration take and give: a text, or a variant with the text that it
holds, if it holds one. -/
inductive Operand
  | text (value : String)
  | variant (path : Path) (held : Option String)
deriving DecidableEq

/-- Local variables with what they stand for, the innermost first. -/
abbrev Locals := List (String × Operand)

/-- A name on its own is a variable, any other path a variant. -/
def Path.operand? (locals : Locals) : Path → Option Operand
  | ⟨false, [name]⟩ => locals.lookup name
  | path => some (.variant path none)

/-- The variables that a pattern binds, if it takes an operand. -/
def Pattern.bind? : Pattern → Operand → Option Locals
  | .name bound, operand => some [(bound, operand)]
  | .text literal, .text value => if literal = value then some [] else none
  | .path wanted, .variant made none => if wanted = made then some [] else none
  | .variant wanted [.name bound], .variant made (some held) =>
    if wanted = made then some [(bound, .text held)] else none
  | _, _ => none

mutual

/-- What an expression gives, of those that conversions are made of. -/
def Expr.operand? (locals : Locals) : Expr → Option Operand
  | .text value => some (.text value)
  | .path path => path.operand? locals
  | .call (.path path) [argument] _ =>
    match argument.operand? locals with
    | some (.text held) => some (.variant path (some held))
    | _ => none
  | .method receiver method [] =>
    match receiver.operand? locals with
    | some (.text value) =>
      if method = "as_str" ∨ method = "to_owned" then some (.text value) else none
    | _ => none
  | .cases value arms =>
    match value.operand? locals with
    | some operand => Arm.operand? locals operand arms
    | none => none
  | _ => none

/-- What the first arm gives whose pattern takes the operand. -/
def Arm.operand? (locals : Locals) (operand : Operand) : List Arm → Option Operand
  | [] => none
  | .mk pattern none body :: rest =>
    match pattern.bind? operand with
    | some bound => body.operand? (bound ++ locals)
    | none => Arm.operand? locals operand rest
  | .mk _ (some _) _ :: _ => none

end

/-- What a function of one argument gives. -/
def Fn.run? (function : Fn) (operand : Operand) : Option Operand :=
  match function.parameters, function.body with
  | [.receiver _], [.give body] => body.operand? [("self", operand)]
  | [.typed _ parameter _], [.give body] => body.operand? [(parameter, operand)]
  | _, _ => none

def Part.run? : Part → Operand → Option Operand
  | .fn function, operand => function.run? operand
  | .alias _ _, _ => none

/-- Among arms that bind nothing, the first that takes the operand is taken. -/
theorem Arm.operand?_map_append {α : Type} {locals : Locals} {operand : Operand} {as : List α}
    {pattern : α → Pattern} {body : α → Expr} {takes : α → Bool} {rest : List Arm}
    (htakes : ∀ a ∈ as, (pattern a).bind? operand = if takes a then some [] else none) :
    Arm.operand? locals operand (as.map (fun a ↦ .mk (pattern a) none (body a)) ++ rest) =
      match as.find? takes with
      | some a => (body a).operand? locals
      | none => Arm.operand? locals operand rest := by
  induction as with
  | nil => rfl
  | cons a as ih =>
    obtain ⟨ha, has⟩ := List.forall_mem_cons.mp htakes
    rw [List.map_cons, List.cons_append, Arm.operand?, ha, List.find?_cons]
    cases takes a with
    | true => rfl
    | false => exact ih has

end Code

namespace Bindings

open Code (Operand)

namespace EnumDecl

variable {decl : EnumDecl} {case : EnumCase} {value : Enumerated} {text : String}

/-! ## What decoders do -/

/-- A text is written back as it was. -/
theorem toText_ofText (decl : EnumDecl) (text : String) : (decl.ofText text).toText = text := by
  unfold ofText
  cases hfind : decl.cases.find? fun case ↦ case.literal == text with
  | some case => simpa [Enumerated.toText] using List.find?_some hfind
  | none => rfl

theorem mem_cases_of_ofText (h : decl.ofText text = .known case) : case ∈ decl.cases := by
  unfold ofText at h
  cases hfind : decl.cases.find? fun case ↦ case.literal == text with
  | some found =>
    obtain rfl : found = case := by simpa [hfind] using h
    exact List.mem_of_find?_eq_some hfind
  | none => simp [hfind] at h

theorem ofText_eq_unknown_iff : decl.ofText text = .unknown text ↔ text ∉ decl.literals := by
  unfold ofText literals
  cases hfind : decl.cases.find? fun case ↦ case.literal == text with
  | some case =>
    have hliteral : case.literal = text := by simpa using List.find?_some hfind
    simpa using ⟨case, List.mem_of_find?_eq_some hfind, hliteral⟩
  | none =>
    have hnone := List.find?_eq_none.mp hfind
    simpa using hnone

theorem ofText_literal_eq_iff :
    decl.ofText case.literal = .known case ↔
      decl.cases.find? (fun other ↦ other.literal = case.literal) = some case := by
  unfold ofText
  simp only [beq_eq_decide]
  cases decl.cases.find? fun other ↦ other.literal = case.literal <;> simp

/-! ## Conversions in code -/

/-- A value as the code holds it. -/
def operand (decl : EnumDecl) : Enumerated → Operand
  | .known case => .variant (decl.variantPath case) none
  | .unknown text => .variant decl.unknownPath (some text)

/-- The generated conversion of a text is what decoders do with it. -/
theorem run_fromText (decl : EnumDecl) (text : String) :
    decl.fromText.run? (.text text) = some (decl.operand (decl.ofText text)) := by
  have htakes (case : EnumCase) (_ : case ∈ decl.cases) :
      (Code.Pattern.text case.literal).bind? (.text text) =
        if case.literal == text then some [] else none := by
    simp [Code.Pattern.bind?]
  refine (Code.Arm.operand?_map_append htakes).trans ?_
  unfold ofText
  cases decl.cases.find? fun case ↦ case.literal == text with
  | some case => rfl
  | none => rfl

section Variants

variable (hvariants : (decl.cases.map fun case ↦ case.variant.toText).Nodup)

include hvariants

theorem eq_of_variantPath {other : EnumCase} (hcase : case ∈ decl.cases)
    (hother : other ∈ decl.cases) (hpath : decl.variantPath case = decl.variantPath other) :
    case = other :=
  List.inj_on_of_nodup_map hvariants hcase hother
    (by simpa [variantPath, Code.Path.member] using hpath)

/-- The code tells declared values apart, from one another and from what is unknown. -/
theorem operand_eq_iff (hcase : case ∈ decl.cases)
    (hdeclared : ∀ other, value = .known other → other ∈ decl.cases) :
    decl.operand value = decl.operand (.known case) ↔ value = .known case := by
  refine ⟨fun h ↦ ?_, fun h ↦ by rw [h]⟩
  cases value with
  | known other =>
    have hpath : decl.variantPath other = decl.variantPath case := by simpa [operand] using h
    rw [eq_of_variantPath hvariants (hdeclared other rfl) hcase hpath]
  | unknown text => simp [operand] at h

/-- The generated conversion of a declared value, or of an unknown one, gives its text. -/
theorem run_asText (hdeclared : ∀ case, value = .known case → case ∈ decl.cases) :
    decl.asText.run? (decl.operand value) = some (.text value.toText) := by
  cases value with
  | known case =>
    have htakes (other : EnumCase) (_ : other ∈ decl.cases) :
        (Code.Pattern.path (decl.variantPath other)).bind? (decl.operand (.known case)) =
          if decide (decl.variantPath other = decl.variantPath case) then some [] else none := by
      simp [Code.Pattern.bind?, operand]
    refine (Code.Arm.operand?_map_append htakes).trans ?_
    -- The arm of the value is found by its path, which is no other arm's.
    have hcases : decl.cases.Nodup := .of_map _ hvariants
    have hpaths : (decl.cases.map decl.variantPath).Nodup :=
      (List.nodup_map_iff_inj_on hcases).mpr fun _ hcase _ hother ↦
        eq_of_variantPath hvariants hcase hother
    rw [(Table.forall_find?_key_iff hcases).mpr hpaths case (hdeclared case rfl)]
    rfl
  | unknown text =>
    have htakes (other : EnumCase) (_ : other ∈ decl.cases) :
        (Code.Pattern.path (decl.variantPath other)).bind? (decl.operand (.unknown text)) =
          if false then some [] else none := by
      simp [Code.Pattern.bind?, operand]
    -- No arm of a declared value takes it, which leaves the last arm.
    refine (Code.Arm.operand?_map_append htakes).trans ?_
    rw [List.find?_eq_none.mpr (by simp)]
    simp [Code.Arm.operand?, Code.Pattern.bind?, operand, Code.Expr.operand?, Code.Expr.name,
      Code.Path.operand?, Code.Path.single, Enumerated.toText]

/-- A value is read back from its text just if it is the first that the text finds. -/
theorem run_literal_iff (hcase : case ∈ decl.cases) :
    decl.fromText.run? (.text case.literal) = some (decl.operand (.known case)) ↔
      decl.cases.find? (fun other ↦ other.literal = case.literal) = some case := by
  rw [run_fromText, Option.some_inj,
    operand_eq_iff hvariants hcase fun _ ↦ mem_cases_of_ofText, ofText_literal_eq_iff]

/-- All values are read back from their texts just if the texts are distinct. -/
theorem forall_run_literal_iff :
    (∀ case ∈ decl.cases,
        decl.fromText.run? (.text case.literal) = some (decl.operand (.known case))) ↔
      decl.literals.Nodup := by
  rw [literals, ← Table.forall_find?_key_iff (.of_map _ hvariants)]
  exact forall₂_congr fun case ↦ run_literal_iff hvariants

end Variants

end EnumDecl

/-! ## Generated enumerations -/

section Declared

variable {ctx : Context} {reached : List String} {b : Bindings}

/-- Types with an identifier in common are one type. -/
theorem eq_of_mem_typeIdents (h : ctx.declarationsFor reached = .ok b) {made other : TypeDecl}
    (hmade : made ∈ b.types) (hother : other ∈ b.types) {ident : Code.Ident}
    (hident : ident ∈ made.typeIdents) (hident' : ident ∈ other.typeIdents) : made = other := by
  have hnodup := Context.claimTypes_nodup (Context.declarationsFor_ok h).1
  have hidents : (b.types.flatMap TypeDecl.typeIdents).Nodup := by
    have hall : ((modelTypes ctx.model).map Prod.fst).Nodup :=
      .of_map Code.Ident.toText (by rwa [List.map_map])
    rw [← typeIdents_eq h] at hall
    exact hall.of_append_left
  exact eq_of_nodup_flatMap hidents hmade hother hident hident'

theorem mem_types_of_enumDecl? {ident : Code.Ident} {decl : EnumDecl}
    (h : b.enumDecl? ident = some decl) : .enum decl ∈ b.types ∧ decl.ident = ident := by
  obtain ⟨made, hmade, htake⟩ := List.exists_of_findSome?_eq_some h
  cases made with
  | enum other =>
    obtain ⟨hident, rfl⟩ : other.ident = ident ∧ other = decl := by simpa using htake
    exact ⟨hmade, hident⟩
  | struct _ | union _ => simp at htake

theorem enumDecl?_eq_some (h : ctx.declarationsFor reached = .ok b) {decl : EnumDecl}
    (hdecl : .enum decl ∈ b.types) : b.enumDecl? decl.ident = some decl := by
  have hsome : (b.enumDecl? decl.ident).isSome :=
    List.findSome?_isSome_iff.mpr ⟨_, hdecl, by simp⟩
  obtain ⟨found, hfound⟩ := Option.isSome_iff_exists.mp hsome
  obtain ⟨hmade, hident⟩ := mem_types_of_enumDecl? hfound
  have hshared : decl.ident ∈ (TypeDecl.enum found).typeIdents := by
    simp [TypeDecl.typeIdents, hident]
  have heq := eq_of_mem_typeIdents h hmade hdecl hshared (by simp [TypeDecl.typeIdents])
  rw [hfound, TypeDecl.enum.inj heq]

/-- Enumerations have no references, so breaking cycles leaves them as they are. -/
theorem mem_breakCycles_of_enum {m : Model} {shape : Shape} {values : List EnumValue}
    (hshape : shape ∈ m.shapes.values) (hform : shape.form = .enum values) :
    shape ∈ m.breakCycles.shapes.values := by
  have hmem : some shape ∈ m.shapes.values.map fun shape ↦
      match shape.form with
      | .enum _ => some shape
      | _ => none := List.mem_map.mpr ⟨shape, hshape, by simp [hform]⟩
  rw [← Model.map_values_breakCycles] at hmem
  · obtain ⟨other, hother, heq⟩ := List.mem_map.mp hmem
    split at heq
    · rwa [← Option.some.inj heq]
    · cases heq
  · intro shape
    obtain ⟨name, form, xmlName, xmlNamespace, isError, doc⟩ := shape
    cases form <;> rfl

end Declared

/-- Every enumeration has a type, whose conversions are those that decoders use.  A text is written
back as it was, and is unknown just if no value has it.  A declared value is written as its text,
and is read back from it just if no earlier value has that text: so all values can be read just if
their texts are distinct. -/
theorem enumeration_converts {m : Model} {defaults : Defaults} {b : Bindings}
    (h : m.bindings defaults = .ok b) {shape : Shape} (hshape : shape ∈ m.shapes.values)
    {values : List EnumValue} (hform : shape.form = .enum values) :
    ∃ decl, .enum decl ∈ b.types ∧ decl.ident = Code.camelIdent shape.name ∧
      List.Forall₂ ValueOf values decl.cases ∧
      (∀ text, b.datum (.enum decl.ident) text = .ok (.enum (decl.ofText text)) ∧
        decl.fromText.run? (.text text) = some (decl.operand (decl.ofText text)) ∧
        decl.asText.run? (decl.operand (decl.ofText text)) = some (.text text) ∧
        (decl.ofText text = .unknown text ↔ text ∉ values.map EnumValue.wireText)) ∧
      (∀ before case after, decl.cases = before ++ case :: after →
        decl.asText.run? (decl.operand (.known case)) = some (.text case.literal) ∧
        (decl.fromText.run? (.text case.literal) = some (decl.operand (.known case)) ↔
          ∀ earlier ∈ before, earlier.literal ≠ case.literal)) ∧
      ((∀ case ∈ decl.cases,
          decl.fromText.run? (.text case.literal) = some (decl.operand (.known case))) ↔
        (values.map EnumValue.wireText).Nodup) ∧
      decl.literals = values.map EnumValue.wireText := by
  obtain ⟨ctx, hmodel, -, -, -, hmade⟩ := exists_of_bindings h
  have hbroken : shape ∈ ctx.model.shapes.values := hmodel ▸ mem_breakCycles_of_enum hshape hform
  obtain ⟨decl, hdecl, hof⟩ := exists_enum hmade hbroken hform
  have hvariants := (List.nodup_append'.mp hof.variants_nodup).1
  have hliterals : decl.literals = values.map EnumValue.wireText :=
    (Failing.map_eq_map hof.cases fun hvalue ↦ hvalue.literal_eq.symm).symm
  refine ⟨decl, hdecl, hof.ident_eq, hof.cases, fun text ↦ ⟨?_, decl.run_fromText text, ?_, ?_⟩,
    fun before case after hcases ↦ ?_, ?_, hliterals⟩
  · rw [datum, enumDecl?_eq_some hmade hdecl]
    rfl
  · rw [EnumDecl.run_asText hvariants fun _ ↦ EnumDecl.mem_cases_of_ofText,
      EnumDecl.toText_ofText]
  · rw [EnumDecl.ofText_eq_unknown_iff, hliterals]
  · have hcase : case ∈ decl.cases := by simp [hcases]
    refine ⟨EnumDecl.run_asText hvariants fun other hother ↦ ?_, ?_⟩
    · rwa [← Enumerated.known.inj hother]
    · rw [EnumDecl.run_literal_iff hvariants hcase]
      exact Table.find?_key_eq_some_iff (.of_map _ hvariants) hcases
  · rw [EnumDecl.forall_run_literal_iff hvariants, hliterals]

/-! ### Sizes, with two literals for one -/

/-- Two sizes, one with a literal of its own. -/
def sizeModel (other : String) : Model := .ofShapes [
  { name := "Size", form := .enum [
    { name := "small", literal := some "S" }, { name := other }] }] []

/-- Sizes whose texts differ are read back. -/
theorem size_converts :
    { name := "Size", form := .enum [{ name := "small", literal := some "S" }, { name := "L" }] } ∈
      (sizeModel "L").shapes.values ∧
    ∃ b, (sizeModel "L").bindings {} = .ok b ∧ ∃ decl, .enum decl ∈ b.types ∧
      decl.literals = ["S", "L"] ∧ ∀ case ∈ decl.cases,
        decl.fromText.run? (.text case.literal) = some (decl.operand (.known case)) := by
  have hshape : { name := "Size", form := .enum [
      { name := "small", literal := some "S" }, { name := "L" }] } ∈
        (sizeModel "L").shapes.values := by decide +kernel
  have hholds : ((sizeModel "L").bindings {}).toOption.isSome = true := by decide +kernel
  obtain ⟨b, hb⟩ := Option.isSome_iff_exists.mp hholds
  obtain ⟨decl, hdecl, -, -, -, -, hall, hliterals⟩ :=
    enumeration_converts (Failing.toOption_eq_some.mp hb) hshape rfl
  exact ⟨hshape, b, Failing.toOption_eq_some.mp hb, decl, hdecl, hliterals,
    hall.mpr (by decide)⟩

/-- A value whose text an earlier one has is accepted, and not read back. -/
theorem second_size_is_not_read_back :
    ∃ b, (sizeModel "S").bindings {} = .ok b ∧ ∃ decl, .enum decl ∈ b.types ∧
      decl.literals = ["S", "S"] ∧ ∃ case ∈ decl.cases,
        decl.asText.run? (decl.operand (.known case)) = some (.text "S") ∧
        decl.fromText.run? (.text "S") ≠ some (decl.operand (.known case)) := by
  have hholds : ((sizeModel "S").bindings {}).toOption.any (fun b ↦
      (b.enumDecl? (Code.camelIdent "Size")).any fun decl ↦
        decl.literals = ["S", "S"] && decl.cases.any fun case ↦
          decl.asText.run? (decl.operand (.known case)) = some (.text "S") &&
            decl.fromText.run? (.text "S") ≠ some (decl.operand (.known case))) = true := by
    decide +kernel
  obtain ⟨b, hb, hfound⟩ := (Option.any_eq_true _ _).mp hholds
  obtain ⟨decl, hdecl, haccept⟩ := (Option.any_eq_true _ _).mp hfound
  exact ⟨b, Failing.toOption_eq_some.mp hb, decl, (mem_types_of_enumDecl? hdecl).1,
    by simpa using haccept⟩

end Bindings

end WireShapes
