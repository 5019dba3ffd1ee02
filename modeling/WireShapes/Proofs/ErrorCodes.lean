import WireShapes.Proofs.ErrorDocuments

/-!
# Codes of errors

The code of an error document selects the structure that the error is read as, by the names of the
structures that the operation lists.  A structure listed twice counts once, and no two of the errors
have one variant; but two structures may have one name on the wire, and then the code selects the
one listed first.  So every error is told from the others just if their names are distinct.
-/

namespace WireShapes

/-- The error structures that an operation lists, each where it is first listed. -/
def Model.errorsOf (m : Model) (op : Operation) : List Shape :=
  op.errors.eraseDups.filterMap m.shape?

/-- What errors give whatever the marks of their references, the model gives with its cycles
broken. -/
theorem Model.map_errorsOf_breakCycles {α : Type} {f : Shape → α}
    (hf : ∀ shape, f shape.unmarked = f shape) (m : Model) (op : Operation) :
    (m.breakCycles.errorsOf op).map f = (m.errorsOf op).map f := by
  unfold errorsOf
  rw [List.map_filterMap, List.map_filterMap]
  simp only [map_shape?_breakCycles hf]

namespace Bindings

open Code (Ident)
open Wire (DecodeError ErrorReport)

/-! ## The errors of an operation -/

section Listed

variable {ctx : Context} {op : Operation}

theorem addErrors_eq (hkeyed : ctx.model.Keyed) {found shapes : List Shape} {names : List String}
    (h : ctx.addErrors op found names = .ok shapes) :
    shapes = found ++ (names.filter fun name ↦ name ∉ found.map Shape.name).eraseDups.filterMap
      ctx.model.shape? := by
  induction names generalizing found with
  | nil => simpa [Context.addErrors] using h.symm
  | cons name rest ih =>
    unfold Context.addErrors at h
    obtain ⟨next, hnext, hrest⟩ := Failing.bind_eq_ok.mp h
    obtain ⟨hfound, -⟩ := Context.structNamed_ok hnext
    obtain rfl : next.name = name := hkeyed.name_of_shape? hfound
    have hknown : (found.any fun other ↦ other.name == next.name) = true ↔
        next.name ∈ found.map Shape.name := by simp
    split at hrest
    next hany =>
      rw [ih hrest, List.filter_cons_of_neg (by simpa using hknown.mp hany)]
    next hnone =>
      -- A later error under the same name is passed over from here on.
      have hfresh : next.name ∉ found.map Shape.name := fun hmem ↦ hnone (hknown.mpr hmem)
      have hlater : (rest.filter fun name ↦ name ∉ (found ++ [next]).map Shape.name) =
          (rest.filter fun name ↦ name ∉ found.map Shape.name).filter fun name ↦
            !name == next.name := by
        rw [List.filter_filter]
        congr 1
        funext name
        simp only [List.map_append, List.map_singleton, List.mem_append, List.mem_singleton]
        by_cases hname : name = next.name <;> simp [hname]
      rw [ih hrest, List.filter_cons_of_pos (by simpa using hfresh), List.eraseDups_cons,
        List.filterMap_cons_some hfound, hlater, List.append_assoc, List.singleton_append]

/-- The errors that are generated for an operation are those that it lists. -/
theorem errorShapes_eq (hkeyed : ctx.model.Keyed) {shapes : List Shape}
    (h : ctx.errorShapes op = .ok shapes) : shapes = ctx.model.errorsOf op := by
  simpa [Model.errorsOf] using addErrors_eq hkeyed h

end Listed

/-! ## Selection -/

section Selection

theorem select?_outerName (decl : FailureDecl) (e : Shape) : decl.select? (some e.outerName) =
    decl.cases.find? fun case ↦ case.code = (Context.codeCase e).code := by
  unfold FailureDecl.select?
  congr 1
  funext case
  rw [Bool.eq_iff_iff, beq_iff_eq, Option.some_inj, decide_eq_true_eq]
  exact eq_comm

variable {errors : List Shape} {decl : FailureDecl}
  (hcases : decl.cases = errors.map Context.codeCase)

include hcases

theorem select?_eq_none_iff {code : Option String} :
    decl.select? code = none ↔ ∀ e ∈ errors, code ≠ some e.outerName := by
  simp [FailureDecl.select?, hcases, Context.codeCase]

variable (hvariants : (decl.cases.map fun case ↦ case.variant.toText).Nodup)

include hvariants

/-- The name of an error selects it just if no error that is listed before has the name. -/
theorem select?_eq_some_iff {before after : List Shape} {e : Shape}
    (herrors : errors = before ++ e :: after) :
    decl.select? (some e.outerName) = some (Context.codeCase e) ↔
      ∀ earlier ∈ before, earlier.outerName ≠ e.outerName := by
  have hsplit : decl.cases = before.map Context.codeCase ++
      Context.codeCase e :: after.map Context.codeCase := by
    rw [hcases, herrors, List.map_append, List.map_cons]
  rw [select?_outerName decl, Table.find?_key_eq_some_iff (.of_map _ hvariants) hsplit,
    List.forall_mem_map]
  rfl

/-- All errors are selected by their names just if the names are distinct. -/
theorem forall_select?_iff :
    (∀ e ∈ errors, decl.select? (some e.outerName) = some (Context.codeCase e)) ↔
      (errors.map Shape.outerName).Nodup := by
  have hnames : errors.map Shape.outerName = decl.cases.map CodeCase.code := by
    rw [hcases, List.map_map]
    rfl
  rw [hnames, ← Table.forall_find?_key_iff (.of_map _ hvariants), hcases, List.forall_mem_map]
  simp only [select?_outerName decl, hcases]

end Selection

/-- How an entry point tells errors apart, of the structures that an operation lists. -/
structure Dispatches (b : Bindings) (errors : List Shape) (decl : FailureDecl) : Prop where
  cases_eq : decl.cases = errors.map Context.codeCase
  variants_nodup : ("Unhandled" :: decl.cases.map fun case ↦ case.variant.toText).Nodup
  /-- A code selects nothing just if it is the name of no error. -/
  none_iff : ∀ code, decl.select? code = none ↔ ∀ e ∈ errors, code ≠ some e.outerName
  /-- The name of an error selects it just if no error that is listed before has the name. -/
  some_iff : ∀ before e after, errors = before ++ e :: after →
    (decl.select? (some e.outerName) = some (Context.codeCase e) ↔
      ∀ earlier ∈ before, earlier.outerName ≠ e.outerName)
  /-- All errors are selected by their names just if the names are distinct. -/
  distinct_iff : (∀ e ∈ errors, decl.select? (some e.outerName) = some (Context.codeCase e)) ↔
    (errors.map Shape.outerName).Nodup
  /-- An error that is selected is read as its own structure, and only values can be wrong. -/
  answers : ∀ bytes report, ErrorReport.parse bytes decl.wrapped = .ok report →
    (b.parseFailure decl bytes = match decl.select? report.code with
      | none => .ok (.unhandled report)
      | some case => Failure.modeled case <$> b.readError decl.wrapped case bytes) ∧
    ∀ case ∈ decl.cases, ∀ error, b.readError decl.wrapped case bytes = .error error →
      error.OfValue

/-- The entry point for the errors of an operation reads a document as the first of the listed
errors that has the document's code for its name, and leaves it unhandled just if there is none.  So
a code selects the error that it names, in whatever order errors are listed, just if no two listed
errors have one name. -/
theorem error_codes_select {m : Model} {defaults : Defaults} {b : Bindings} (hkeyed : m.Keyed)
    (h : m.bindings defaults = .ok b) :
    List.Forall₂ (fun op decl ↦
      decl.failure.ident = Code.functionIdent "parse_" op.name "_error" ∧
        decl.failure.wrapped = defaults.errorWrapping ∧
        Dispatches b (m.errorsOf op) decl.failure) m.operations b.operations := by
  obtain ⟨ctx, hmodel, hdefaults, -, -, hmade⟩ := exists_of_bindings h
  have hbroken : ctx.model.Keyed := hmodel ▸ hkeyed.breakCycles
  obtain ⟨hfails, hresolves⟩ := fails_of_bindings hkeyed h
  obtain ⟨-, -, herrors, functions, -, hoperations⟩ := Context.declarationsFor_ok hmade
  obtain ⟨hall, -⟩ := Context.operationsFor_ok hoperations
  rw [hmodel, Model.operations_breakCycles] at hall herrors
  refine List.forall₂_iff_zip.mpr ⟨hall.length_eq, fun {op decl} hpair ↦ ?_⟩
  obtain ⟨hop, hdecl⟩ := List.of_mem_zip hpair
  obtain ⟨hident, -, hwrapped, shapes, hshapes, hcases⟩ := (List.forall₂_zip hall hpair).failure
  have hlisted : decl.failure.cases = (m.errorsOf op).map Context.codeCase := by
    rw [hcases, errorShapes_eq hbroken hshapes, hmodel]
    exact Model.map_errorsOf_breakCycles (fun _ ↦ rfl) m op
  -- The variants are claimed where the errors are declared, for the same structures.
  have hunhandled :
      ("Unhandled" :: decl.failure.cases.map fun case ↦ case.variant.toText).Nodup := by
    obtain ⟨made, -, hmadeOf⟩ := Failing.exists_of_mem_left herrors hop
    obtain ⟨others, hothers, hvariants⟩ := hmadeOf.shapes
    obtain rfl : shapes = others := Except.ok.inj (hshapes.symm.trans hothers)
    have hsame : made.cases.map (fun case ↦ case.variant.toText) =
        decl.failure.cases.map fun case ↦ case.variant.toText := by
      rw [hcases, List.map_map]
      exact (Failing.map_eq_map hvariants fun hcase ↦ by simp [Context.codeCase, hcase.1]).symm
    rw [← hsame]
    exact hmadeOf.variants_nodup
  have hvariants := (List.nodup_cons.mp hunhandled).2
  exact ⟨hident, hwrapped.trans (by rw [hdefaults]), {
    cases_eq := hlisted
    variants_nodup := hunhandled
    none_iff _ := select?_eq_none_iff hlisted
    some_iff _ _ _ := select?_eq_some_iff hlisted hvariants
    distinct_iff := forall_select?_iff hlisted hvariants
    answers _ _ hreport := ⟨parseFailure_eq hreport, fun case hcase _ ↦
      readError_fails hfails (hresolves decl hdecl case hcase) hreport⟩ }⟩

/-! ### What is lost and what is gone -/

/-- Two errors, of which the first is called `Missing`. -/
def lossModel (second : String) : Model := .ofShapes [
  { name := "Lost", isError := true, xmlName := some "Missing", form := .struct [] },
  { name := "Gone", isError := true, xmlName := some second, form := .struct [] }]
  [{ name := "Get", errors := ["Lost", "Gone"] }]

theorem exhausts_loss : ∀ second ∈ ["Missing", "Deleted"],
    Exhausts (lossModel second).breakCycles ["Gone", "Lost"] := by
  intro second hsecond
  rcases List.mem_pair.mp hsecond with rfl | rfl <;> constructor <;> decide +kernel

/-- Errors with names of their own are selected by their names. -/
theorem loss_codes_select : (lossModel "Deleted").Keyed ∧
    ∃ b op, (lossModel "Deleted").bindings {} = .ok b ∧ op ∈ b.operations ∧
      op.failure.cases.map CodeCase.shape = ["Lost", "Gone"] ∧
      ∀ e ∈ (lossModel "Deleted").errorsOf { name := "Get", errors := ["Lost", "Gone"] },
        op.failure.select? (some e.outerName) = some (Context.codeCase e) := by
  have hkeyed : (lossModel "Deleted").Keyed := Model.keyed_ofShapes _ _
  obtain ⟨b, hb, hcases⟩ := (exhausts_loss "Deleted" (by simp)).exists_bindings {}
    (fun b ↦ b.operations.all fun op ↦ op.failure.cases.map CodeCase.shape = ["Lost", "Gone"])
    (by decide +kernel)
  obtain ⟨op, rest, ⟨-, -, hdispatches⟩, -, hoperations⟩ :=
    List.forall₂_cons_left_iff.mp (error_codes_select hkeyed hb)
  have hop : op ∈ b.operations := hoperations ▸ List.mem_cons_self
  exact ⟨hkeyed, b, op, hb, hop, by simpa using List.all_eq_true.mp hcases op hop,
    hdispatches.distinct_iff.mpr (by decide +kernel)⟩

/-- The structure that an error was read as, if there is one for it. -/
def Failure.shape? : Failure → Option String
  | .modeled case _ => some case.shape
  | .unhandled _ => none

/-- A response with an error called `Missing`. -/
def missing : List UInt8 :=
  Xml.utf8Bytes "<ErrorResponse><Error><Code>Missing</Code></Error></ErrorResponse>".toList

/-- A second error under the name of the first is accepted, and never selected. -/
theorem second_missing_is_not_selected :
    ∃ b op, (lossModel "Missing").bindings {} = .ok b ∧ op ∈ b.operations ∧
      op.failure.cases.map (fun case ↦ (case.code, case.shape)) =
        [("Missing", "Lost"), ("Missing", "Gone")] ∧
      ∃ failure, b.parseFailure op.failure missing = .ok failure ∧
        failure.shape? = some "Lost" := by
  obtain ⟨b, hb, hfound⟩ := (exhausts_loss "Missing" (by simp)).exists_bindings {}
    (fun b ↦ b.operations.any fun op ↦
      op.failure.cases.map (fun case ↦ (case.code, case.shape)) =
        [("Missing", "Lost"), ("Missing", "Gone")] &&
      (b.parseFailure op.failure missing).toOption.any fun failure ↦
        failure.shape? = some "Lost") (by decide +kernel)
  obtain ⟨op, hop, haccept⟩ := List.any_eq_true.mp hfound
  obtain ⟨hcases, hparsed⟩ := Bool.and_eq_true_iff.mp haccept
  obtain ⟨failure, hfailure, hshape⟩ := (Option.any_eq_true _ _).mp hparsed
  exact ⟨b, op, hb, hop, of_decide_eq_true hcases, failure,
    Failing.toOption_eq_some.mp hfailure, of_decide_eq_true hshape⟩

end Bindings

end WireShapes
