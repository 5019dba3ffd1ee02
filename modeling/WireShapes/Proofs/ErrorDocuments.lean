import WireShapes.Proofs.Calls
import WireShapes.Proofs.EntryPoints
import WireShapes.Proofs.Resolution
import WireShapes.Proofs.ShowcaseDecoders

/-!
# Two passes over error documents

An error document is read twice: once for its report, and once by the decoder of the structure that
the report's code selects.  Both passes settle on the same element (`Place.error?`), though the first
one reads the document to its end and the second one stops there.  So when there is a report, the
element is there to be decoded and nothing of it is at fault: what can still fail is a value.
-/

namespace WireShapes

namespace Wire

/-! ## Elements that hold errors -/

/-- The element that holds the error of a document: the root, or, where errors are wrapped, the first
`Error` directly inside the root. -/
def Place.error? (root : Place) : (wrapped : Bool) → Option Place
  | true =>
    if root.tag.matchesPattern "ErrorResponse" then
      root.children.find? fun child ↦ child.tag.matchesPattern "Error"
    else none
  | false => if root.tag.matchesPattern "Error" then some root else none

theorem Place.error?_bare {root place : Place} (h : root.error? false = some place) :
    root.tag.matchesPattern "Error" = true ∧ root = place := by
  simp only [error?] at h
  split at h
  · rename_i hroot
    exact ⟨hroot, Option.some.inj h⟩
  · simp at h

theorem Place.error?_wrapped {root place : Place} (h : root.error? true = some place) :
    root.tag.matchesPattern "ErrorResponse" = true ∧
      root.children.find? (fun child ↦ child.tag.matchesPattern "Error") = some place := by
  simp only [error?] at h
  split at h
  · rename_i hroot
    exact ⟨hroot, h⟩
  · simp at h

/-- The text of the last of the elements with a name, whatever its qualifier. -/
def lastText? (elements : List (StartTag × Content)) (base : String) : Option String :=
  (elements.filter fun x ↦ x.1.name.base = base).getLast?.map fun x ↦ x.2.ownText

theorem lastText?_concat (elements : List (StartTag × Content)) (x : StartTag × Content)
    (base : String) : lastText? (elements ++ [x]) base =
      if x.1.name.base = base then some x.2.ownText else lastText? elements base := by
  unfold lastText?
  by_cases h : x.1.name.base = base
  · simp [List.filter_append, h]
  · simp [List.filter_append, h]

/-! ## The first child that is accepted -/

namespace Element

variable {accept : StartTag → Bool} {e : Element} {place child : Place} {d : Document}

theorem firstChild_content (hopen : e.closed = false) {content : Content}
    (hroom : e.depth + content.depth ≤ d.maxDepth)
    (hfind : ((content.nodes (.close :: place.after)).filterMap Node.place?).find?
      (fun child ↦ accept child.tag) = some child)
    {d' : Document} (hd' : e.nextChild d' = e.nextChild (e.inFront content place d)) :
    (e.firstChild accept d').answer = .ok (some (.opened child.tag (e.depth + 1))) ∧
      (e.firstChild accept d').rest = e.inChild child d := by
  induction content generalizing d' with
  | empty => simp [Content.nodes] at hfind
  | text content rest ih =>
    have hrest : e.depth + rest.depth ≤ d.maxDepth := hroom
    refine ih hrest hfind ?_
    rw [hd', nextChild_inFront hopen hroom, nextChild_inFront hopen hrest]
    rfl
  | element tag inside rest _ ih =>
    simp only [Content.depth] at hroom
    rw [nextChild_inFront hopen (by simpa [Content.depth] using hroom)] at hd'
    simp only [Content.nodes, List.filterMap_cons, Node.place?] at hfind
    cases haccept : accept tag with
    | true =>
      rw [List.find?_cons_of_pos (by simpa using haccept)] at hfind
      obtain rfl := Option.some.inj hfind
      exact firstChild_of_accepted hd' haccept
    | false =>
      rw [List.find?_cons_of_neg (by simpa using haccept)] at hfind
      obtain ⟨hanswer, hrest⟩ := firstChild_of_passed hd' haccept
      rw [hanswer, hrest]
      exact ih (by omega) hfind (nextChild_inChild hopen (by omega))

/-- The first accepted child of an element of which nothing has been read is handed out in front of
all of it. -/
theorem Fresh.firstChild (h : e.Fresh place d) (accept : StartTag → Bool)
    (hfind : place.children.find? (fun child ↦ accept child.tag) = some child) :
    (e.firstChild accept d).answer = .ok (some (.opened child.tag (e.depth + 1))) ∧
      (e.firstChild accept d).rest = e.inChild child d :=
  firstChild_content h.opened h.room hfind (congrArg e.nextChild h.eq_inFront)

end Element

/-! ## What reports say -/

namespace ErrorReport

/-- What a report holds from the error itself. -/
def particulars : List String := ["Code", "Message", "Type"]

/-- A particular of a report. -/
def get? (report : ErrorReport) : (name : String) → Option String
  | "Code" => report.code
  | "Message" => report.message
  | "Type" => report.kind
  | _ => none

/-- The report with what a child of the error says. -/
def add (report : ErrorReport) (x : StartTag × Content) : ErrorReport :=
  match report.set? x.1.name.base with
  | some set => set x.2.ownText
  | none => report

/-- A response so far with what its next child says. -/
def addChild (state : Bool × ErrorReport) (x : StartTag × Content) : Bool × ErrorReport :=
  if !state.1 && x.1.matchesPattern "Error" then (true, x.2.elements.foldl add state.2)
  else if x.1.matchesPattern "RequestId" then
    (state.1, { state.2 with requestId := some x.2.ownText })
  else state

variable {name : String} {elements : List (StartTag × Content)}

theorem get?_add (report : ErrorReport) (x : StartTag × Content) (hname : name ∈ particulars) :
    (report.add x).get? name =
      if x.1.name.base = name then some x.2.ownText else report.get? name := by
  have hother (base : String) (hcode : base ≠ "Code") (hmessage : base ≠ "Message")
      (htype : base ≠ "Type") : base ≠ name := by
    rintro rfl
    simp_all [particulars]
  obtain ⟨⟨⟨qualifier, base⟩, attributes⟩, content⟩ := x
  simp only [particulars, List.mem_cons, List.not_mem_nil, or_false] at hname
  unfold add set?
  dsimp only
  by_cases hcode : base = "Code"
  · rcases hname with rfl | rfl | rfl <;> simp [hcode, get?]
  by_cases hmessage : base = "Message"
  · rcases hname with rfl | rfl | rfl <;> simp [hmessage, get?]
  by_cases htype : base = "Type"
  · rcases hname with rfl | rfl | rfl <;> simp [htype, get?]
  rw [if_neg (hother base hcode hmessage htype)]
  by_cases hid : base = "RequestId"
  · rcases hname with rfl | rfl | rfl <;> simp [hid, get?]
  · simp

theorem get?_foldl_add (elements : List (StartTag × Content)) (report : ErrorReport)
    (hname : name ∈ particulars) :
    (elements.foldl add report).get? name = (lastText? elements name).or (report.get? name) := by
  induction elements using List.reverseRecOn with
  | nil => rfl
  | append_singleton elements x ih =>
    rw [List.foldl_append, List.foldl_cons, List.foldl_nil, get?_add _ _ hname, ih,
      lastText?_concat]
    split <;> rfl

/-- Once the error has been found, the rest of the response does not change what it said. -/
theorem foldl_addChild_found (elements : List (StartTag × Content)) (report : ErrorReport) :
    (elements.foldl addChild (true, report)).1 = true ∧ ∀ name ∈ particulars,
      (elements.foldl addChild (true, report)).2.get? name = report.get? name := by
  induction elements generalizing report with
  | nil => exact ⟨rfl, fun _ _ ↦ rfl⟩
  | cons x rest ih =>
    rw [List.foldl_cons]
    by_cases hid : x.1.matchesPattern "RequestId" = true
    · have hstep : addChild (true, report) x = (true, { report with requestId := x.2.ownText }) := by
        simp [addChild, hid]
      rw [hstep]
      obtain ⟨hfound, hsame⟩ := ih { report with requestId := x.2.ownText }
      refine ⟨hfound, fun name hname ↦ (hsame name hname).trans ?_⟩
      simp only [particulars, List.mem_cons, List.not_mem_nil, or_false] at hname
      rcases hname with rfl | rfl | rfl <;> rfl
    · have hstep : addChild (true, report) x = (true, report) := by
        simp [addChild, hid]
      rw [hstep]
      exact ih report

/-- A response says of the error what its first `Error` says. -/
theorem foldl_addChild (elements : List (StartTag × Content)) {report : ErrorReport}
    (hempty : ∀ name ∈ particulars, report.get? name = none) :
    match elements.find? fun x ↦ x.1.matchesPattern "Error" with
    | some x => (elements.foldl addChild (false, report)).1 = true ∧ ∀ name ∈ particulars,
        (elements.foldl addChild (false, report)).2.get? name = lastText? x.2.elements name
    | none => (elements.foldl addChild (false, report)).1 = false := by
  induction elements generalizing report with
  | nil => rfl
  | cons x rest ih =>
    rw [List.foldl_cons]
    by_cases herror : x.1.matchesPattern "Error" = true
    · have hstep : addChild (false, report) x = (true, x.2.elements.foldl add report) := by
        simp [addChild, herror]
      rw [List.find?_cons_of_pos (by simpa using herror), hstep]
      obtain ⟨hfound, hsame⟩ := foldl_addChild_found rest (x.2.elements.foldl add report)
      refine ⟨hfound, fun name hname ↦ ?_⟩
      rw [hsame name hname, get?_foldl_add _ _ hname, hempty name hname, Option.or_none]
    · rw [List.find?_cons_of_neg (by simpa using herror)]
      by_cases hid : x.1.matchesPattern "RequestId" = true
      · have hstep : addChild (false, report) x =
            (false, { report with requestId := x.2.ownText }) := by
          simp [addChild, herror, hid]
        rw [hstep]
        refine ih fun name hname ↦ Eq.trans ?_ (hempty name hname)
        simp only [particulars, List.mem_cons, List.not_mem_nil, or_false] at hname
        rcases hname with rfl | rfl | rfl <;> rfl
      · have hstep : addChild (false, report) x = (false, report) := by
          simp [addChild, herror, hid]
        rw [hstep]
        exact ih hempty

/-! ### Reports as they are read -/

variable {e : Element} {place inner : Place} {d : Document}

theorem readFields_means (h : e.Fresh place d) (report : ErrorReport) :
    (report.readFields e).Means d (some (place.inside.elements.foldl add report))
      (e.behind place d) := by
  have htakes (inner : Place) (hinner : .element inner ∈ place.nodes) :
      e.Takes readField inner d fun report ↦ some (report.add (inner.tag, inner.inside)) := by
    intro report
    cases hset : report.set? inner.tag.name.base with
    | none =>
      refine ⟨_, .inl rfl, ?_⟩
      simp only [readField, Element.opened, hset, add]
      exact .pure report _
    | some set =>
      refine ⟨_, .inr rfl, ?_⟩
      simp only [readField, Element.opened, hset, add]
      exact (Element.Fresh.child hinner h.room).text.map
  have hfold : (report.readFields e).Means d
      (place.inside.elements.foldlM (fun report x ↦ pure (report.add x)) report)
      (e.behind place d) := h.foldChildren htakes report
  rwa [List.foldlM_pure] at hfold

theorem readResponse_means (h : e.Fresh place d) (state : Bool × ErrorReport) :
    (e.foldChildren readResponse state).Means d (some (place.inside.elements.foldl addChild state))
      (e.behind place d) := by
  have htakes (inner : Place) (hinner : .element inner ∈ place.nodes) :
      e.Takes readResponse inner d fun state ↦ some (addChild state (inner.tag, inner.inside)) := by
    have hchild := Element.Fresh.child hinner h.room
    rintro ⟨found, report⟩
    by_cases herror : (!found && inner.tag.matchesPattern "Error") = true
    · refine ⟨_, .inr rfl, ?_⟩
      simp only [readResponse, Element.opened, addChild, herror, if_true]
      exact (readFields_means hchild report).map
    · by_cases hid : inner.tag.matchesPattern "RequestId" = true
      · refine ⟨_, .inr rfl, ?_⟩
        simp only [readResponse, Element.opened, addChild, herror, hid, if_true]
        exact hchild.text.map
      · refine ⟨_, .inl rfl, ?_⟩
        simp only [readResponse, Element.opened, addChild, herror, hid]
        exact .pure (found, report) _
  have hfold : (e.foldChildren readResponse state).Means d
      (place.inside.elements.foldlM (fun state x ↦ pure (addChild state x)) state)
      (e.behind place d) := h.foldChildren htakes state
  rwa [List.foldlM_pure] at hfold

end ErrorReport

/-! ## Both passes -/

/-- The report of a document, by its root element. -/
def Place.report? (root : Place) : (wrapped : Bool) → Option ErrorReport
  | true =>
    if root.tag.matchesPattern "ErrorResponse" then
      let (found, report) := root.inside.elements.foldl ErrorReport.addChild (false, {})
      if found then some report else none
    else none
  | false =>
    if root.tag.matchesPattern "Error" then some (root.inside.elements.foldl ErrorReport.add {})
    else none

theorem ErrorReport.read_means (wrapped : Bool) {e : Element} {root : Place} {d : Document}
    (h : e.Fresh root d) :
    (ErrorReport.read wrapped e).Means d (root.report? wrapped) (e.behind root d) := by
  cases wrapped with
  | false => exact Bindings.EntryPoint.means_expect h "Error" (readFields_means h {})
  | true =>
    refine Bindings.EntryPoint.means_expect h "ErrorResponse"
      ((readResponse_means h (false, {})).bind_some ?_)
    rcases root.inside.elements.foldl addChild (false, {}) with ⟨found, report⟩
    cases found with
    | false => exact .fail _ _ _
    | true => exact .pure report _

/-- A document has a report if it has an error element, and the report says what that element
says. -/
theorem Place.report?_eq (root : Place) (wrapped : Bool) :
    match root.error? wrapped with
    | some place => ∃ report, root.report? wrapped = some report ∧
        ∀ name ∈ ErrorReport.particulars, report.get? name = lastText? place.inside.elements name
    | none => root.report? wrapped = none := by
  have hempty : ∀ name ∈ ErrorReport.particulars, ({} : ErrorReport).get? name = none := by
    simp [ErrorReport.particulars, ErrorReport.get?]
  cases wrapped with
  | false =>
    by_cases hroot : root.tag.matchesPattern "Error" = true
    · simp only [error?, report?, hroot, if_true]
      refine ⟨_, rfl, fun name hname ↦ ?_⟩
      rw [ErrorReport.get?_foldl_add _ _ hname, hempty name hname, Option.or_none]
    · simp only [error?, report?, hroot]
      rfl
  | true =>
    by_cases hroot : root.tag.matchesPattern "ErrorResponse" = true
    · have hfold := ErrorReport.foldl_addChild root.inside.elements hempty
      rw [← root.children_map, List.find?_map, root.children_map] at hfold
      simp only [error?, report?, hroot, if_true]
      simp only [Function.comp_def] at hfold
      cases hfind : root.children.find? fun child ↦ child.tag.matchesPattern "Error" with
      | none =>
        simp only [hfind, Option.map_none] at hfold
        simp [hfold]
      | some place =>
        simp only [hfind, Option.map_some] at hfold
        obtain ⟨hfound, hparticulars⟩ := hfold
        exact ⟨_, by simp [hfound], hparticulars⟩
    · simp only [error?, report?, hroot]
      rfl

section Rooted

variable {α : Type} {bytes : List UInt8} {cs : List Char} {written : Xml.Written}
  {root place : Place} {wrapped : Bool}

/-- The decoder of an error runs on the element that holds it, in front of all of it. -/
theorem Rooted.inErrorElement_eq (hrooted : Rooted cs written root)
    (hbytes : Text.Utf8.decode bytes = .ok cs) (hplace : root.error? wrapped = some place)
    (decode : Element → Reading α) :
    inErrorElement bytes wrapped decode = (decode (.opened place.tag (if wrapped then 2 else 1))
      ⟨place.pieces, (Xml.Stream.ofChars cs).fault, if wrapped then 2 else 1,
        defaultMaxDepth⟩).answer := by
  rw [inErrorElement, hrooted.decodeRoot_eq hbytes]
  cases wrapped with
  | false =>
    obtain ⟨hroot, rfl⟩ := Place.error?_bare hplace
    simp [readErrorElement, Reading.bind_answer, Reading.give, Element.expect, Element.opened,
      hroot]
  | true =>
    obtain ⟨hroot, hfind⟩ := Place.error?_wrapped hplace
    obtain ⟨hanswer, hrest⟩ := (hrooted.fresh (Xml.Stream.ofChars cs).fault).firstChild
      (fun start ↦ start.matchesPattern "Error") hfind
    simp only [Element.opened] at hanswer hrest
    simp only [readErrorElement, Reading.bind_answer, Reading.give, Element.expect, Element.opened,
      hroot, if_true, hanswer]
    rw [hrest]
    rfl

/-- A report comes from a document that can be read. -/
theorem ErrorReport.exists_of_parse {report : ErrorReport}
    (h : ErrorReport.parse bytes wrapped = .ok report) : ∃ cs written root place,
      Text.Utf8.decode bytes = .ok cs ∧ Rooted cs written root ∧
        root.error? wrapped = some place ∧
        ∀ name ∈ particulars, report.get? name = lastText? place.inside.elements name := by
  obtain ⟨-, cs, hbytes, hreadable⟩ := readable_of_decodeRoot (fun _ _ _ ↦ made_read wrapped) h
  obtain ⟨written, root, hrooted⟩ := readable_iff.mp hreadable
  have hparse := decodeRoot_toOption hbytes hrooted fun {e d} hfresh ↦
    ⟨_, read_means wrapped hfresh⟩
  have hreport : root.report? wrapped = some report := by
    rw [← hparse]
    exact Failing.toOption_eq_some.mpr h
  have hplace := root.report?_eq wrapped
  cases herror : root.error? wrapped with
  | none =>
    rw [herror] at hplace
    rw [hplace] at hreport
    cases hreport
  | some place =>
    rw [herror] at hplace
    obtain ⟨other, hother, hparticulars⟩ := hplace
    obtain rfl : other = report := Option.some.inj (hother.symm.trans hreport)
    exact ⟨cs, written, root, place, hbytes, hrooted, herror, hparticulars⟩

/-- The element that holds an error is in front of all of it. -/
theorem Rooted.fresh_error (hrooted : Rooted cs written root)
    (hplace : root.error? wrapped = some place) :
    (Element.opened place.tag (if wrapped then 2 else 1)).Fresh place
      ⟨place.pieces, (Xml.Stream.ofChars cs).fault, if wrapped then 2 else 1,
        defaultMaxDepth⟩ := by
  have hfresh := hrooted.fresh (Xml.Stream.ofChars cs).fault
  cases wrapped with
  | false =>
    obtain ⟨-, rfl⟩ := Place.error?_bare hplace
    exact hfresh
  | true =>
    obtain ⟨-, hfind⟩ := Place.error?_wrapped hplace
    obtain ⟨node, hnode, hchild⟩ := List.mem_filterMap.mp (List.mem_of_find?_eq_some hfind)
    cases node with
    | text content after => simp [Node.place?] at hchild
    | element child =>
      obtain rfl := Option.some.inj hchild
      exact Element.Fresh.child hnode hfresh.room

end Rooted

end Wire

namespace Bindings

open Wire (DecodeError Document Element ErrorReport Reading Rooted)
open Code (Ident)

variable {b : Bindings}

/-- The error that a document holds, read as the structure of a case. -/
def readError (b : Bindings) (wrapped : Bool) (case : CodeCase) (bytes : List UInt8) :
    Except DecodeError Value := do
  let builder ← Wire.inErrorElement bytes wrapped (b.fillBy b.readElement case.decoder)
  b.build case.type builder

/-- The case that a code selects, if it selects one. -/
def FailureDecl.select? (decl : FailureDecl) (code : Option String) : Option CodeCase :=
  decl.cases.find? fun case ↦ code == some case.code

/-- Once there is a report, its code selects the structure that the error is read as. -/
theorem parseFailure_eq {decl : FailureDecl} {bytes : List UInt8} {report : ErrorReport}
    (hreport : ErrorReport.parse bytes decl.wrapped = .ok report) :
    b.parseFailure decl bytes = match decl.select? report.code with
      | none => .ok (.unhandled report)
      | some case => Failure.modeled case <$> b.readError decl.wrapped case bytes := by
  unfold parseFailure
  rw [hreport]
  simp only [bind, Except.bind]
  change (match decl.select? report.code with | none => _ | some case => _) = _
  cases decl.select? report.code with
  | none => rfl
  | some case =>
    dsimp only [readError, bind, Except.bind]
    cases Wire.inErrorElement bytes decl.wrapped (b.fillBy b.readElement case.decoder) with
    | error _ => rfl
    | ok builder =>
      dsimp only
      cases b.build case.type builder <;> rfl

/-- Once there is a report, an error can be read but for its values. -/
theorem readError_fails (hfails : b.Fails DecodeError.OfValue) {wrapped : Bool} {case : CodeCase}
    (hcase : StructResolves b DecodeError.OfValue case.decoder case.type) {bytes : List UInt8}
    {report : ErrorReport} (hreport : ErrorReport.parse bytes wrapped = .ok report)
    {error : DecodeError} (herror : b.readError wrapped case bytes = .error error) :
    error.OfValue := by
  obtain ⟨cs, written, root, place, hbytes, hrooted, hplace, -⟩ :=
    ErrorReport.exists_of_parse hreport
  obtain ⟨hdecoder, htype⟩ := hcase
  unfold readError at herror
  rw [hrooted.inErrorElement_eq hbytes hplace] at herror
  rcases Failing.bind_eq_error.mp herror with hfill | ⟨builder, -, hbuild⟩
  · have hmade := made_filled hfails (e := .opened place.tag (if wrapped then 2 else 1))
      (by cases wrapped <;> simp [Element.opened]) hdecoder
    exact hmade.fails (hrooted.fresh_error hplace) (Nat.le_refl _) hfill
  · exact build_fails hfails htype hbuild

/-- Once there is a report, the errors of an operation decode but for their values. -/
theorem parseFailure_fails (hfails : b.Fails DecodeError.OfValue) {decl : FailureDecl}
    (hcases : ∀ case ∈ decl.cases,
      StructResolves b DecodeError.OfValue case.decoder case.type)
    {bytes : List UInt8} {report : ErrorReport} {error : DecodeError}
    (hreport : ErrorReport.parse bytes decl.wrapped = .ok report)
    (herror : b.parseFailure decl bytes = .error error) : error.OfValue := by
  rw [parseFailure_eq hreport] at herror
  cases hselect : decl.select? report.code with
  | none =>
    rw [hselect] at herror
    cases herror
  | some case =>
    rw [hselect] at herror
    exact readError_fails hfails (hcases case (List.mem_of_find?_eq_some hselect)) hreport
      (Failing.map_eq_error.mp herror)

/-- The two passes over an error document agree: if it has a report, the decoder of the error runs on
the element that the report is of, in front of all of it, and where the decoder does not run there is
no report.  Generated bindings fail after the report on values alone. -/
theorem error_passes_agree (bytes : List UInt8) (wrapped : Bool) :
    (∀ report, ErrorReport.parse bytes wrapped = .ok report → ∃ cs written root place,
      Text.Utf8.decode bytes = .ok cs ∧ Rooted cs written root ∧
        root.error? wrapped = some place ∧
        (∀ name ∈ ErrorReport.particulars,
          report.get? name = Wire.lastText? place.inside.elements name) ∧
        ∀ {α : Type} (decode : Element → Reading α), Wire.inErrorElement bytes wrapped decode =
          (decode (.opened place.tag (if wrapped then 2 else 1)) ⟨place.pieces,
            (Xml.Stream.ofChars cs).fault, if wrapped then 2 else 1,
              Wire.defaultMaxDepth⟩).answer) ∧
      ((∃ (e : Element) (d : Document), ∀ {α : Type} (decode : Element → Reading α),
          Wire.inErrorElement bytes wrapped decode = (decode e d).answer) ∨
        ∃ error, ∀ {α : Type} (decode : Element → Reading α),
          Wire.inErrorElement bytes wrapped decode = .error error) ∧
      ((∃ error, ∀ {α : Type} (decode : Element → Reading α),
          Wire.inErrorElement bytes wrapped decode = .error error) →
        ∃ error, ErrorReport.parse bytes wrapped = .error error) ∧
      ∀ (m : Model) defaults b, m.Keyed → m.bindings defaults = .ok b →
        ∀ op ∈ b.operations, op.failure.wrapped = wrapped → ∀ report error,
          ErrorReport.parse bytes wrapped = .ok report →
            b.parseFailure op.failure bytes = .error error → error.OfValue := by
  refine ⟨fun report hreport ↦ ?_, ?_, ?_, ?_⟩
  · obtain ⟨cs, written, root, place, hbytes, hrooted, hplace, hparticulars⟩ :=
      ErrorReport.exists_of_parse hreport
    exact ⟨cs, written, root, place, hbytes, hrooted, hplace, hparticulars,
      fun decode ↦ hrooted.inErrorElement_eq hbytes hplace decode⟩
  · rcases Wire.inErrorElement_cases bytes wrapped with ⟨e, d, -, -, -, -, -, hdecode⟩ | hnever
    · exact .inl ⟨e, d, hdecode⟩
    · exact .inr hnever
  · rintro ⟨error, hnever⟩
    cases hreport : ErrorReport.parse bytes wrapped with
    | error reason => exact ⟨reason, rfl⟩
    | ok report =>
      obtain ⟨cs, written, root, place, hbytes, hrooted, hplace, -⟩ :=
        ErrorReport.exists_of_parse hreport
      have hidle := hrooted.inErrorElement_eq hbytes hplace fun _ ↦ Reading.give (.ok ())
      simp [hnever, Reading.give] at hidle
  · rintro m defaults b hkeyed hb op hop rfl report error hreport herror
    obtain ⟨hfails, hcases⟩ := fails_of_bindings hkeyed hb
    exact parseFailure_fails hfails (hcases op hop) hreport herror

end Bindings

namespace Samples

open Bindings
open Wire (ErrorReport)

/-- A response with two errors; a member of the first one has no value of its kind. -/
def throttledTwice : List UInt8 :=
  Xml.utf8Bytes ("<ErrorResponse><Error><Code>ThrottlingException</Code>" ++
    "<RetryAfterSeconds/></Error><Error/></ErrorResponse>").toList

/-- The showcase has a report for the response, fails to decode its error, and fails on a value. -/
theorem throttled_twice_fails_on_value : ∃ b op report error, query = .ok b ∧ op ∈ b.operations ∧
    op.failure.wrapped = true ∧ ErrorReport.parse throttledTwice true = .ok report ∧
    b.parseFailure op.failure throttledTwice = .error error ∧ error.OfValue := by
  obtain ⟨b, hb, hfound⟩ := Showcase.exists_bindings { envelope := .wrapped }
    (fun b ↦ b.operations.any fun op ↦ op.failure.wrapped &&
      (b.parseFailure op.failure throttledTwice).toOption.isNone) (by decide +kernel)
  obtain ⟨op, hop, hfails⟩ := List.any_eq_true.mp hfound
  obtain ⟨hwrapped, hnone⟩ := Bool.and_eq_true_iff.mp hfails
  have hsome : (ErrorReport.parse throttledTwice true).toOption.isSome := by decide +kernel
  obtain ⟨report, hreport⟩ := Option.isSome_iff_exists.mp hsome
  have hreport := Failing.toOption_eq_some.mp hreport
  cases herror : b.parseFailure op.failure throttledTwice with
  | ok failure => simp [herror, Except.toOption] at hnone
  | error error =>
    have hkeyed : Showcase.model.Keyed := Model.keyed_ofShapes _ _
    exact ⟨b, op, report, error, hb, hop, hwrapped, hreport, herror,
      (error_passes_agree throttledTwice true).2.2.2 Showcase.model { envelope := .wrapped } b hkeyed
        hb op hop hwrapped report error hreport herror⟩

end Samples

end WireShapes
