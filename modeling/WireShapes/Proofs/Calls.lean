import WireShapes.Proofs.Readers

/-!
# What functions of bindings read

A function of the bindings that answers has read the root element of its document to the end, so the
document can be read, and its values nest no deeper than documents may (`Bindings.call_ok`).  Of the
bytes it is given it knows no more than the document that they hold (`Bindings.call_congr`).
-/

namespace WireShapes

open Wire (DecodeError Element Reading)
open Code (Ident)

/-! ## Whole documents -/

namespace Wire

variable {allows : DecodeError → Prop} {α : Type} {post : α → Prop} {bytes : List UInt8}
  {read : Element → Reading α} {a : α}

/-- A root element is handed out open, in a document in which one element is open. -/
theorem decodeRoot_cases (bytes : List UInt8) :
    (∃ error, ∀ {α : Type} (read : Element → Reading α), decodeRoot bytes read = .error error) ∨
      ∃ cs root d, Text.Utf8.decode bytes = .ok cs ∧
        (Document.ofChars cs).takeRoot = (.ok root, d) ∧ root.closed = false ∧ root.depth = 1 ∧
        d.depth = 1 ∧ d.maxDepth = defaultMaxDepth ∧
        ∀ {α : Type} (read : Element → Reading α), decodeRoot bytes read = (read root d).answer := by
  cases hdecode : Text.Utf8.decode bytes with
  | error fault =>
    have hdocument : Document.ofBytes bytes = .error (.encoding fault) := by
      simp only [Document.ofBytes, hdecode]
    exact .inl ⟨_, fun read ↦ by rw [decodeRoot, hdocument]; rfl⟩
  | ok cs =>
    have hdocument : Document.ofBytes bytes = .ok (Document.ofChars cs) := by
      simp only [Document.ofBytes, hdecode]
    rcases htake : (Document.ofChars cs).takeRoot with ⟨error | root, d⟩
    · refine .inl ⟨error, fun read ↦ ?_⟩
      rw [decodeRoot, hdocument]
      simp only [bind, Except.bind, htake]
    · obtain ⟨_, _, start, rest, -, -, -, -, hroot, hd⟩ :=
        exists_of_seekRoot (Xml.nested_ofChars cs) htake
      refine .inr ⟨cs, root, d, rfl, htake, by rw [hroot]; rfl, by rw [hroot]; rfl, by rw [hd],
        by rw [hd]; rfl, fun read ↦ ?_⟩
      rw [decodeRoot, hdocument]
      simp only [bind, Except.bind, htake]
      rfl

/-- A document of which the root element is read to its end can be read. -/
theorem readable_of_decodeRoot (hread : ∀ root : Element, root.closed = false → root.depth = 1 →
      Reading.Made allows defaultMaxDepth true root post (read root) (read root))
    (h : decodeRoot bytes read = .ok a) :
    post a ∧ ∃ cs, Text.Utf8.decode bytes = .ok cs ∧ (Document.ofChars cs).Readable := by
  rcases decodeRoot_cases bytes with ⟨error, herror⟩ | ⟨cs, root, d, hdecode, htake, hopen, hroot,
    hdepth, hmax, hrun⟩
  · simp [herror] at h
  · rw [hrun] at h
    have hlimit : d.depth ≤ d.maxDepth := by
      rw [hdepth, hmax]
      decide
    obtain ⟨-, hok⟩ := (hread root hopen hroot).run hopen (Nat.le_of_eq hmax)
      (by rw [hroot, hdepth]) hlimit
    obtain ⟨hpost, hidle | hfinishes⟩ := hok a h
    · simp at hidle
    · exact ⟨hpost, cs, hdecode, root, d, htake, by rw [hfinishes.skip_eq hopen]⟩

/-- Either a decoder runs on the `Error` element of a document, which is open, or whatever the decoder
is, it does not run. -/
theorem inErrorElement_cases (bytes : List UInt8) (wrapped : Bool) :
    (∃ (e : Element) (d : Document), e.closed = false ∧ 0 < e.depth ∧ e.depth ≤ d.depth ∧
      d.depth ≤ d.maxDepth ∧ d.maxDepth = defaultMaxDepth ∧
      ∀ {α : Type} (decode : Element → Reading α),
        inErrorElement bytes wrapped decode = (decode e d).answer) ∨
      ∃ error, ∀ {α : Type} (decode : Element → Reading α),
        inErrorElement bytes wrapped decode = .error error := by
  rcases decodeRoot_cases bytes with ⟨error, herror⟩ | ⟨cs, root, d, -, -, hopen, hroot, hdepth,
    hmax, hrun⟩
  · exact .inr ⟨error, fun decode ↦ herror _⟩
  have hroom : d.depth ≤ d.maxDepth := by
    rw [hdepth, hmax]
    decide
  simp only [inErrorElement, hrun]
  cases wrapped with
  | false =>
    cases hexpect : root.expect "Error" with
    | error error =>
      exact .inr ⟨error, fun decode ↦ by
        simp [readErrorElement, Reading.bind_answer, Reading.give, hexpect]⟩
    | ok =>
      refine .inl ⟨root, d, hopen, by omega, by omega, hroom, hmax, fun decode ↦ ?_⟩
      simp [readErrorElement, Reading.bind_answer, Reading.give, hexpect]
  | true =>
    cases hexpect : root.expect "ErrorResponse" with
    | error error =>
      exact .inr ⟨error, fun decode ↦ by
        simp [readErrorElement, Reading.bind_answer, Reading.give, hexpect]⟩
    | ok =>
      cases hfirst : (root.firstChild (fun start ↦ start.matchesPattern "Error") d).answer with
      | error error =>
        refine .inr ⟨error, fun decode ↦ ?_⟩
        simp [readErrorElement, Reading.bind_answer, Reading.give, hexpect, hfirst]
      | ok found =>
        cases found with
        | none =>
          refine .inr ⟨.missingElement "Error", fun decode ↦ ?_⟩
          simp [readErrorElement, Reading.bind_answer, Reading.give, hexpect, hfirst, Reading.fail]
        | some e =>
          have hlevel : root.depth ≤ d.depth := by omega
          obtain ⟨heopen, hedepth, hrest, hreaches⟩ :=
            Element.firstChild_reaches hopen hlevel hfirst
          refine .inl ⟨e, _, heopen, by omega, by omega, hreaches.depth_le hroom,
            hreaches.maxDepth_eq.trans hmax, fun decode ↦ ?_⟩
          simp [readErrorElement, Reading.bind_answer, Reading.give, hexpect, hfirst]

namespace ErrorReport

variable {limit : Nat} {e : Element}

theorem made_readFields (allows : DecodeError → Prop) (report : ErrorReport) :
    Reading.Made allows limit true e (fun _ ↦ True) (report.readFields e) (report.readFields e) := by
  refine .fold trivial fun report child _ _ _ ↦ ?_
  unfold readField
  split
  · exact .whole (.then_pure .text fun _ _ ↦ trivial)
  · exact .pure trivial

theorem made_read (wrapped : Bool) :
    Reading.Made (fun _ ↦ True) limit true e (fun _ ↦ True) (ErrorReport.read wrapped e)
      (ErrorReport.read wrapped e) := by
  unfold ErrorReport.read
  split
  · refine .after_give (fun _ _ ↦ trivial) fun _ _ ↦ ?_
    have hfold : Reading.Made (fun _ ↦ True) limit true e (fun _ ↦ True)
        (e.foldChildren readResponse (false, {})) (e.foldChildren readResponse (false, {})) := by
      refine .fold trivial fun ⟨found, report⟩ child _ _ _ ↦ ?_
      simp only [readResponse]
      split
      · exact .whole (.then_pure (made_readFields _ _) fun _ _ ↦ trivial)
      · split
        · exact .whole (.then_pure .text fun _ _ ↦ trivial)
        · exact .pure trivial
    exact .then_answer
      (fun state ↦ if state.1 then .ok state.2 else .error (.missingElement "Error"))
      (fun ⟨found, _⟩ ↦ by cases found <;> rfl) hfold (fun _ _ _ _ ↦ trivial)
      fun _ _ _ _ ↦ trivial
  · exact .after_give (fun _ _ ↦ trivial) fun _ _ ↦ made_readFields _ _

end ErrorReport

end Wire

namespace Bindings

open Wire (Document ErrorReport)

variable {b : Bindings} {bytes : List UInt8}

/-- The document that bytes hold can be read. -/
def Legible (bytes : List UInt8) : Prop :=
  ∃ cs, Text.Utf8.decode bytes = .ok cs ∧ (Document.ofChars cs).Readable

/-- A value as deep as documents may nest. -/
def Shallow (value : Value) : Prop :=
  value.Nests Wire.defaultMaxDepth

/-- What is read of a root element, on its own. -/
theorem made_root (b : Bindings) (source : Source) {root : Element} (hopen : root.closed = false)
    (hroot : root.depth = 1) :
    Reading.Made (fun _ ↦ True) Wire.defaultMaxDepth true root Shallow (b.readElement source root)
      (b.readElement source root) :=
  madeAlike_self b.fails_all (Nat.le_refl _) (by omega) source root hopen (Nat.le_of_eq hroot.symm)
    (source.resolves_all b)

/-- What is filled into a builder leaves a level for the structure. -/
theorem made_filled (hfails : b.Fails allows) {e : Element} (hdepth : 0 < e.depth) {decoder : Ident}
    (hdecoder : Finds allows decoder (∃ d, b.decoder? decoder = some (.struct d))) :
    Reading.Made allows Wire.defaultMaxDepth true e (Builder.Nests 127)
      (b.fillBy b.readElement decoder e) (b.fillBy b.readElement decoder e) :=
  made_fillBy hfails (madeAlike_self hfails (by decide) (by
    have hmax : Wire.defaultMaxDepth = 128 := rfl
    omega)) hdecoder

theorem parseInput_ok {decl : InputDecl} {value : Value} (h : b.parseInput decl bytes = .ok value) :
    Shallow value ∧ Legible bytes :=
  Wire.readable_of_decodeRoot (fun _ hopen hroot ↦
    .after_give (fun _ _ ↦ trivial) fun _ _ ↦ b.made_root _ hopen hroot) h

theorem parseOutput_ok {decl : OutputDecl} {value : Value}
    (h : b.parseOutput decl bytes = .ok value) : Shallow value ∧ Legible bytes := by
  obtain ⟨ident, type, decoder, place⟩ := decl
  cases place with
  | root pattern =>
    exact Wire.readable_of_decodeRoot (fun _ hopen hroot ↦
      .after_give (fun _ _ ↦ trivial) fun _ _ ↦ b.made_root _ hopen hroot) h
  | result response result =>
    refine Wire.readable_of_decodeRoot (fun root hopen hroot ↦
      .after_give (fun _ _ ↦ trivial) fun _ _ ↦ ?_) h
    have hfold : Reading.Made (fun _ ↦ True) Wire.defaultMaxDepth true root
        (fun state ↦ ∀ builder ∈ state, builder.Nests 127)
        (root.foldChildren (b.responseChild ⟨ident, type, decoder, .result response result⟩ result)
          none)
        (root.foldChildren (b.responseChild ⟨ident, type, decoder, .result response result⟩ result)
          none) := by
      refine .fold (by simp) fun state child hstate _ hdepth ↦ ?_
      unfold responseChild
      split
      · refine .whole (.then_pure (made_filled b.fails_all (by omega) (.inr trivial)) ?_)
        intro builder hbuilder other hother
        obtain rfl := Option.some.inj hother
        exact hbuilder
      · exact .pure hstate
    refine .then_answer (fun state ↦ state.elim (.error (.missingElement result)) (b.build type))
      (fun state ↦ by cases state <;> rfl) hfold (fun _ _ _ _ ↦ trivial)
      fun state value hstate hvalue ↦ ?_
    cases state with
    | none => simp at hvalue
    | some builder => exact build_nests (hstate builder rfl) hvalue

theorem parseFailure_ok {decl : FailureDecl} {failure : Failure}
    (h : b.parseFailure decl bytes = .ok failure) :
    (∀ case value, failure = .modeled case value → Shallow value) ∧ Legible bytes := by
  obtain ⟨report, hreport, hrest⟩ := Failing.bind_eq_ok.mp h
  obtain ⟨-, hlegible⟩ := Wire.readable_of_decodeRoot
    (fun _ _ _ ↦ Wire.ErrorReport.made_read decl.wrapped) hreport
  refine ⟨fun case value hmodeled ↦ ?_, hlegible⟩
  subst hmodeled
  split at hrest
  · simp [pure, Except.pure] at hrest
  · obtain ⟨builder, hbuilder, hvalue⟩ := Failing.bind_eq_ok.mp hrest
    obtain ⟨built, hbuilt, hcase⟩ := Failing.bind_eq_ok.mp hvalue
    obtain ⟨rfl, rfl⟩ : _ = case ∧ built = value := by simpa [pure, Except.pure] using hcase
    obtain ⟨e, d, hopen, hdepth, hlevel, hroom, hmax, hdecode⟩ | ⟨error, herror⟩ :=
      Wire.inErrorElement_cases bytes decl.wrapped
    · rw [hdecode] at hbuilder
      obtain ⟨-, hok⟩ := (made_filled b.fails_all hdepth (.inr trivial)).run hopen
        (Nat.le_of_eq hmax) hlevel hroom
      exact build_nests (hok builder hbuilder).1 hbuilt
    · simp [herror] at hbuilder

/-! ### Functions of the bindings -/

/-- The values that an answer holds. -/
def Answer.values : Answer → List Value
  | .value result | .entry _ result | .failure (.modeled _ result) => [result]
  | .failure (.unhandled _) => []

/-- What a function of the bindings answers comes from a document that can be read, and nests no
deeper than documents may. -/
def Answer.Sound (answer : Answer) (bytes : List UInt8) : Prop :=
  (∀ value ∈ answer.values, Shallow value) ∧ Legible bytes

theorem Answer.sound_value {value : Value} (h : Shallow value ∧ Legible bytes) :
    (Answer.value value).Sound bytes :=
  ⟨by simpa [Answer.values] using h.1, h.2⟩

theorem runDecoder_ok {decl : DecoderDecl} {answer : Answer}
    (h : b.runDecoder decl bytes = .ok answer) : answer.Sound bytes := by
  obtain ⟨value, hvalue, rfl⟩ := Failing.map_eq_ok.mp h
  exact Answer.sound_value
    (Wire.readable_of_decodeRoot (fun _ hopen hroot ↦ b.made_root _ hopen hroot) hvalue)

theorem runEntry_ok {d : MapDecoder} {entry : Datum × Value}
    (h : Wire.decodeRoot bytes (b.readEntry b.readElement d) = .ok entry) :
    Shallow entry.2 ∧ Legible bytes := by
  have hread (root : Element) (_ : root.closed = false) (hroot : root.depth = 1) :
      Reading.Made (fun _ ↦ True) Wire.defaultMaxDepth true root (fun entry ↦ Shallow entry.2)
        (b.readEntry b.readElement d root) (b.readEntry b.readElement d root) :=
    made_readEntry b.fails_all (madeAlike_self b.fails_all (Nat.le_refl _) (by omega))
      (d.key.source.resolves_all b) (d.value.source.resolves_all b)
  have hsound := Wire.readable_of_decodeRoot hread h
  exact hsound

theorem orElse_eq_some {α : Type} {first second : Option α} {a : α}
    (h : (first <|> second) = some a) : first = some a ∨ second = some a := by
  cases first <;> simp_all

/-- A function of an operation runs one of its entry points. -/
theorem operationCall_cases {function : String} {op : OperationDecl}
    {f : List UInt8 → Except DecodeError Answer} (h : b.operationCall? function op = some f) :
    (∃ decl, f = fun bytes ↦ .value <$> b.parseInput decl bytes) ∨
      (∃ decl, f = fun bytes ↦ .value <$> b.parseOutput decl bytes) ∨
      ∃ decl, f = fun bytes ↦ .failure <$> b.parseFailure decl bytes := by
  rcases orElse_eq_some h with hinput | hlater
  · obtain ⟨decl, -, rfl⟩ := Option.map_eq_some_iff.mp hinput
    exact .inl ⟨decl, rfl⟩
  · rcases orElse_eq_some hlater with houtput | hfailure
    · obtain ⟨decl, -, rfl⟩ := Option.map_eq_some_iff.mp houtput
      exact .inr (.inl ⟨decl, rfl⟩)
    · obtain ⟨decl, -, rfl⟩ := Option.map_eq_some_iff.mp hfailure
      exact .inr (.inr ⟨decl, rfl⟩)

/-- A function of bindings runs an entry point of an operation, or a decoder on a root element. -/
theorem call_cases {function : String} {f : List UInt8 → Except DecodeError Answer}
    (h : b.call? function = some f) :
    (∃ decl, f = fun bytes ↦ .value <$> b.parseInput decl bytes) ∨
      (∃ decl, f = fun bytes ↦ .value <$> b.parseOutput decl bytes) ∨
      (∃ decl, f = fun bytes ↦ .failure <$> b.parseFailure decl bytes) ∨
      (∃ decl, f = b.runDecoder decl) ∨
      ∃ d, f = fun bytes ↦ (fun (key, value) ↦ .entry key value) <$>
        Wire.decodeRoot bytes (b.readEntry b.readElement d) := by
  rcases orElse_eq_some h with hoperation | hlater
  · obtain ⟨op, -, hop⟩ := List.exists_of_findSome?_eq_some hoperation
    rcases operationCall_cases hop with hinput | houtput | hfailure
    · exact .inl hinput
    · exact .inr (.inl houtput)
    · exact .inr (.inr (.inl hfailure))
  · rcases orElse_eq_some hlater with hdecoder | hentry
    · obtain ⟨decl, -, rfl⟩ := Option.map_eq_some_iff.mp hdecoder
      exact .inr (.inr (.inr (.inl ⟨decl, rfl⟩)))
    · obtain ⟨d, -, rfl⟩ := Option.map_eq_some_iff.mp hentry
      exact .inr (.inr (.inr (.inr ⟨d, rfl⟩)))

/-- What the functions of bindings answer. -/
theorem call_ok {function : String} {f : List UInt8 → Except DecodeError Answer}
    (hf : b.call? function = some f) {answer : Answer} (h : f bytes = .ok answer) :
    answer.Sound bytes := by
  rcases call_cases hf with ⟨decl, rfl⟩ | ⟨decl, rfl⟩ | ⟨decl, rfl⟩ | ⟨decl, rfl⟩ | ⟨d, rfl⟩
  · obtain ⟨value, hvalue, rfl⟩ := Failing.map_eq_ok.mp h
    exact Answer.sound_value (parseInput_ok hvalue)
  · obtain ⟨value, hvalue, rfl⟩ := Failing.map_eq_ok.mp h
    exact Answer.sound_value (parseOutput_ok hvalue)
  · obtain ⟨failure, hfailure, rfl⟩ := Failing.map_eq_ok.mp h
    obtain ⟨hshallow, hlegible⟩ := parseFailure_ok hfailure
    refine ⟨fun value hvalue ↦ ?_, hlegible⟩
    cases failure with
    | modeled case held =>
      obtain rfl : value = held := by simpa [Answer.values] using hvalue
      exact hshallow case value rfl
    | unhandled report => simp [Answer.values] at hvalue
  · exact runDecoder_ok h
  · obtain ⟨entry, hentry, rfl⟩ := Failing.map_eq_ok.mp h
    obtain ⟨hshallow, hlegible⟩ := runEntry_ok hentry
    exact ⟨by simpa [Answer.values] using hshallow, hlegible⟩

/-- The functions of bindings know of bytes only the document that they hold. -/
theorem call_congr {function : String} {f : List UInt8 → Except DecodeError Answer}
    (hf : b.call? function = some f) {bytes' : List UInt8}
    (h : Document.ofBytes bytes = Document.ofBytes bytes') : f bytes = f bytes' := by
  have hroot {α : Type} (read : Element → Reading α) :
      Wire.decodeRoot bytes read = Wire.decodeRoot bytes' read := by
    rw [Wire.decodeRoot, h, Wire.decodeRoot]
  rcases call_cases hf with ⟨decl, rfl⟩ | ⟨decl, rfl⟩ | ⟨decl, rfl⟩ | ⟨decl, rfl⟩ | ⟨d, rfl⟩
  · simp only [parseInput, hroot]
  · simp only [parseOutput, hroot]
  · simp only [parseFailure, ErrorReport.parse, Wire.inErrorElement, hroot]
  · simp only [runDecoder, hroot]
  · simp only [hroot]

end Bindings

end WireShapes
