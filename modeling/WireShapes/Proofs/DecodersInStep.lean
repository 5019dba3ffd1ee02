import WireShapes.Proofs.Calls
import WireShapes.Proofs.EntryPoints
import WireShapes.Proofs.Lockstep

/-!
# Functions of bindings on paired documents

Every decoder does the same to paired elements that are read in its role (`readsInStep_read`); the
induction is on how many levels it may go down.  So every function that bindings offer
(`Bindings.callable?`) does the same to documents that are paired in the role of its root element
(`Callable.run_paired`).  The role of the root of an error document depends on the code in the
document, because the code says which structure the error is.
-/

namespace WireShapes.Bindings

open Wire (Document Element ErrorReport Lexeme Reading StartTag DecodeError)
open Code (Ident)

variable {b : Bindings} {root role : Role} {outer : List Role} {e e' : Element}

/-! ## Decoders in step -/

variable {read : Reader}

/-- A reader comes to the same on paired elements that are read in the role of their source. -/
def ReadsInStep (b : Bindings) (root : Role) (read : Reader) : Prop :=
  ∀ (source : Source) (outer : List Role) (e e' : Element),
    ElementsPaired b source.role outer e e' →
    InStep b root source.role outer (read source e) (read source e')

/-- A child that is the value of an entry is read as values are. -/
theorem child_of_value {entry : Ident} {m : MapDecoder} {tag : StartTag}
    (hm : b.entryDecoder? entry = some m) (hpart : m.part? tag = some .value) :
    (Role.entry entry).child b tag.name = m.value.source.role := by
  unfold MapDecoder.part? StartTag.matchesPattern at hpart
  rw [Role.child, Role.slots, hm]
  split at hpart <;> simp_all

theorem inStep_entryChild (hread : ReadsInStep b root read) {entry : Ident} {m : MapDecoder}
    (hm : b.entryDecoder? entry = some m) (parts : EntryParts)
    (he : ElementsPaired b ((Role.entry entry).child b e.start.name) outer e e') :
    InStep b root ((Role.entry entry).child b e.start.name) outer (b.entryChild read m parts e)
      (b.entryChild read m parts e') := by
  have hsame : m.part? e.start = m.part? e'.start := by
    simp only [MapDecoder.part?, he.matchesPattern]
  unfold entryChild
  rw [← hsame]
  cases hpart : m.part? e.start with
  | none => exact .give _
  | some part =>
    cases part with
    | key =>
      refine (InStep.text he).then_answer
        (fun text ↦ (fun key ↦ (some key, parts.2)) <$> b.datum m.key.source text) fun text ↦ ?_
      cases b.datum m.key.source text <;> rfl
    | value =>
      rw [child_of_value hm hpart] at he ⊢
      exact (hread m.value.source outer e e' he).then_pure _

theorem inStep_readEntry (hread : ReadsInStep b root read) {entry : Ident} {m : MapDecoder}
    (hm : b.entryDecoder? entry = some m) (he : ElementsPaired b (.entry entry) outer e e') :
    InStep b root (.entry entry) outer (b.readEntry read m e) (b.readEntry read m e') := by
  have hentry : entryOf m e = entryOf m e' := by
    funext parts
    rcases parts with ⟨- | key, - | value⟩ <;> simp [entryOf, he.name]
  unfold readEntry
  rw [hentry]
  exact (InStep.fold he (fun parts _ _ hchild ↦ inStep_entryChild hread hm parts hchild)
    (none, none)).then_give (entryOf m e')

theorem inStep_readEntryBy (hread : ReadsInStep b root read) {entry : Ident}
    (he : ElementsPaired b (.entry entry) outer e e') :
    InStep b root (.entry entry) outer (b.readEntryBy read entry e)
      (b.readEntryBy read entry e') := by
  refine .after_give fun m hm ↦ inStep_readEntry hread ?_ he
  rw [← toOption_declared entry (b.entryDecoder? entry), hm]
  rfl

theorem inStep_structChild (hread : ReadsInStep b root read) {m : StructDecoder}
    (hslots : role.slots b = m.arms.map fun arm ↦ (arm.pattern, arm.action.gathering.role))
    (builder : Builder) (he : ElementsPaired b (role.child b e.start.name) outer e e') :
    InStep b root (role.child b e.start.name) outer (b.structChild read m builder e)
      (b.structChild read m builder e') := by
  unfold structChild
  rw [← he.armFor]
  cases harm : armFor StructArm.pattern m.arms e.start with
  | none => exact .give _
  | some arm =>
    rw [child_of_armFor hslots harm] at he ⊢
    obtain ⟨pattern, member, action⟩ := arm
    cases action with
    | set setter value => exact (hread value.source outer e e' he).then_pure _
    | push method item => exact (hread item.source outer e e' he).then_pure _
    | insert method entry =>
      exact (inStep_readEntryBy hread he).then_pure fun x ↦ builder.insert member x.1 x.2

theorem inStep_fillBy (hread : ReadsInStep b root read) (decoder : Ident)
    (he : ElementsPaired b (.struct decoder) outer e e') :
    InStep b root (.struct decoder) outer (b.fillBy read decoder e)
      (b.fillBy read decoder e') := by
  unfold fillBy
  split
  · rename_i m hm
    have hattributes : ∀ arm ∈ m.attributes, e.start.get? arm.pattern = e'.start.get? arm.pattern :=
      fun arm harm ↦ he.tags.get? _ (by simpa [Role.attributes, hm] using ⟨arm, harm, rfl⟩)
    unfold fill
    rw [readAttributes_congr hattributes]
    exact .after_give fun builder _ ↦ .fold he (fun builder _ _ hchild ↦
      inStep_structChild hread (by simp [Role.slots, hm]) builder hchild) builder
  · exact .fail _

theorem inStep_unionChild (hread : ReadsInStep b root read) {m : UnionDecoder}
    (hslots : role.slots b = m.arms.map fun arm ↦ (arm.pattern, arm.action.gathering.role))
    (held : Held) (he : ElementsPaired b (role.child b e.start.name) outer e e') :
    InStep b root (role.child b e.start.name) outer (b.unionChild read m held e)
      (b.unionChild read m held e') := by
  unfold unionChild
  rw [← he.armFor]
  cases harm : armFor UnionArm.pattern m.arms e.start with
  | none => exact .give _
  | some arm =>
    rw [child_of_armFor hslots harm] at he ⊢
    obtain ⟨pattern, member, variant, action⟩ := arm
    cases action with
    | set value => exact (hread value.source outer e e' he).then_pure _
    | push item => exact (hread item.source outer e e' he).then_pure _
    | insert entry =>
      exact (inStep_readEntryBy hread he).then_pure
        fun x ↦ some (member, Value.map (Value.putEntry
          (((heldOf held member).map Value.entries).getD []) x.1 x.2))

theorem inStep_readShape (hread : ReadsInStep b root read) (decoder : Ident)
    (he : ElementsPaired b (.shape decoder) outer e e') :
    InStep b root (.shape decoder) outer (b.readShape read decoder e)
      (b.readShape read decoder e') := by
  unfold readShape
  split
  · rename_i m hm
    exact (InStep.fold he (fun held _ _ hchild ↦
      inStep_unionChild hread (by simp [Role.slots, hm]) held hchild) none).then_pure unionValue
  · rename_i m hm
    refine (InStep.fold he (fun items child child' hchild ↦ ?_) []).then_pure Value.list
    rw [← hchild.matchesPattern]
    split
    · rename_i hmatch
      have hslots : (Role.shape decoder).slots b = [(m.pattern, m.item.source.role)] := by
        simp [Role.slots, hm]
      rw [child_of_slot hslots hmatch] at hchild ⊢
      exact (hread m.item.source _ _ _ hchild).then_pure _
    · exact .give _
  · rename_i m hm
    refine (InStep.fold he (fun entries child child' hchild ↦ ?_) []).then_pure Value.map
    rw [← hchild.matchesPattern]
    split
    · rename_i hmatch
      have hslots : (Role.shape decoder).slots b = [(m.entryPattern, .entry m.entryIdent)] := by
        simp [Role.slots, hm]
      rw [child_of_slot hslots hmatch] at hchild ⊢
      exact (inStep_readEntryBy hread hchild).then_pure fun x ↦ Value.putEntry entries x.1 x.2
    · exact .give _
  · exact .fail _

theorem readsInStep_level (hread : ReadsInStep b root read) :
    ReadsInStep b root (b.level read) := by
  intro source outer e e' he
  cases source with
  | text source =>
    exact (InStep.text he).then_give fun text ↦ Value.datum <$> b.datum source text
  | struct decoder type => exact (inStep_fillBy hread decoder he).then_give (b.build type)
  | shape decoder => exact inStep_readShape hread decoder he

theorem readsInStep_read (b : Bindings) (root : Role) (levels : Nat) :
    ReadsInStep b root (b.read levels) := by
  induction levels with
  | zero =>
    intro source outer e e' he
    cases source with
    | text source =>
      exact (InStep.text he).then_give fun text ↦ Value.datum <$> b.datum source text
    | struct decoder type => exact .fail _
    | shape decoder => exact .fail _
  | succ levels ih =>
    rw [read_succ]
    exact readsInStep_level ih

theorem readsInStep_readElement (b : Bindings) (root : Role) :
    ReadsInStep b root b.readElement :=
  readsInStep_read b root Wire.defaultMaxDepth

/-! ## Roots -/

/-- Bytes that hold documents paired from their beginning on. -/
def BytesPaired (b : Bindings) (root : Role) (bytes bytes' : List UInt8) : Prop :=
  ∃ d d', Document.ofBytes bytes = .ok d ∧ Document.ofBytes bytes' = .ok d' ∧
    DocumentsPaired b root [] d d'

/-- What the search for the root comes to in both documents. -/
inductive RootPaired (b : Bindings) (root : Role) :
    Except DecodeError Element × Document → Except DecodeError Element × Document → Prop
  | fails (error : DecodeError) (d d' : Document) :
      RootPaired b root (.error error, d) (.error error, d')
  | opens {e e' : Element} {d d' : Document} : ElementsPaired b root [] e e' →
      DocumentsPaired b root [root] d d' → RootPaired b root (.ok e, d) (.ok e', d')

theorem rootPaired_seekRoot {pieces pieces' : List Lexeme} (h : Paired b root [] pieces pieces')
    (fault : Option Xml.ScanFault) (maxDepth : Nat) :
    RootPaired b root (Document.seekRoot fault maxDepth 0 pieces)
      (Document.seekRoot fault maxDepth 0 pieces') := by
  induction pieces generalizing pieces' with
  | nil =>
    cases h
    exact .fails _ _ _
  | cons piece rest ih =>
    cases pieces' with
    | nil => cases h
    | cons piece' rest' =>
      have hread := h.read maxDepth
      unfold Document.seekRoot
      generalize piece.read ([] : List Role).length maxDepth = result at hread ⊢
      generalize piece'.read ([] : List Role).length maxDepth = result' at hread ⊢
      cases hread with
      | fails error after => exact .fails _ _ _
      | start htags hrest => exact .opens ⟨htags, rfl, rfl, rfl, rfl⟩ ⟨hrest, rfl, rfl, rfl, rfl⟩
      | close hrest => exact ih hrest
      | text content hrest => exact ih hrest

theorem decodeRoot_paired {α : Type} {read : Element → Reading α} {bytes bytes' : List UInt8}
    (h : BytesPaired b root bytes bytes')
    (hread : ∀ e e', ElementsPaired b root [] e e' → InStep b root root [] (read e) (read e')) :
    Wire.decodeRoot bytes read = Wire.decodeRoot bytes' read := by
  obtain ⟨d, d', hd, hd', hpaired⟩ := h
  have hroot : RootPaired b root d.takeRoot d'.takeRoot := by
    unfold Document.takeRoot
    rw [hpaired.depth, hpaired.depth', ← hpaired.fault, ← hpaired.maxDepth]
    exact rootPaired_seekRoot hpaired.pending _ _
  simp only [Wire.decodeRoot, hd, hd', bind, Except.bind]
  generalize d.takeRoot = found at hroot ⊢
  generalize d'.takeRoot = found' at hroot ⊢
  cases hroot with
  | fails error => rfl
  | opens he hbelow => exact @(hread _ _ he).answer [] _ _ hbelow

/-! ## Inputs and outputs -/

theorem inStep_responseChild {decl : OutputDecl} {result : String} (builder : Option Builder)
    (he : ElementsPaired b ((Role.response decl.decoder result).child b e.start.name) outer e e') :
    InStep b root ((Role.response decl.decoder result).child b e.start.name) outer
      (b.responseChild decl result builder e) (b.responseChild decl result builder e') := by
  unfold responseChild
  rw [← he.matchesPattern]
  split
  · rename_i hmatch
    have hslots : (Role.response decl.decoder result).slots b = [(result, .struct decl.decoder)] :=
      rfl
    rw [child_of_slot hslots hmatch] at he ⊢
    exact (inStep_fillBy (readsInStep_readElement b root) decl.decoder he).then_pure some
  · exact .give _

theorem EntryPoint.parse_paired (entry : EntryPoint) {bytes bytes' : List UInt8}
    (h : BytesPaired b entry.role bytes bytes') : entry.parse b bytes = entry.parse b bytes' := by
  cases entry with
  | input decl =>
    refine decodeRoot_paired h fun e e' he ↦ ?_
    rw [he.expect]
    exact .after_give fun _ _ ↦
      readsInStep_readElement b _ (.struct decl.decoder decl.type) [] e e' he
  | output decl =>
    obtain ⟨ident, type, decoder, place⟩ := decl
    cases place with
    | root pattern =>
      refine decodeRoot_paired h fun e e' he ↦ ?_
      dsimp only
      rw [he.expect]
      exact .after_give fun _ _ ↦
        readsInStep_readElement b _ (.struct decoder type) [] e e' he
    | result response result =>
      refine decodeRoot_paired h fun e e' he ↦ ?_
      dsimp only
      rw [he.expect]
      refine .after_give fun _ _ ↦ (InStep.fold he (fun builder _ _ hchild ↦
        inStep_responseChild builder hchild) none).then_answer
          (·.elim (.error (.missingElement result)) (b.build type)) fun builder ↦ ?_
      cases builder <;> rfl

/-! ## Errors -/

theorem inStep_readFields (report : ErrorReport) (he : ElementsPaired b role outer e e') :
    InStep b root role outer (report.readFields e) (report.readFields e') := by
  refine .fold he (fun report child child' hchild ↦ ?_) report
  unfold ErrorReport.readField
  rw [← hchild.tags.name]
  split
  · exact (InStep.text hchild).then_pure _
  · exact .give _

/-- A report is read in step whatever the roles of its elements are: it has no attributes. -/
theorem inStep_report (wrapped : Bool) (he : ElementsPaired b role outer e e') :
    InStep b root role outer (ErrorReport.read wrapped e) (ErrorReport.read wrapped e') := by
  unfold ErrorReport.read
  rw [he.expect, he.expect]
  split
  · refine .after_give fun _ _ ↦ (InStep.fold he
      (fun state child child' hchild ↦ ?_) ((false, {}) : Bool × ErrorReport)).then_answer
        (fun state ↦ if state.1 then .ok state.2 else .error (.missingElement "Error"))
        fun state ↦ ?_
    · unfold ErrorReport.readResponse
      rw [← hchild.matchesPattern, ← hchild.matchesPattern]
      dsimp only
      split
      · exact (inStep_readFields _ hchild).then_pure _
      · split
        · exact (InStep.text hchild).then_pure _
        · exact .give _
    · obtain ⟨found, report⟩ := state
      cases found <;> rfl
  · exact .after_give fun _ _ ↦ inStep_readFields {} he

theorem report_paired (wrapped : Bool) {bytes bytes' : List UInt8}
    (h : BytesPaired b root bytes bytes') :
    ErrorReport.parse bytes wrapped = ErrorReport.parse bytes' wrapped :=
  decodeRoot_paired h fun _ _ he ↦ inStep_report wrapped he

/-- How the root of an error document is read that holds an error of some structure. -/
def CodeCase.rootRole (case : CodeCase) (wrapped : Bool) : Role :=
  if wrapped then .response case.decoder "Error" else .struct case.decoder

theorem inErrorElement_paired (case : CodeCase) (wrapped : Bool) {bytes bytes' : List UInt8}
    (h : BytesPaired b (case.rootRole wrapped) bytes bytes') :
    Wire.inErrorElement bytes wrapped (b.fillBy b.readElement case.decoder) =
      Wire.inErrorElement bytes' wrapped (b.fillBy b.readElement case.decoder) := by
  refine decodeRoot_paired h fun e e' he ↦ ?_
  unfold Wire.readErrorElement
  rw [he.expect, he.expect]
  cases wrapped with
  | true =>
    refine .after_give fun _ _ ↦ .firstChild he (fun tag tag' hname ↦ ?_) rfl rfl
      fun child child' hmatch hchild ↦ ?_
    · rw [StartTag.matchesPattern, hname, StartTag.matchesPattern]
    · have hslots : (case.rootRole true).slots b = [("Error", .struct case.decoder)] := rfl
      rw [child_of_slot hslots hmatch] at hchild ⊢
      exact inStep_fillBy (readsInStep_readElement b _) case.decoder hchild
  | false =>
    exact .after_give fun _ _ ↦ inStep_fillBy (readsInStep_readElement b _) case.decoder he

/-- How the root of an error document is read: the code of its report selects the structure. -/
def FailureDecl.rootRole (decl : FailureDecl) (bytes : List UInt8) : Role :=
  match ErrorReport.parse bytes decl.wrapped with
  | .ok report =>
    (decl.cases.find? fun case ↦ report.code == some case.code).elim .passed
      fun case ↦ case.rootRole decl.wrapped
  | .error _ => .passed

theorem parseFailure_paired (decl : FailureDecl) {bytes bytes' : List UInt8}
    (h : BytesPaired b (decl.rootRole bytes) bytes bytes') :
    b.parseFailure decl bytes = b.parseFailure decl bytes' := by
  unfold parseFailure
  rw [← report_paired decl.wrapped h]
  cases hreport : ErrorReport.parse bytes decl.wrapped with
  | error error => rfl
  | ok report =>
    simp only [bind, Except.bind]
    cases hcase : decl.cases.find? fun case ↦ report.code == some case.code with
    | none => rfl
    | some case =>
      have hrole : decl.rootRole bytes = case.rootRole decl.wrapped := by
        simp [FailureDecl.rootRole, hreport, hcase]
      dsimp only
      rw [inErrorElement_paired case decl.wrapped (hrole ▸ h)]

/-! ## Functions -/

/-- A function that bindings offer. -/
inductive Callable
  | entryPoint (entry : EntryPoint)
  | failure (decl : FailureDecl)
  /-- The decoder of a shape on the root of a document. -/
  | decoder (decl : DecoderDecl)
  /-- The entry decoder of a map on the root of a document. -/
  | mapEntry (d : MapDecoder)

/-- What a decoder makes of the root of a document. -/
def DecoderDecl.rootRole : DecoderDecl → Role
  | .struct d => .struct d.ident
  | decl => .shape decl.ident

namespace Callable

def run (b : Bindings) : Callable → List UInt8 → Except DecodeError Answer
  | .entryPoint entry, bytes => .value <$> entry.parse b bytes
  | .failure decl, bytes => .failure <$> b.parseFailure decl bytes
  | .decoder decl, bytes => b.runDecoder decl bytes
  | .mapEntry d, bytes =>
    (fun (key, value) ↦ .entry key value) <$> Wire.decodeRoot bytes (b.readEntry b.readElement d)

/-- How the root of a document is read. -/
def rootRole : Callable → List UInt8 → Role
  | .entryPoint entry, _ => entry.role
  | .failure decl, bytes => decl.rootRole bytes
  | .decoder decl, _ => decl.rootRole
  | .mapEntry d, _ => .entry d.entryIdent

end Callable

/-- The function of an operation that a name stands for. -/
def OperationDecl.callable? (op : OperationDecl) (name : String) : Option Callable :=
  (op.input.filter (·.ident.toText = name)).map (fun decl ↦ .entryPoint (.input decl)) <|>
    (op.output.filter (·.ident.toText = name)).map (fun decl ↦ .entryPoint (.output decl)) <|>
    ((some op.failure).filter (·.ident.toText = name)).map .failure

/-- The function that a name stands for. -/
def callable? (b : Bindings) (name : String) : Option Callable :=
  b.operations.findSome? (·.callable? name) <|>
    (b.decoders.find? (·.ident.toText = name)).map .decoder <|>
    (b.decoders.findSome? fun
      | .map d => if d.entryIdent.toText = name then some d else none
      | _ => none).map .mapEntry

theorem map_orElse {α β : Type} (f : α → β) (first second : Option α) :
    (first <|> second).map f = (first.map f <|> second.map f) := by
  cases first <;> rfl

theorem operationCall?_eq (b : Bindings) (name : String) (op : OperationDecl) :
    b.operationCall? name op = (op.callable? name).map (·.run b) := by
  simp only [OperationDecl.callable?, map_orElse, Option.map_map]
  rfl

/-- The functions that bindings offer run entry points of operations, and decoders on roots. -/
theorem call?_eq (b : Bindings) (name : String) :
    b.call? name = (b.callable? name).map (·.run b) := by
  have hoperations : b.operations.findSome? (b.operationCall? name) =
      (b.operations.findSome? (·.callable? name)).map (·.run b) := by
    rw [List.map_findSome?, funext (operationCall?_eq b name)]
    rfl
  simp only [callable?, map_orElse, Option.map_map]
  rw [call?, hoperations]
  rfl

/-- An entry decoder that is the first of its name is the first of its identifier. -/
theorem entryDecoder?_of_name {name : String} {d : MapDecoder}
    (h : b.decoders.findSome? (fun
      | .map d => if d.entryIdent.toText = name then some d else none
      | _ => none) = some d) : b.entryDecoder? d.entryIdent = some d := by
  obtain ⟨before, decl, after, hdecoders, hdecl, hbefore⟩ := List.findSome?_eq_some_iff.mp h
  obtain ⟨rfl, hname⟩ : decl = .map d ∧ d.entryIdent.toText = name := by
    cases decl with
    | map other =>
      obtain ⟨hname, rfl⟩ : other.entryIdent.toText = name ∧ other = d := by simpa using hdecl
      exact ⟨rfl, hname⟩
    | _ => simp at hdecl
  refine List.findSome?_eq_some_iff.mpr
    ⟨before, .map d, after, hdecoders, if_pos rfl, fun other hother ↦ ?_⟩
  have hnone := hbefore other hother
  cases other with
  | map m =>
    have hne : m.entryIdent.toText ≠ name := by simpa using hnone
    have hident : m.entryIdent ≠ d.entryIdent := fun hsame ↦ hne (by rw [hsame, hname])
    exact if_neg hident
  | _ => rfl

theorem entryDecoder?_of_callable {name : String} {d : MapDecoder}
    (h : b.callable? name = some (.mapEntry d)) : b.entryDecoder? d.entryIdent = some d := by
  rcases orElse_eq_some h with hoperation | hlater
  · obtain ⟨op, -, hop⟩ := List.exists_of_findSome?_eq_some hoperation
    rcases orElse_eq_some hop with hinput | hlater
    · simp at hinput
    · rcases orElse_eq_some hlater with houtput | hfailure
      · simp at houtput
      · simp at hfailure
  · rcases orElse_eq_some hlater with hdecoder | hentry
    · simp at hdecoder
    · obtain ⟨other, hother, heq⟩ := Option.map_eq_some_iff.mp hentry
      obtain rfl := Callable.mapEntry.inj heq
      exact entryDecoder?_of_name hother

/-- A function of bindings does the same to documents that are paired in the role of the root. -/
theorem Callable.run_paired {fn : Callable} {name : String} (hfn : b.callable? name = some fn)
    {bytes bytes' : List UInt8} (h : BytesPaired b (fn.rootRole bytes) bytes bytes') :
    fn.run b bytes = fn.run b bytes' := by
  cases fn with
  | entryPoint entry => rw [run, entry.parse_paired h, run]
  | failure decl => rw [run, parseFailure_paired decl h, run]
  | decoder decl =>
    refine congrArg (Answer.value <$> ·) (decodeRoot_paired h fun e e' he ↦ ?_)
    cases decl with
    | struct d => exact readsInStep_readElement b _ (.struct d.ident _) [] e e' he
    | _ => exact readsInStep_readElement b _ (.shape _) [] e e' he
  | mapEntry d =>
    have hread := decodeRoot_paired h fun e e' he ↦
      inStep_readEntry (readsInStep_readElement b _) (entryDecoder?_of_callable hfn) he
    rw [run, hread, run]

end WireShapes.Bindings
