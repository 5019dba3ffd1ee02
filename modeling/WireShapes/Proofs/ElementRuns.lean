import WireShapes.Proofs.Running

/-!
# Elements as they are read

What the phrases do that every decoder is made of: reading the child at hand as a value, matching
its name against the patterns of arms, and walking the children of an element.  A walk is a fold
over the children, if each arm does what the step of the fold does.
-/

namespace WireShapes

open Wire (Element Reading DecodeError StartTag Document)
open Code (Calls Object Variables Expr Stmt Arm Ident runExpr runBody runArms applied? methodCall?
  leaving answered runExpr_call runExpr_method run_name run_attempt lookup_append set?_append
  run_put run_put_append)

namespace Bindings

variable {b : Bindings} {calls : Calls} {read : Reader} {vars after before : Variables}
  {child e : Element}

/-! ## Texts -/

/-- A value from a text, as an object. -/
def textObject (b : Bindings) (source : TextSource) (text : String) : Reading Object :=
  (fun datum ↦ .value (.datum datum)) <$> Reading.give (b.datum source text)

/-- What a text is converted with does what is declared. -/
def TextSource.Converts (b : Bindings) (calls : Calls) : TextSource → Prop
  | .string | .scalar _ => True
  | .enum type => b.unionNamed? type.toText = none ∧ ∀ text,
      calls.member type.toText "from" [.text text] = textObject b (.enum type) text

theorem run_tagText (h : "tag" ∉ before.map Prod.fst) :
    (runExpr b calls tagText).run (before ++ ("tag", .element child) :: vars) =
      leaving (before ++ ("tag", .element child.close) :: vars) (Object.text <$> child.text) := by
  have hput (object : Object) :
      (Code.Running.update (some (.variable "tag")) (some object)).run
        (before ++ ("tag", .element child) :: vars) =
          pure ((), before ++ ("tag", object) :: vars) :=
    run_put_append h _ object vars
  have hcall : (runExpr b calls (.method (.name "tag") "read_text" [])).run
      (before ++ ("tag", .element child) :: vars) =
        (fun answer ↦ (.result (Object.text <$> answer),
          before ++ ("tag", Code.leftOf child answer) :: vars)) <$> child.text.caught := by
    rw [Code.run_method (lookup_append h) rfl]
    simp [hput]
  rw [tagText, Code.run_attempt_caught hcall, leaving, Functor.map_map, map_eq_pure_bind]
  rfl

/-- The reader of a kind gives the value of a text. -/
theorem run_readScalar {text : Expr} {reading : Reading String} (kind : Scalar.Kind)
    (hlent : Code.lentBy? text = none)
    (h : (runExpr b calls text).run vars = leaving after (Object.text <$> reading)) :
    (runExpr b calls (readScalar kind text)).run vars =
      leaving after (reading >>= textObject b (.scalar kind)) := by
  have htype : (kindType kind).kind? = some kind := by cases kind <;> decide
  have hread (text : String) :
      applied? b calls (.ofTrait (kindType kind) (wire ["Primitive"]) "parse_wire") [.text text] =
        some (pure (.result ((fun datum ↦ .value (.datum datum)) <$>
          b.datum (.scalar kind) text))) := by
    rw [applied?, Code.ofTrait?_parse htype]
    rfl
  have hcall : (runExpr b calls (.apply (.ofTrait (kindType kind) (wire ["Primitive"]) "parse_wire")
      [text])).run vars = _ := Code.run_call_one hlent h hread
  rw [← map_eq_pure_bind] at hcall
  refine (Code.run_attempt hcall).trans (congrArg _ (bind_congr fun text ↦ ?_))
  cases hdatum : b.datum (.scalar kind) text <;> simp [textObject, hdatum] <;> rfl

/-- A conversion gives the value of a text. -/
theorem run_convert {type : Ident} {text : Expr} {reading : Reading String}
    (hconverts : TextSource.Converts b calls (.enum type)) (hlent : Code.lentBy? text = none)
    (h : (runExpr b calls text).run vars = leaving after (Object.text <$> reading)) :
    (runExpr b calls (.applyPath (.member type.toText "from") [text])).run vars =
      leaving after (reading >>= textObject b (.enum type)) := by
  obtain ⟨hunion, hmember⟩ := hconverts
  refine Code.run_call_one hlent h fun text ↦ ?_
  simp [applied?, Code.library?, Code.Path.member, std, Code.Path.global, Code.Path.single, hunion,
    hmember]

/-- A method that gives the same text. -/
theorem run_sameText {text : Expr} {reading : Reading String} {method : String}
    (hmethod : method = "as_str" ∨ method = "to_owned")
    (h : (runExpr b calls text).run vars = leaving after (Object.text <$> reading)) :
    (runExpr b calls (.method text method [])).run vars =
      leaving after (Object.text <$> reading) := by
  have hcall (text : String) :
      methodCall? calls (.text text) method [] = some (pure (.text text, none)) := by
    rcases hmethod with rfl | rfl <;> rfl
  simp [runExpr_method, h, hcall, Code.Running.update, leaving]

theorem run_ofElement {source : TextSource} (hsource : source.Converts b calls)
    (h : "tag" ∉ before.map Prod.fst) :
    (runExpr b calls source.ofElement).run (before ++ ("tag", .element child) :: vars) =
      leaving (before ++ ("tag", .element child.close) :: vars)
        (child.text >>= textObject b source) := by
  cases source with
  | string => exact (run_tagText h).trans (congrArg _ (map_eq_pure_bind _ _))
  | scalar kind => exact run_readScalar kind rfl (run_tagText h)
  | enum type => exact run_convert hsource rfl (run_sameText (.inl rfl) (run_tagText h))

theorem run_ofAttribute {source : TextSource} {text : String} (hsource : source.Converts b calls)
    (h : vars.lookup "value" = some (.text text)) :
    (runExpr b calls source.ofAttribute).run vars = leaving vars (textObject b source text) := by
  have htext : (runExpr b calls (.name "value")).run vars =
      leaving vars (Object.text <$> pure text) := by
    rw [run_name h, map_pure, Code.leaving_pure]
  cases source with
  | string => exact run_sameText (.inr rfl) htext
  | scalar kind => exact run_readScalar kind rfl htext
  | enum type => exact run_convert hsource rfl htext

/-! ## Elements -/

/-- A function that no variant of the library stands before. -/
def Own (ident : Ident) : Prop := ident.toText ∉ ["Some", "Ok", "Err"]

theorem library?_own {ident : Ident} (h : Own ident) (object : Object) :
    Code.library? (.single ident.toText) [object] = none := by
  simp only [Own, List.mem_cons, not_or] at h
  simp [Code.library?, Code.Path.single, std, Code.Path.global, h]

/-- What is called for a structure fills and builds it. -/
structure StructRuns (b : Bindings) (calls : Calls) (decoder type : Ident) (decl : StructDecl)
    (fill : Element → Reading Builder) : Prop where
  notUnion : b.unionNamed? type.toText = none
  start : calls.member type.toText "builder" [] = pure (.builder decl .empty)
  fills : ∀ child, calls.function decoder.toText [.element child, .builder decl .empty] =
    answered (.builder decl) (fill child)
  builds : ∀ builder, calls.member decl.builder.toText "build" [.builder decl builder] =
    pure (.result (.value <$> builder.build decl))

/-- What is called for a source does what a reader does. -/
def Source.Runs (b : Bindings) (calls : Calls) (read : Reader) : Source → Prop
  | .text source => source.Converts b calls ∧ ∀ child, read (.text source) child = do
      let text ← child.text
      Reading.give (.datum <$> b.datum source text)
  | .struct decoder type => ∃ decl fill, StructRuns b calls decoder type decl fill ∧
      ∀ child, read (.struct decoder type) child = do
        let builder ← fill child
        Reading.give (builder.build decl)
  | .shape decoder => Own decoder ∧ ∀ child, calls.function decoder.toText [.element child] =
      answered .value (read (.shape decoder) child)

/-- The element at hand after it was read. -/
def Source.leaves (child : Element) : Source → Object
  | .text _ => .element child.close
  | .struct _ _ | .shape _ => .lent

theorem run_tagArgument (h : "tag" ∉ before.map Prod.fst) :
    (runExpr b calls tagArgument).run (before ++ ("tag", .element child) :: vars) =
      pure (.element child, before ++ ("tag", .element child) :: vars) := by
  simp only [tagArgument, Code.runExpr_reference, run_name (lookup_append h)]

/-- A call that the element at hand is handed over to. -/
theorem run_lending {function : Expr} {rest : List Expr} {objects : List Object} {isOpen : Bool}
    {answer : Reading Object} (h : "tag" ∉ before.map Prod.fst)
    (hrest : (Code.runExprs b calls rest).run (before ++ ("tag", .element child) :: vars) =
      pure (objects, before ++ ("tag", .element child) :: vars))
    (hlent : rest.filterMap Code.lentBy? = [])
    (hcall : applied? b calls function (.element child :: objects) = some answer) :
    (runExpr b calls (.call function (tagArgument :: rest) isOpen)).run
        (before ++ ("tag", .element child) :: vars) =
      leaving (before ++ ("tag", .lent) :: vars) answer := by
  have hlends : (tagArgument :: rest).filterMap Code.lentBy? = ["tag"] := by
    rw [List.filterMap_cons_some (show Code.lentBy? tagArgument = some "tag" from rfl), hlent]
  have hput := run_put_append h (.element child) .lent vars
  simp [runExpr_call, Code.runExprs_cons, run_tagArgument h, hrest, hcall, hlends, hput, leaving]

theorem run_fillStruct {decoder type : Ident} {decl : StructDecl} {fill : Element → Reading Builder}
    (hruns : StructRuns b calls decoder type decl fill) (h : "tag" ∉ before.map Prod.fst) :
    (runExpr b calls (fillStruct decoder type tagArgument)).run
        (before ++ ("tag", .element child) :: vars) =
      leaving (before ++ ("tag", .lent) :: vars) (answered (.builder decl) (fill child)) := by
  have hfresh : (Code.runExprs b calls [freshBuilder type]).run
      (before ++ ("tag", .element child) :: vars) =
        pure ([.builder decl .empty], before ++ ("tag", .element child) :: vars) := by
    have hstart : applied? b calls (.path (.member type.toText "builder")) [] =
        some (pure (.builder decl .empty)) := by
      simp [applied?, Code.library?, Code.Path.member, std, Code.Path.global, hruns.notUnion,
        hruns.start]
    simp [Code.runExprs_one, freshBuilder, Expr.applyPath, Expr.apply, runExpr_call, hstart]
  refine run_lending h hfresh rfl ?_
  simp [applied?, Code.library?, Code.Path.single, hruns.fills]

/-- An element is read as what its source gives. -/
theorem run_element {source : Source} (hruns : source.Runs b calls read)
    (h : "tag" ∉ before.map Prod.fst) :
    (runExpr b calls source.ofElement).run (before ++ ("tag", .element child) :: vars) =
      leaving (before ++ ("tag", source.leaves child) :: vars) (.value <$> read source child) := by
  cases source with
  | text source =>
    obtain ⟨hconverts, hread⟩ := hruns
    refine (run_ofElement hconverts h).trans (congrArg _ ?_)
    simp only [hread, map_bind, Reading.map_give]
    refine bind_congr fun text ↦ ?_
    rw [textObject, Reading.map_give]
    cases b.datum source text <;> rfl
  | struct decoder type =>
    obtain ⟨decl, fill, hruns, hread⟩ := hruns
    have hbuilt : (runExpr b calls (.method (.attempt (fillStruct decoder type tagArgument)) "build"
        [])).run (before ++ ("tag", .element child) :: vars) =
          leaving (before ++ ("tag", .lent) :: vars)
            ((fun builder ↦ .result (.value <$> builder.build decl)) <$> fill child) := by
      rw [runExpr_method, StateT.run_bind, Code.run_attempt_answered (run_fillStruct hruns h)]
      simp [methodCall?, hruns.builds, Code.Running.update, leaving]
    refine (Code.run_attempt hbuilt).trans (congrArg _ ?_)
    simp only [hread, map_bind, Reading.map_give]
  | shape decoder =>
    obtain ⟨hown, hcalls⟩ := hruns
    refine Code.run_attempt_answered (run_lending h rfl rfl ?_)
    simp only [applied?, library?_own hown]
    exact congrArg some (hcalls child)

/-- A box does not show. -/
theorem run_inBox {σ : Type} {value : Boxing σ} {exprOf : σ → Expr} {reading : Reading Object}
    (hlent : Code.lentBy? (exprOf value.source) = none)
    (h : (runExpr b calls (exprOf value.source)).run vars = leaving after reading) :
    (runExpr b calls (inBox value exprOf)).run vars = leaving after reading := by
  unfold inBox
  split
  · have hbox (object : Object) : applied? b calls (.path (std ["boxed", "Box", "new"]))
        [id object] = some (pure object) := by
      simp [applied?, Code.library?]
    rw [← id_map reading] at h
    exact (Code.run_call_one hlent h hbox).trans (congrArg _ (bind_pure reading))
  · exact h

theorem lentBy?_ofElement (source : Source) : Code.lentBy? source.ofElement = none := by
  rcases source with (_ | _ | _) | _ | _ <;> rfl

theorem lentBy?_ofAttribute (source : TextSource) : Code.lentBy? source.ofAttribute = none := by
  cases source <;> rfl

theorem lentBy?_inBox {σ : Type} {value : Boxing σ} {exprOf : σ → Expr}
    (h : Code.lentBy? (exprOf value.source) = none) :
    Code.lentBy? (inBox value exprOf) = none := by
  unfold inBox
  split
  · rfl
  · exact h

/-- What an element is read as is there for the statements after it. -/
theorem runBody_bindValue {name : String} {value : Boxing Source} {rest : List Stmt}
    (hname : name ≠ "_" ∧ name ≠ "None") (hruns : value.source.Runs b calls read)
    (h : "tag" ∉ before.map Prod.fst) :
    (runBody b calls (.bind (.name name) none (inBox value Source.ofElement) :: rest)).run
        (before ++ ("tag", .element child) :: vars) =
      read value.source child >>= fun held ↦ (fun p ↦ (p.1, p.2.drop 1)) <$>
        (runBody b calls rest).run ((name, .value held) ::
          (before ++ ("tag", value.source.leaves child) :: vars)) := by
  exact Code.runBody_bind (fun held ↦ Code.taken?_name hname (.value held))
    (run_inBox (lentBy?_ofElement value.source) (run_element hruns h))

theorem run_keyAndValue {key value : Object} (hkey : vars.lookup "key" = some key)
    (hvalue : vars.lookup "value" = some value) :
    (Code.runExprs b calls [.name "key", .name "value"]).run vars = pure ([key, value], vars) := by
  simp [Code.runExprs_cons, run_name hkey, run_name hvalue]

/-- An entry as an object. -/
def pairObject (pair : Datum × Value) : Object := .tuple [.value (.datum pair.1), .value pair.2]

/-- What is called for an entry does what the decoder of entries does. -/
def EntryRuns (b : Bindings) (calls : Calls) (read : Reader) (entry : Ident) : Prop :=
  Own entry ∧ ∀ child, calls.function entry.toText [.element child] =
    answered pairObject (b.readEntryBy read entry child)

/-- An entry is taken apart. -/
theorem runBody_bindEntry {entry : Ident} {rest : List Stmt} (hruns : EntryRuns b calls read entry)
    (h : "tag" ∉ before.map Prod.fst) :
    (runBody b calls (bindEntry entry :: rest)).run (before ++ ("tag", .element child) :: vars) =
      b.readEntryBy read entry child >>= fun pair ↦
        (fun p ↦ (p.1, p.2.drop 2)) <$> (runBody b calls rest).run
          (("key", .value (.datum pair.1)) :: ("value", .value pair.2) ::
            (before ++ ("tag", .lent) :: vars)) := by
  obtain ⟨hown, hcalls⟩ := hruns
  have hcall : (runExpr b calls (.attempt (.applyPath (.single entry.toText) [tagArgument]))).run
      (before ++ ("tag", .element child) :: vars) = _ :=
    Code.run_attempt_answered (run_lending h rfl rfl (by
      simp only [applied?, library?_own hown]
      exact congrArg some (hcalls child)))
  have htaken (pair : Datum × Value) : Code.taken? b (.tuple [.name "key", .name "value"])
      (pairObject pair) = some [("key", .value (.datum pair.1)), ("value", .value pair.2)] := by
    simp [Code.taken?_name, pairObject]
  exact Code.runBody_bind htaken hcall

/-! ## Arms -/

/-- The arm for children that nothing else matches. -/
def otherwise : Arm := .mk (.name "_") none (.block [])

/-- The first arm is run whose pattern the name of the child satisfies. -/
theorem run_arms {α : Type} (pattern : α → String) (body : α → List Stmt) (arms : List α)
    (tag : StartTag) :
    (runArms b calls (arms.map (fun arm ↦ matchingArm (pattern arm) (body arm)) ++ [otherwise])
        (.start tag)).run vars =
      (armFor pattern arms tag).elim (pure (.unit, vars)) fun arm ↦
        (fun p ↦ (p.1, p.2.drop 1)) <$>
          (runBody b calls (body arm)).run (("s", .start tag) :: vars) := by
  induction arms with
  | nil => simp [armFor, otherwise, Code.runArms_free, Code.runExpr_block]
  | cons arm rest ih =>
    have hguard : (runExpr b calls (.method (.name "s") "matches" [.text (pattern arm)])).run
        (("s", .start tag) :: vars) =
          pure (.flag (tag.matchesPattern (pattern arm)), ("s", .start tag) :: vars) := by
      simp [runExpr_method, run_name List.lookup_cons_self, Code.runExprs_one, Code.run_text,
        methodCall?, Object.method?, Object.text, Object.string?, Object.value?, Value.string?]
    have htaken : Code.taken? b (.name "s") (.start tag) = some [("s", .start tag)] := rfl
    simp only [List.map_cons, List.cons_append, matchingArm, Code.runArms_guarded, htaken,
      StateT.run_bind, Code.run_within, List.nil_append, hguard, map_pure, pure_bind, armFor,
      List.find?_cons]
    cases hmatches : tag.matchesPattern (pattern arm) with
    | true => simp [Code.runExpr_block]
    | false => exact ih

/-! ## Children -/

section Children

variable {σ : Type} (frame : σ → Object → Variables) {step : σ → Element → Reading σ}
  {arms : List Arm} {rest : List Stmt}

/-- The arms do for a child what the first does that its name satisfies. -/
theorem run_arms_step {α : Type} (pattern : α → String) {body : α → List Stmt} (arms : List α)
    {change : α → Reading σ} {s : σ}
    (hchange : ∀ arm ∈ arms, (fun p ↦ p.2.drop 2) <$> (runBody b calls (body arm)).run
        (("s", .start child.start) :: ("tag", .element child) :: frame s .lent) =
      (frame · .lent) <$> change arm) :
    (fun p ↦ p.2.drop 1) <$> (runArms b calls
        (arms.map (fun arm ↦ matchingArm (pattern arm) (body arm)) ++ [otherwise])
        (.start child.start)).run (("tag", .element child) :: frame s .lent) =
      (frame · .lent) <$> (armFor pattern arms child.start).elim (pure s) change := by
  rw [run_arms]
  cases harm : armFor pattern arms child.start with
  | none => simp
  | some arm =>
    rw [Option.elim_some, Option.elim_some, ← hchange arm (List.mem_of_find?_eq_some harm)]
    simp only [Functor.map_map, List.drop_drop]

/-- The only arm does what it does for a child whose name satisfies it. -/
theorem run_arm_step (pattern : String) {body : List Stmt} {change : Reading σ} {s : σ}
    (hchange : (fun p ↦ p.2.drop 2) <$> (runBody b calls body).run
        (("s", .start child.start) :: ("tag", .element child) :: frame s .lent) =
      (frame · .lent) <$> change) :
    (fun p ↦ p.2.drop 1) <$> (runArms b calls ([matchingArm pattern body] ++ [otherwise])
        (.start child.start)).run (("tag", .element child) :: frame s .lent) =
      (frame · .lent) <$> if child.start.matchesPattern pattern then change else pure s := by
  refine (run_arms_step frame (fun _ ↦ pattern) [()] fun _ _ ↦ hchange).trans (congrArg _ ?_)
  cases hmatches : child.start.matchesPattern pattern <;> simp [armFor, hmatches]

variable (hlookup : ∀ s object, (frame s object).lookup "decoder" = some object)
  (hset : ∀ s object after, (frame s object).set? "decoder" after = some (frame s after))

include hlookup hset

/-- The walk is the fold over the children, if for each of them the arms do what the step does. -/
theorem runBody_walk (hrest : rest ≠ [])
    (hstep : ∀ s child, (fun p ↦ p.2.drop 1) <$>
      (runArms b calls (arms ++ [otherwise]) (.start child.start)).run
        (("tag", .element child) :: frame s .lent) = (frame · .lent) <$> step s child)
    (s : σ) :
    (runBody b calls (walk arms :: rest)).run (frame s (.element e)) =
      e.foldChildren step s >>= fun s' ↦
        (runBody b calls rest).run (frame s' (.element e.close)) := by
  have hput (s : σ) (object after : Object) :
      (Code.Running.put (.variable "decoder") after).run (frame s object) =
        pure ((), frame s after) := run_put (hset s object after)
  have hstart (child : Element) (vars : Variables) :
      (runExpr b calls (.method (.name "tag") "start_el" [])).run
          (("tag", .element child) :: vars) =
        pure (.start child.start, ("tag", .element child) :: vars) := by
    rw [Code.run_method List.lookup_cons_self rfl, pure_bind, Code.update_none, StateT.run_pure,
      map_pure]
  have hchild (s : σ) (child : Element) :
      (fun p ↦ p.2.drop 1) <$> (runExpr b calls (.cases (.method (.name "tag") "start_el" [])
        (arms ++ [otherwise]))).run (("tag", .element child) :: frame s .lent) =
          (frame · .lent) <$> step s child := by
    rw [Code.runExpr_cases, StateT.run_bind, hstart, pure_bind, hstep]
  obtain ⟨loop, hwalk, hloop⟩ : ∃ loop, walk arms = .give loop ∧
      (runExpr b calls loop).run (frame s (.element e)) =
        (fun s' ↦ (.unit, frame s' (.element e.close))) <$> e.foldChildren step s := by
    refine ⟨_, rfl, ?_⟩
    have hname : Code.walkedBy? (.attempt (.method (.name "decoder") "next_tag" [])) =
      some "decoder" := rfl
    have htaken (child : Element) : Code.taken? b (.variant (.single "Some") [.mutable "tag"])
        (.option (some (.element child))) = some [("tag", .element child)] := by
      simp
    have hfold {body : Variables → Element → Reading Variables}
        (hbody : ∀ s child, body (frame s .lent) child = (frame · .lent) <$> step s child) :
        e.foldChildren body (frame s .lent) = (frame · .lent) <$> e.foldChildren step s :=
      Element.foldChildren_map hbody s
    rw [Code.runExpr_whileLet]
    simp only [hname, htaken, Code.known_some, pure_bind, Code.Running.walk, StateT.run_bind,
      StateT.run_get, hlookup, hput, StateT.run_pure, StateT.run_lift, StateT.run_set, bind_assoc,
      Code.runBody_last, Code.run_within, bind_map_left]
    rw [hfold fun s child ↦ ?_, bind_map_left, map_eq_pure_bind]
    · simp only [hput, pure_bind]
    · rw [← hchild s child]
      simp
      rfl
  rw [hwalk, Code.runBody_give hrest, hloop, bind_map_left]

theorem run_skip (s : σ) :
    (runExpr b calls (.attempt (.method (.name "decoder") "skip" []))).run (frame s (.element e)) =
      e.foldChildren (fun skipped _ ↦ pure skipped) () >>= fun _ ↦
        pure (.unit, frame s (.element e.close)) := by
  have hput (object : Object) :
      (Code.Running.update (some (.variable "decoder")) (some object)).run
        (frame s (.element e)) = pure ((), frame s object) := run_put (hset s _ object)
  have hcall : (runExpr b calls (.method (.name "decoder") "skip" [])).run
      (frame s (.element e)) = (fun answer ↦ (.result ((fun _ ↦ .unit) <$> answer),
        frame s (Code.leftOf e answer))) <$>
          (e.foldChildren (fun (skipped : Unit) _ ↦ pure skipped) ()).caught := by
    rw [Code.run_method (hlookup s _) rfl]
    simp [hput]
  exact Code.run_attempt_caught hcall

/-- Without arms the element is skipped, which is the same if a step does nothing then. -/
theorem runBody_walkOrSkip (hrest : rest ≠ [])
    (hstep : ∀ s child, (fun p ↦ p.2.drop 1) <$>
      (runArms b calls (arms ++ [otherwise]) (.start child.start)).run
        (("tag", .element child) :: frame s .lent) = (frame · .lent) <$> step s child)
    (hnone : arms = [] → ∀ s child, step s child = pure s) (s : σ) :
    (runBody b calls (walkOrSkip arms :: rest)).run (frame s (.element e)) =
      e.foldChildren step s >>= fun s' ↦
        (runBody b calls rest).run (frame s' (.element e.close)) := by
  rcases harms : arms with _ | ⟨first, more⟩
  · have hskip : e.foldChildren step s =
        (fun _ ↦ s) <$> e.foldChildren (fun skipped _ ↦ pure skipped) () :=
      Element.foldChildren_map (f := fun _ ↦ s) (fun _ child ↦ hnone harms s child) ()
    rw [walkOrSkip, List.isEmpty_nil, if_pos rfl, Code.runBody_run, run_skip frame hlookup hset,
      hskip, bind_map_left, bind_assoc]
    simp only [pure_bind]
  · rw [harms] at hstep
    exact runBody_walk frame hlookup hset hrest hstep s

end Children

/-! ## Changes of variables -/

/-- A variable is set to what is read. -/
theorem runBody_assign {α : Type} {name : String} {value : Expr} {reading : Reading α}
    {objectOf : α → Object} {done : α → Variables}
    (h : (runExpr b calls value).run vars = leaving after (objectOf <$> reading))
    (hset : ∀ a, after.set? name (objectOf a) = some (done a)) :
    (runBody b calls [assign name value]).run vars = (fun a ↦ (.unit, done a)) <$> reading := by
  rw [assign, Code.runBody_run, Code.runExpr_assign, StateT.run_bind, h]
  simp only [Code.locationOf?_name, Code.known_some, pure_bind, StateT.run_bind,
    Code.leaving_bind, bind_map_left, bind_assoc]
  rw [map_eq_pure_bind]
  apply bind_congr
  intro a
  simp only [run_put (hset a), pure_bind, StateT.run_pure, Code.runBody_nil]

/-- A variable is set to an object. -/
theorem runBody_assign_pure {name : String} {value : Expr} {object : Object} {done : Variables}
    (h : (runExpr b calls value).run vars = pure (object, after))
    (hset : after.set? name object = some done) :
    (runBody b calls [assign name value]).run vars = pure (.unit, done) := by
  rw [← Code.leaving_pure, ← map_pure (fun _ ↦ object) ()] at h
  rw [runBody_assign h fun _ ↦ hset, map_pure]

/-- A variable is changed by one of its methods. -/
theorem runBody_method {α : Type} {name method : String} {arguments : List Expr} {object : Object}
    {reading : Reading α} {objects : α → List Object} {changed : α → Object}
    {done : α → Variables} {rest : List Stmt} (hlookup : vars.lookup name = some object)
    (harguments : (Code.runExprs b calls arguments).run vars =
      (fun a ↦ (objects a, after)) <$> reading)
    (hcall : ∀ a, methodCall? calls object method (objects a) =
      some (pure (.unit, some (changed a))))
    (hset : ∀ a, after.set? name (changed a) = some (done a)) :
    (runBody b calls (.run (.method (.name name) method arguments) :: rest)).run vars =
      reading >>= fun a ↦ (runBody b calls rest).run (done a) := by
  rw [Code.runBody_run, runExpr_method]
  simp only [StateT.run_bind, run_name hlookup, pure_bind, harguments, bind_map_left, bind_assoc]
  apply bind_congr
  intro a
  simp [hcall, Code.Running.update, run_put (hset a)]

theorem runBody_method_pure {name method : String} {arguments : List Expr}
    {object changed : Object} {objects : List Object} {done : Variables} {rest : List Stmt}
    (hlookup : vars.lookup name = some object)
    (harguments : (Code.runExprs b calls arguments).run vars = pure (objects, after))
    (hcall : methodCall? calls object method objects = some (pure (.unit, some changed)))
    (hset : after.set? name changed = some done) :
    (runBody b calls (.run (.method (.name name) method arguments) :: rest)).run vars =
      (runBody b calls rest).run done := by
  rw [← map_pure (fun _ ↦ (objects, after)) ()] at harguments
  rw [runBody_method hlookup harguments (fun _ ↦ hcall) fun _ ↦ hset, pure_bind]

/-- What was gathered so far, as an object: a default if there is nothing. -/
def gathered (held : Option Value) : Object := (held.map Object.value).getD .blank

theorem gathered_items? (held : Option Value) :
    (gathered held).items? = some ((held.map Value.items).getD []) := by
  cases held <;> rfl

theorem gathered_entries? (held : Option Value) :
    (gathered held).entries? = some ((held.map Value.entries).getD []) := by
  cases held <;> rfl

theorem methodCall?_push {object : Object} {items : List Value} (h : object.items? = some items)
    (item : Value) : methodCall? calls object "push" [.value item] =
      some (pure (.unit, some (.value (.list (items ++ [item]))))) := by
  cases object <;> simp_all [methodCall?, Object.method?, Object.items?]

theorem methodCall?_insert {object : Object} {entries : List (Datum × Value)}
    (h : object.entries? = some entries) (key : Datum) (value : Value) :
    methodCall? calls object "insert" [.value (.datum key), .value value] =
      some (pure (.unit, some (.value (.map (Value.putEntry entries key value))))) := by
  cases object <;> simp_all [methodCall?, Object.method?, Object.entries?]

end Bindings

end WireShapes
