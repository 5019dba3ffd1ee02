import WireShapes.Proofs.ElementRuns

/-!
# Decoders as they are written

Running the function that a decoder is written as does what the decoder does, as long as the
functions that it calls do.
-/

namespace WireShapes

open Wire (Element Reading DecodeError StartTag Document)
open Code (Calls Object Variables Expr Stmt Arm Ident runExpr runBody runArms applied? methodCall?
  leaving answered runExpr_call runExpr_method runExprs_one runArms_free run_name run_put)

namespace Bindings

variable {b : Bindings} {calls : Calls} {read : Reader} {vars after before : Variables}
  {child e : Element}

/-! ## Structures -/

section Structures

variable {decl : StructDecl} {builder : Builder}

/-- The variables of a structure's decoder. -/
def structFrame (decl : StructDecl) (builder : Builder) (object : Object) : Variables :=
  [("decoder", object), ("builder", .builder decl builder)]

/-- A method of the builder changes it, by what its arguments are read as. -/
theorem run_changeBuilder_read {α : Type} {method : Ident} {arguments : List Expr}
    {reading : Reading α} {objects : α → List Object} {changed : α → Builder}
    {after : α → Variables}
    (harguments : (Code.runExprs b calls arguments).run vars =
      (fun a ↦ (objects a, vars)) <$> reading)
    (hcall : ∀ a, calls.member decl.builder.toText method.toText
      (.builder decl builder :: objects a) = pure (.builder decl (changed a)))
    (hlookup : vars.lookup "builder" = some (.builder decl builder))
    (hset : ∀ a, vars.set? "builder" (.builder decl (changed a)) = some (after a)) :
    (runBody b calls [changeBuilder method arguments]).run vars =
      (fun a ↦ (.unit, after a)) <$> reading := by
  simp [changeBuilder, assign, Code.runBody_run, Code.runExpr_assign, runExpr_method,
    run_name hlookup, harguments, methodCall?, hcall, fun a ↦ run_put (hset a)]

theorem run_changeBuilder {method : Ident} {arguments : List Expr} {objects : List Object}
    {changed : Builder}
    (harguments : (Code.runExprs b calls arguments).run vars = pure (objects, vars))
    (hcall : calls.member decl.builder.toText method.toText (.builder decl builder :: objects) =
      pure (.builder decl changed))
    (hlookup : vars.lookup "builder" = some (.builder decl builder))
    (hset : vars.set? "builder" (.builder decl changed) = some after) :
    (runBody b calls [changeBuilder method arguments]).run vars = pure (.unit, after) := by
  rw [← map_pure (fun _ ↦ (objects, vars)) ()] at harguments
  rw [run_changeBuilder_read harguments (fun _ ↦ hcall) hlookup fun _ ↦ hset, map_pure]

/-- What is called for an action does what the action does. -/
def StructAction.Runs (b : Bindings) (calls : Calls) (read : Reader) (decl : StructDecl)
    (member : String) : StructAction → Prop
  | .set setter value => value.source.Runs b calls read ∧ ∀ builder held,
      calls.member decl.builder.toText setter.toText
          [.builder decl builder, .option (some (.value held))] =
        pure (.builder decl (builder.set member (some held)))
  | .push method item => item.source.Runs b calls read ∧ ∀ builder held,
      calls.member decl.builder.toText method.toText [.builder decl builder, .value held] =
        pure (.builder decl (builder.push member held))
  | .insert method entry => EntryRuns b calls read entry ∧ ∀ builder key held,
      calls.member decl.builder.toText method.toText
          [.builder decl builder, .value (.datum key), .value held] =
        pure (.builder decl (builder.insert member key held))

/-- What an action does to a builder. -/
def StructAction.change (b : Bindings) (read : Reader) (member : String) (builder : Builder)
    (child : Element) : StructAction → Reading Builder
  | .set _ value => do return builder.set member (some (← read value.source child))
  | .push _ item => do return builder.push member (← read item.source child)
  | .insert _ entry => do
    let (key, value) ← b.readEntryBy read entry child
    return builder.insert member key value

theorem run_structAction {member : String} {action : StructAction} {tag : StartTag}
    (hruns : action.Runs b calls read decl member) :
    (fun p ↦ p.2.drop 2) <$> (runBody b calls action.code).run
        (("s", .start tag) :: ("tag", .element child) :: structFrame decl builder .lent) =
      (structFrame decl · .lent) <$> action.change b read member builder child := by
  let before : Variables := [("s", .start tag)]
  have htag : "tag" ∉ before.map Prod.fst := by simp [before]
  cases action with
  | set setter value =>
    obtain ⟨hsource, hcall⟩ := hruns
    refine (congrArg _ (runBody_bindValue (by decide) hsource htag)).trans ?_
    rw [StructAction.change, map_bind, map_bind]
    apply bind_congr
    intro held
    rw [run_changeBuilder ?_ (hcall builder held) rfl rfl]
    · simp [structFrame]
    · simp [runExprs_one, Code.run_some rfl (run_name List.lookup_cons_self)]
  | push method item =>
    obtain ⟨hsource, hcall⟩ := hruns
    refine (congrArg _ (runBody_bindValue (by decide) hsource htag)).trans ?_
    rw [StructAction.change, map_bind, map_bind]
    apply bind_congr
    intro held
    rw [run_changeBuilder ?_ (hcall builder held) rfl rfl]
    · simp [structFrame]
    · simp [runExprs_one, run_name List.lookup_cons_self]
  | insert method entry =>
    obtain ⟨hentry, hcall⟩ := hruns
    refine (congrArg _ (runBody_bindEntry hentry htag)).trans ?_
    rw [StructAction.change, map_bind, map_bind]
    apply bind_congr
    rintro ⟨key, held⟩
    rw [run_changeBuilder (run_keyAndValue rfl rfl) (hcall builder key held) rfl rfl]
    simp [structFrame]

theorem structChild_eq (d : StructDecoder) (builder : Builder) (child : Element) :
    b.structChild read d builder child =
      (armFor StructArm.pattern d.arms child.start).elim (pure builder) fun arm ↦
        arm.action.change b read arm.member builder child := by
  unfold structChild
  cases armFor StructArm.pattern d.arms child.start with
  | none => rfl
  | some arm => cases arm.action <;> rfl

/-- What an attribute is read with does what is declared. -/
def AttributeArm.Runs (b : Bindings) (calls : Calls) (decl : StructDecl) (arm : AttributeArm) :
    Prop :=
  arm.value.source.Converts b calls ∧ ∀ builder datum,
    calls.member decl.builder.toText arm.setter.toText
        [.builder decl builder, .option (some (.value (.datum datum)))] =
      pure (.builder decl (builder.set arm.member (some (.datum datum))))

/-- A statement for an attribute sets the member if the element has the attribute. -/
theorem runBody_attribute {arm : AttributeArm} {rest : List Stmt} (hrest : rest ≠ [])
    (hruns : arm.Runs b calls decl) :
    (runBody b calls (arm.code :: rest)).run (structFrame decl builder (.element e)) =
      (e.start.get? arm.pattern).elim
        ((runBody b calls rest).run (structFrame decl builder (.element e))) fun text ↦
          Reading.give (b.datum arm.value.source text) >>= fun datum ↦
            (runBody b calls rest).run
              (structFrame decl (builder.set arm.member (some (.datum datum))) (.element e)) := by
  obtain ⟨hsource, hcall⟩ := hruns
  have hfound : (runExpr b calls (.method (.method (.name "decoder") "start_el" []) "attr"
      [.text arm.pattern])).run (structFrame decl builder (.element e)) =
        pure (.option ((e.start.get? arm.pattern).map .text),
          structFrame decl builder (.element e)) := by
    have hdecoder : (structFrame decl builder (.element e)).lookup "decoder" =
      some (.element e) := rfl
    simp [runExpr_method, run_name hdecoder, runExprs_one, methodCall?, Code.elementMethod?,
      Object.method?, Object.text, Object.string?, Object.value?, Value.string?]
  rw [AttributeArm.code, Code.runBody_give hrest, Code.runExpr_ifLet, StateT.run_bind, hfound,
    pure_bind]
  cases e.start.get? arm.pattern with
  | none => simp
  | some text =>
    have htaken : Code.taken? b (.variant (.single "Some") [.name "value"])
        (.option ((some text).map .text)) = some [("value", .text text)] := by
      simp [Code.taken?_name]
    have hread : (Code.runExprs b calls [.some (inBox arm.value TextSource.ofAttribute)]).run
        (("value", .text text) :: structFrame decl builder (.element e)) =
          (fun datum ↦ ([.option (some (.value (.datum datum)))],
            ("value", .text text) :: structFrame decl builder (.element e))) <$>
              Reading.give (b.datum arm.value.source text) := by
      have hvalue : (runExpr b calls (.some (inBox arm.value TextSource.ofAttribute))).run
          (("value", .text text) :: structFrame decl builder (.element e)) = _ :=
        Code.run_some_read (lentBy?_inBox (lentBy?_ofAttribute _))
          (run_inBox (lentBy?_ofAttribute _) (run_ofAttribute hsource List.lookup_cons_self))
      simp [runExprs_one, hvalue, leaving]
    have hbody := run_changeBuilder_read hread (hcall builder) rfl fun _ ↦ rfl
    simp only [htaken, Code.run_within, List.singleton_append, hbody, Option.elim_some]
    simp [structFrame]

/-- The statements for attributes set the members that attributes give. -/
theorem runBody_attributes {attributes : List AttributeArm} {rest : List Stmt} (hrest : rest ≠ [])
    (hruns : ∀ arm ∈ attributes, arm.Runs b calls decl) (builder : Builder) :
    (runBody b calls (attributes.map AttributeArm.code ++ rest)).run
        (structFrame decl builder (.element e)) =
      Reading.give (b.readAttributes e.start builder attributes) >>= fun builder ↦
        (runBody b calls rest).run (structFrame decl builder (.element e)) := by
  induction attributes generalizing builder with
  | nil => rfl
  | cons arm attributes ih =>
    have hmore := ih fun other hmem ↦ hruns other (List.mem_cons_of_mem _ hmem)
    rw [List.map_cons, List.cons_append,
      runBody_attribute (by simp [hrest]) (hruns arm List.mem_cons_self), readAttributes]
    cases e.start.get? arm.pattern with
    | none => exact hmore builder
    | some text =>
      simp only [Option.elim_some, hmore]
      cases b.datum arm.value.source text <;> rfl

/-- The function of a structure's decoder reads the members into the builder that it is given. -/
theorem StructDecoder.run {d : StructDecoder} {function : Code.Fn}
    (hfunction : .fn function ∈ d.code) (hattributes : ∀ arm ∈ d.attributes, arm.Runs b calls decl)
    (harms : ∀ arm ∈ d.arms, arm.action.Runs b calls read decl arm.member) :
    function.call b calls [.element e, .builder decl builder] =
      answered (.builder decl) (b.fill read d builder e) := by
  obtain rfl : function = _ := by simpa [StructDecoder.code, decoderFn] using hfunction
  have hstep (builder : Builder) (child : Element) :
      (fun p ↦ p.2.drop 1) <$> (runArms b calls
          (d.arms.map (fun arm ↦ matchingArm arm.pattern arm.action.code) ++ [otherwise])
          (.start child.start)).run (("tag", .element child) :: structFrame decl builder .lent) =
        (structFrame decl · .lent) <$> b.structChild read d builder child := by
    rw [structChild_eq]
    exact run_arms_step (structFrame decl) StructArm.pattern d.arms fun arm hmem ↦
      run_structAction (harms arm hmem)
  have hnone (hempty : d.arms.map (fun arm ↦ matchingArm arm.pattern arm.action.code) = [])
      (builder : Builder) (child : Element) :
      b.structChild read d builder child = pure builder := by
    rw [structChild_eq, List.map_eq_nil_iff.mp hempty]
    rfl
  have hlast (filled : Builder) : (runBody b calls [.give (.ok (.name "builder"))]).run
      (structFrame decl filled (.element e.close)) = pure (.result (.ok (.builder decl filled)),
        structFrame decl filled (.element e.close)) := by
    rw [Code.runBody_last]
    exact Code.run_ok rfl (run_name rfl)
  have hbody : (runBody b calls (d.attributes.map AttributeArm.code ++
      [walkOrSkip (d.arms.map fun arm ↦ matchingArm arm.pattern arm.action.code),
        .give (.ok (.name "builder"))])).run (structFrame decl builder (.element e)) =
      (fun filled ↦ (.result (Object.builder decl <$> .ok filled),
        structFrame decl filled (.element e.close))) <$> b.fill read d builder e := by
    rw [runBody_attributes (List.cons_ne_nil _ _) hattributes, fill, map_bind]
    apply bind_congr
    intro builder
    rw [runBody_walkOrSkip (structFrame decl) (fun _ _ ↦ rfl) (fun _ _ _ ↦ rfl)
      (List.cons_ne_nil _ _) hstep hnone,
      map_eq_pure_bind]
    exact bind_congr hlast
  exact (Code.call_of_body hbody).trans (congrArg _ (bind_pure _))

end Structures

/-! ## Unions -/

section Unions

variable {type : Ident} {held : Held}

/-- What a union holds so far, as an object. -/
def Held.object (held : Held) : Object :=
  .option (held.map fun entry ↦ .value (.variant entry.1 entry.2))

/-- The variables of a union's decoder. -/
def unionFrame (held : Held) (object : Object) : Variables :=
  [("base", held.object), ("decoder", object)]

/-- A variant of a declared union stands for a member. -/
def IsVariant (b : Bindings) (type variant : Ident) (member : String) : Prop :=
  ∃ decl case, b.unionNamed? type.toText = some decl ∧
    decl.caseNamed? variant.toText = some case ∧ case.member = member

theorem run_putVariant {variant : Ident} {member payload : String} {value : Value}
    (hvariant : IsVariant b type variant member)
    (hlookup : vars.lookup payload = some (.value value))
    (hset : vars.set? "base" (Held.object (some (member, value))) = some after) :
    (runBody b calls [putVariant (.member type.toText variant.toText) payload]).run vars =
      pure (.unit, after) := by
  obtain ⟨decl, case, hunion, hcase, rfl⟩ := hvariant
  have hput : applied? b calls (.path (.member type.toText variant.toText)) [.value value] =
      some (pure (.value (.variant case.member value))) := by
    simp [applied?, Code.library?, Code.Path.member, std, Code.Path.global, Code.Path.single,
      hunion, Code.variant?, hcase, Object.value?]
  have hpayload : (runExpr b calls (.applyPath (.member type.toText variant.toText)
      [.name payload])).run vars = pure (.value (.variant case.member value), vars) :=
    (Code.run_call_pure rfl (run_name hlookup) hput).trans (Code.leaving_pure ..)
  exact runBody_assign_pure (Code.run_some rfl hpayload) hset

theorem runBody_takeGathered {variant : Ident} {member : String} {rest : List Stmt}
    (hvariant : IsVariant b type variant member) (hlookup : vars.lookup "base" = some held.object)
    (hset : vars.set? "base" (Held.object none) = some after) :
    (runBody b calls (takeGathered (.member type.toText variant.toText) :: rest)).run vars =
      (fun p ↦ (p.1, p.2.drop 1)) <$>
        (runBody b calls rest).run (("acc", gathered (heldOf held member)) :: after) := by
  obtain ⟨decl, case, hunion, hcase, rfl⟩ := hvariant
  have hput : (Code.Running.put (.variable "base") (.option none)).run vars = pure ((), after) :=
    run_put hset
  have htake : (runExpr b calls (.method (.name "base") "take" [])).run vars =
      pure (held.object, after) := by
    rw [Code.run_method hlookup rfl, pure_bind]
    simp [Held.object, Code.Running.update, hput]
  have hblank : (runExpr b calls (.applyPath (std ["default", "Default", "default"]) [])).run
      after = pure (.blank, after) := by
    simp [Expr.applyPath, Expr.apply, runExpr_call, applied?, Code.library?, std,
      Code.Path.global]
  have hheld (member : String) (value : Value) :
      Code.taken? b (.variant (.single "Some")
        [.variant (.member type.toText variant.toText) [.name "acc"]])
          (.option (some (.value (.variant member value)))) =
        if case.member = member then some [("acc", .value value)] else none := by
    simp [Code.taken?_variant hunion hcase, Code.taken?_name, apply_ite]
  have hacc : (Code.runArms b calls [.mk (.variant (.single "Some")
      [.variant (.member type.toText variant.toText) [.name "acc"]]) none (.name "acc"),
        .mk (.name "_") none (.applyPath (std ["default", "Default", "default"]) [])]
          held.object).run after = pure (gathered (heldOf held case.member), after) := by
    rcases held with _ | ⟨member, value⟩
    · simp [runArms_free, Held.object, hblank, gathered, heldOf]
    · by_cases hsame : case.member = member
      · simp [runArms_free, Held.object, hheld, hsame, run_name List.lookup_cons_self, gathered,
          heldOf]
      · simp [runArms_free, Held.object, hheld, hsame, Ne.symm hsame, hblank, gathered, heldOf]
  exact Code.runBody_bind_pure (Code.taken?_mutable ..) ((Code.run_cases htake).trans hacc)

/-- What is called for an action does what the action does. -/
def UnionAction.Runs (b : Bindings) (calls : Calls) (read : Reader) : UnionAction → Prop
  | .set value => value.source.Runs b calls read
  | .push item => item.source.Runs b calls read
  | .insert entry => EntryRuns b calls read entry

/-- What an action makes of a union. -/
def UnionAction.change (b : Bindings) (read : Reader) (member : String) (held : Held)
    (child : Element) : UnionAction → Reading Held
  | .set value => do return some (member, ← read value.source child)
  | .push item => do
    let items := ((heldOf held member).map Value.items).getD []
    return some (member, .list (items ++ [← read item.source child]))
  | .insert entry => do
    let entries := ((heldOf held member).map Value.entries).getD []
    let (key, value) ← b.readEntryBy read entry child
    return some (member, .map (Value.putEntry entries key value))

theorem run_unionAction {variant : Ident} {member : String} {action : UnionAction} {tag : StartTag}
    (hvariant : IsVariant b type variant member) (hruns : action.Runs b calls read) :
    (fun p ↦ p.2.drop 2) <$> (runBody b calls
        (action.code (.member type.toText variant.toText))).run
        (("s", .start tag) :: ("tag", .element child) :: unionFrame held .lent) =
      (unionFrame · .lent) <$> action.change b read member held child := by
  have htag : "tag" ∉ [("s", Object.start tag)].map Prod.fst := by simp
  cases action with
  | set value =>
    refine (congrArg _ (runBody_bindValue (by decide) hruns htag)).trans ?_
    rw [UnionAction.change, map_bind, map_bind]
    apply bind_congr
    intro value
    rw [run_putVariant hvariant List.lookup_cons_self rfl]
    simp [unionFrame]
  | push item =>
    have hacc : "tag" ∉ [("acc", gathered (heldOf held member)), ("s", .start tag)].map
      Prod.fst := by simp
    rw [UnionAction.code, runBody_takeGathered hvariant rfl rfl]
    refine (congrArg _ (congrArg _ (runBody_bindValue (by decide) hruns hacc))).trans ?_
    rw [UnionAction.change, map_bind, map_bind, map_bind]
    apply bind_congr
    intro value
    rw [addGathered, runBody_method_pure rfl (Code.runExprs_name rfl)
      (methodCall?_push (gathered_items? _) value) rfl, run_putVariant hvariant rfl rfl]
    simp [unionFrame]
  | insert entry =>
    have hacc : "tag" ∉ [("acc", gathered (heldOf held member)), ("s", .start tag)].map
      Prod.fst := by simp
    rw [UnionAction.code, runBody_takeGathered hvariant rfl rfl]
    refine (congrArg _ (congrArg _ (runBody_bindEntry hruns hacc))).trans ?_
    rw [UnionAction.change, map_bind, map_bind, map_bind]
    apply bind_congr
    rintro ⟨key, value⟩
    rw [addGathered, runBody_method_pure rfl (run_keyAndValue rfl rfl)
      (methodCall?_insert (gathered_entries? _) key value) rfl,
      run_putVariant hvariant rfl rfl]
    simp [unionFrame]

theorem unionChild_eq (d : UnionDecoder) (held : Held) (child : Element) :
    b.unionChild read d held child =
      (armFor UnionArm.pattern d.arms child.start).elim (pure held) fun arm ↦
        arm.action.change b read arm.member held child := by
  unfold unionChild
  cases armFor UnionArm.pattern d.arms child.start with
  | none => rfl
  | some arm => cases arm.action <;> rfl

/-- The function of a union's decoder reads the union. -/
theorem UnionDecoder.run {d : UnionDecoder} {decl : UnionDecl} {function : Code.Fn}
    (hfunction : .fn function ∈ d.code) (hunion : b.unionNamed? d.type.toText = some decl)
    (harms : ∀ arm ∈ d.arms, IsVariant b d.type arm.variant arm.member ∧
      arm.action.Runs b calls read) :
    function.call b calls [.element e] = answered .value (b.readUnion read d e) := by
  obtain rfl : function = _ := by simpa [UnionDecoder.code, decoderFn] using hfunction
  let armCode (arm : UnionArm) : Arm :=
    matchingArm arm.pattern (arm.action.code (.member d.type.toText arm.variant.toText))
  have hstep (held : Held) (child : Element) :
      (fun p ↦ p.2.drop 1) <$> (runArms b calls (d.arms.map armCode ++ [otherwise])
          (.start child.start)).run (("tag", .element child) :: unionFrame held .lent) =
        (unionFrame · .lent) <$> b.unionChild read d held child := by
    rw [unionChild_eq]
    exact run_arms_step unionFrame UnionArm.pattern d.arms fun arm hmem ↦
      run_unionAction (harms arm hmem).1 (harms arm hmem).2
  have hnone (hempty : d.arms.map armCode = []) (held : Held) (child : Element) :
      b.unionChild read d held child = pure held := by
    rw [unionChild_eq, List.map_eq_nil_iff.mp hempty]
    rfl
  have hlast (held : Held) : (runBody b calls [.give (.ok (.method (.name "base") "unwrap_or"
      [.path (.member d.type.toText "Unknown")]))]).run (unionFrame held (.element e.close)) =
        pure (.result (.ok (.value (unionValue held))), unionFrame held (.element e.close)) := by
    have hname : (unionFrame held (.element e.close)).lookup "base" = some held.object := rfl
    have hother : (runExpr b calls (.path (.member d.type.toText "Unknown"))).run
        (unionFrame held (.element e.close)) =
          pure (.value .unknownVariant, unionFrame held (.element e.close)) := by
      simp [Code.runExpr_path, Code.pathObject?, Code.Path.member, hunion]
    have hvalue : (runExpr b calls (.method (.name "base") "unwrap_or"
        [.path (.member d.type.toText "Unknown")])).run (unionFrame held (.element e.close)) =
          pure (.value (unionValue held), unionFrame held (.element e.close)) := by
      rw [runExpr_method, StateT.run_bind, run_name hname]
      cases held <;>
        simp [runExprs_one, hother, methodCall?, Object.method?, Held.object, unionValue]
    rw [Code.runBody_last]
    exact Code.run_ok rfl hvalue
  have hbase : (runExpr b calls .none).run [("decoder", .element e)] =
      pure (Held.object none, [("decoder", .element e)]) := Code.run_none rfl
  have hbody : (runBody b calls [.bind (.mutable "base") (some (optionOf (.named d.type.toText)))
        .none, walkOrSkip (d.arms.map armCode),
        .give (.ok (.method (.name "base") "unwrap_or"
          [.path (.member d.type.toText "Unknown")]))]).run [("decoder", .element e)] =
      (fun held ↦ (.result (Object.value <$> .ok (unionValue held)),
        [("decoder", .element e.close)])) <$> e.foldChildren (b.unionChild read d) none := by
    rw [Code.runBody_bind_pure (Code.taken?_mutable ..) hbase]
    refine (congrArg _ (runBody_walkOrSkip unionFrame (fun _ _ ↦ rfl) (fun _ _ _ ↦ rfl)
      (List.cons_ne_nil _ _) hstep hnone none)).trans ?_
    rw [map_bind, map_eq_pure_bind]
    apply bind_congr
    intro held
    rw [hlast]
    rfl
  exact Code.call_of_body hbody

end Unions

/-! ## Lists and maps -/

section Collections

/-- The variables of a decoder that gathers a value. -/
def outFrame (value : Value) (object : Object) : Variables :=
  [("out", .value value), ("decoder", object)]

variable (calls e) in
/-- What is gathered starts out empty and is the result. -/
theorem runBody_gather {σ : Type} {type : List String} {arms : List Arm}
    {valueOf : σ → Value} {step : σ → Element → Reading σ} {start : σ}
    (hempty : Code.library? (std (type ++ ["new"])) [] = some (.value (valueOf start)))
    (hstep : ∀ s child, (fun p ↦ p.2.drop 1) <$>
      (runArms b calls (arms ++ [otherwise]) (.start child.start)).run
        (("tag", .element child) :: outFrame (valueOf s) .lent) =
      (fun s ↦ outFrame (valueOf s) .lent) <$> step s child) :
    (runBody b calls [bindEmpty type, walk arms, .give (.ok (.name "out"))]).run
        [("decoder", .element e)] =
      (fun s ↦ (.result (Object.value <$> .ok (valueOf s)), [("decoder", .element e.close)])) <$>
        e.foldChildren step start := by
  have hnew : (runExpr b calls (.applyPath (std (type ++ ["new"])) [])).run
      [("decoder", .element e)] = pure (.value (valueOf start), [("decoder", .element e)]) := by
    simp [Expr.applyPath, Expr.apply, runExpr_call, applied?, hempty]
  rw [bindEmpty, Code.runBody_bind_pure (Code.taken?_mutable ..) hnew]
  refine (congrArg _ (runBody_walk (fun s ↦ outFrame (valueOf s)) (fun _ _ ↦ rfl)
    (fun _ _ _ ↦ rfl) (List.cons_ne_nil _ _) hstep start)).trans ?_
  rw [map_bind, map_eq_pure_bind]
  apply bind_congr
  intro s
  rw [Code.runBody_last, Code.run_ok rfl (run_name rfl)]
  rfl

/-- The function of a list's decoder reads the items. -/
theorem ListDecoder.run {d : ListDecoder} {function : Code.Fn} (hfunction : .fn function ∈ d.code)
    (hitem : d.item.source.Runs b calls read) :
    function.call b calls [.element e] = answered .value (readList read d e) := by
  obtain rfl : function = _ := by simpa [ListDecoder.code, decoderFn] using hfunction
  have hpush (items : List Value) (child : Element) : (fun p ↦ p.2.drop 2) <$>
      (runBody b calls [.run (.method (.name "out") "push" [inBox d.item Source.ofElement])]).run
        (("s", .start child.start) :: ("tag", .element child) :: outFrame (.list items) .lent) =
      (fun items ↦ outFrame (.list items) .lent) <$>
        ((fun item ↦ items ++ [item]) <$> read d.item.source child) := by
    have hread : (Code.runExprs b calls [inBox d.item Source.ofElement]).run
        ([("s", .start child.start)] ++ ("tag", .element child) ::
          outFrame (.list items) .lent) = _ :=
      (runExprs_one _).trans (congrArg _ (run_inBox (lentBy?_ofElement d.item.source)
        (run_element hitem (by simp))))
    rw [leaving, Functor.map_map, Functor.map_map] at hread
    refine (congrArg _ (runBody_method rfl hread (methodCall?_push rfl) fun _ ↦ rfl)).trans ?_
    simp [outFrame, Value.items]
  have hempty : Code.library? (std (["vec", "Vec"] ++ ["new"])) [] = some (.value (.list [])) := rfl
  have hbody := runBody_gather calls e hempty fun items child ↦
      run_arm_step (fun items ↦ outFrame (.list items)) d.pattern (hpush items child)
  refine (Code.call_of_body hbody).trans (congrArg _ ?_)
  simp [readList]
  rfl

/-- The function of a map's decoder reads the entries. -/
theorem MapDecoder.run {d : MapDecoder} {function : Code.Fn} (hfunction : .fn function ∈ d.code)
    (hname : function.name = d.ident.toText) (hne : d.ident.toText ≠ d.entryIdent.toText)
    (hentry : EntryRuns b calls read d.entryIdent) :
    function.call b calls [.element e] = answered .value (b.readMap read d e) := by
  have hinsert (entries : List (Datum × Value)) (child : Element) : (fun p ↦ p.2.drop 2) <$>
      (runBody b calls [bindEntry d.entryIdent,
        .run (.method (.name "out") "insert" [.name "key", .name "value"])]).run
          (("s", .start child.start) :: ("tag", .element child) :: outFrame (.map entries) .lent) =
      (fun entries ↦ outFrame (.map entries) .lent) <$>
        ((fun pair ↦ Value.putEntry entries pair.1 pair.2) <$>
          b.readEntryBy read d.entryIdent child) := by
    have htag : "tag" ∉ [("s", Object.start child.start)].map Prod.fst := by simp
    refine (congrArg _ (runBody_bindEntry hentry htag)).trans ?_
    rw [map_bind, Functor.map_map, map_eq_pure_bind]
    apply bind_congr
    rintro ⟨key, value⟩
    rw [runBody_method_pure rfl (run_keyAndValue rfl rfl) (methodCall?_insert rfl key value) rfl]
    simp [outFrame, Value.entries]
  have hempty : Code.library? (std (["collections", "HashMap"] ++ ["new"])) [] =
      some (.value (.map [])) := rfl
  have hbody := runBody_gather calls e hempty fun entries child ↦
      run_arm_step (fun entries ↦ outFrame (.map entries)) d.entryPattern (hinsert entries child)
  simp only [MapDecoder.code, decoderFn, List.mem_cons, Code.Decl.fn.injEq, List.not_mem_nil,
    or_false] at hfunction
  rcases hfunction with rfl | rfl
  · refine (Code.call_of_body hbody).trans (congrArg _ ?_)
    simp [readMap]
    rfl
  · exact absurd hname.symm hne

/-- The variables of a decoder of entries. -/
def entryFrame (parts : EntryParts) (object : Object) : Variables :=
  [("value", .option (parts.2.map .value)),
    ("key", .option (parts.1.map fun key ↦ .value (.datum key))), ("decoder", object)]

/-- The pattern of a part. -/
def MapDecoder.patternOf (d : MapDecoder) : EntryPart → String
  | .key => d.keyPattern
  | .value => d.valuePattern

/-- What the arm for a part is written as. -/
def MapDecoder.partCode (d : MapDecoder) : EntryPart → List Stmt
  | .key => [assign "key" (.some (inBox d.key TextSource.ofElement))]
  | .value => [assign "value" (.some (inBox d.value Source.ofElement))]

/-- What a child does to the part that it is. -/
def MapDecoder.changePart (b : Bindings) (read : Reader) (d : MapDecoder) (parts : EntryParts)
    (child : Element) : EntryPart → Reading EntryParts
  | .key => do
    let text ← child.text
    let key ← Reading.give (b.datum d.key.source text)
    return (some key, parts.2)
  | .value => do return (parts.1, some (← read d.value.source child))

theorem entryChild_eq (d : MapDecoder) (parts : EntryParts) (child : Element) :
    b.entryChild read d parts child =
      (armFor d.patternOf [.key, .value] child.start).elim (pure parts)
        (d.changePart b read parts child) := by
  have hpart : d.part? child.start = armFor d.patternOf [.key, .value] child.start := by
    simp only [MapDecoder.part?, armFor, MapDecoder.patternOf, List.find?_cons, List.find?_nil]
    cases child.start.matchesPattern d.keyPattern <;>
      cases child.start.matchesPattern d.valuePattern <;> rfl
  rw [entryChild, hpart]
  rcases armFor d.patternOf [.key, .value] child.start with _ | _ | _ <;> rfl

theorem run_part {d : MapDecoder} {parts : EntryParts} (part : EntryPart)
    (hkey : d.key.source.Converts b calls) (hvalue : d.value.source.Runs b calls read) :
    (fun p ↦ p.2.drop 2) <$> (runBody b calls (d.partCode part)).run
        (("s", .start child.start) :: ("tag", .element child) :: entryFrame parts .lent) =
      (entryFrame · .lent) <$> d.changePart b read parts child part := by
  have htag : "tag" ∉ [("s", Object.start child.start)].map Prod.fst := by simp
  cases part with
  | key =>
    have hlent : Code.lentBy? d.key.source.ofElement = none := lentBy?_ofElement (.text _)
    have htext : child.text >>= textObject b d.key.source =
        (fun datum ↦ .value (.datum datum)) <$>
          (child.text >>= fun text ↦ Reading.give (b.datum d.key.source text)) :=
      (map_bind ..).symm
    have hread : (runExpr b calls (.some (inBox d.key TextSource.ofElement))).run
        ([("s", .start child.start)] ++ ("tag", .element child) :: entryFrame parts .lent) = _ :=
      Code.run_some_read (lentBy?_inBox hlent)
        (run_inBox hlent ((run_ofElement hkey htag).trans (congrArg _ htext)))
    refine (congrArg _ (runBody_assign hread fun key ↦ rfl)).trans ?_
    simp [MapDecoder.changePart, entryFrame]
  | value =>
    have hlent : Code.lentBy? d.value.source.ofElement = none := lentBy?_ofElement _
    have hread : (runExpr b calls (.some (inBox d.value Source.ofElement))).run
        ([("s", .start child.start)] ++ ("tag", .element child) :: entryFrame parts .lent) = _ :=
      Code.run_some_read (lentBy?_inBox hlent) (run_inBox hlent (run_element hvalue htag))
    refine (congrArg _ (runBody_assign hread fun value ↦ rfl)).trans ?_
    simp [MapDecoder.changePart, entryFrame]

theorem run_incomplete (missing : String)
    (h : vars.lookup "decoder" = some (.element e.close)) :
    (runExpr b calls (MapDecoder.incomplete missing)).run vars =
      pure (.result (.error (.incompleteEntry e.name missing)), vars) := by
  have hname : (runExpr b calls (.method (.method (.method (.name "decoder") "start_el" []) "name"
      []) "to_string" [])).run vars = pure (.text e.name, vars) := by
    simp [runExpr_method, run_name h, methodCall?, Code.elementMethod?, Object.method?,
      Object.text, Object.string?, Object.value?, Value.string?, Element.name, Element.close]
  have hrecord : (runExpr b calls (.record (wire ["DecodeError", "IncompleteEntry"])
      [.mk "entry" (.method (.method (.method (.name "decoder") "start_el" []) "name" [])
        "to_string" []), .mk "missing" (.text missing)])).run vars =
          pure (.failure (.incompleteEntry e.name missing), vars) := by
    rw [Code.runExpr_record]
    simp [Code.runFields_cons, hname, Code.record?, Object.text, Object.string?, Object.value?,
      Value.string?]
  have hcall : applied? b calls (.path (.single "Err"))
      [.failure (.incompleteEntry e.name missing)] =
        some (pure (.result (.error (.incompleteEntry e.name missing)))) := by
    simp [applied?, Code.library?, Code.Path.single, std, Code.Path.global]
  exact (Code.run_call_pure rfl hrecord hcall).trans (Code.leaving_pure ..)

/-- The parts that were found make up an entry, or the error names the part that is missing. -/
theorem run_entryOfParts (d : MapDecoder) (parts : EntryParts) :
    (runExpr b calls d.entryOfParts).run (entryFrame parts (.element e.close)) =
      pure (.result (pairObject <$> entryOf d e parts), entryFrame parts (.element e.close)) := by
  have hdecoder : (entryFrame parts (.element e.close)).lookup "decoder" =
    some (.element e.close) := rfl
  have hparts : (runExpr b calls (.tuple [.name "key", .name "value"])).run
      (entryFrame parts (.element e.close)) =
        pure (.tuple [.option (parts.1.map fun key ↦ .value (.datum key)),
          .option (parts.2.map .value)], entryFrame parts (.element e.close)) := by
    rw [Code.runExpr_tuple, StateT.run_bind, run_keyAndValue rfl rfl]
    rfl
  rw [MapDecoder.entryOfParts, Code.run_cases hparts]
  rcases parts with ⟨_ | key, _ | value⟩
  · simp [runArms_free, run_incomplete _ hdecoder, entryOf]
  · simp [runArms_free, run_incomplete _ hdecoder, entryOf]
  · simp [runArms_free, run_incomplete _ hdecoder, entryOf]
  · have hpair (vars : Variables) : (runExpr b calls (.tuple [.name "key", .name "value"])).run
        (("key", .value (.datum key)) :: ("value", .value value) :: vars) =
          pure (pairObject (key, value),
            ("key", .value (.datum key)) :: ("value", .value value) :: vars) := by
      rw [Code.runExpr_tuple, StateT.run_bind, run_keyAndValue rfl rfl]
      simp [pairObject]
    simp [runArms_free, Code.taken?_name, entryOf, Code.run_ok rfl (hpair _)]

/-- The function of a map's decoder of entries reads an entry. -/
theorem MapDecoder.run_entry {d : MapDecoder} {function : Code.Fn}
    (hfunction : .fn function ∈ d.code) (hname : function.name = d.entryIdent.toText)
    (hne : d.ident.toText ≠ d.entryIdent.toText)
    (hkey : d.key.source.Converts b calls) (hvalue : d.value.source.Runs b calls read) :
    function.call b calls [.element e] = answered pairObject (b.readEntry read d e) := by
  have hstep (parts : EntryParts) (child : Element) : (fun p ↦ p.2.drop 1) <$>
      (runArms b calls ([EntryPart.key, .value].map (fun part ↦
          matchingArm (d.patternOf part) (d.partCode part)) ++ [otherwise])
        (.start child.start)).run (("tag", .element child) :: entryFrame parts .lent) =
      (entryFrame · .lent) <$> b.entryChild read d parts child := by
    rw [entryChild_eq]
    exact run_arms_step entryFrame d.patternOf _ fun part _ ↦ run_part part hkey hvalue
  have hbody : (runBody b calls [.bind (.mutable "key") none .none,
      .bind (.mutable "value") none .none,
      walk ([EntryPart.key, .value].map fun part ↦
        matchingArm (d.patternOf part) (d.partCode part)),
      .give d.entryOfParts]).run [("decoder", .element e)] =
        (fun parts ↦ (.result (pairObject <$> entryOf d e parts), [("decoder", .element e.close)]))
          <$> e.foldChildren (b.entryChild read d) (none, none) := by
    rw [Code.runBody_bind_pure (Code.taken?_mutable ..) (Code.run_none rfl),
      Code.runBody_bind_pure (Code.taken?_mutable ..) (Code.run_none rfl)]
    refine (congrArg _ (congrArg _ (runBody_walk entryFrame (fun _ _ ↦ rfl) (fun _ _ _ ↦ rfl)
      (List.cons_ne_nil _ _) hstep (none, none)))).trans ?_
    rw [map_bind, map_bind, map_eq_pure_bind]
    apply bind_congr
    intro parts
    rw [Code.runBody_last, run_entryOfParts]
    rfl
  simp only [MapDecoder.code, decoderFn, List.mem_cons, Code.Decl.fn.injEq, List.not_mem_nil,
    or_false] at hfunction
  rcases hfunction with rfl | rfl
  · exact absurd hname hne
  · exact Code.call_of_body hbody

end Collections

end Bindings

end WireShapes
