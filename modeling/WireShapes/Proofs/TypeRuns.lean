import WireShapes.Proofs.DecoderRuns

/-!
# Methods of types as they are written

Running the methods of a builder as they are written changes the members that the builder has set,
and builds the structure.  Running the conversion of an enumeration gives the value of a text.
-/

namespace WireShapes

open Wire (Reading DecodeError)
open Code (leaving Calls Object Variables Expr Stmt Fn runExpr runBody run_name)

namespace Bindings

variable {b : Bindings} {calls : Calls} {decl : StructDecl} {field : Field} {builder : Builder}
  {vars : Variables}

/-! ## Fields -/

theorem fieldNamed?_name (hnodup : (decl.fields.map Field.name).Nodup)
    (hfield : field ∈ decl.fields) : decl.fieldNamed? field.name = some field :=
  (Table.forall_find?_key_iff (.of_map _ hnodup)).mpr hnodup field hfield

theorem run_ofSelf (hnamed : decl.fieldNamed? field.name = some field)
    (h : vars.lookup "self" = some (.builder decl builder)) :
    (runExpr b calls field.ofSelf).run vars =
      pure (.option ((builder.get? field.member).map .value), vars) := by
  rw [Field.ofSelf, Expr.self, Code.runExpr_field, StateT.run_bind, run_name h]
  simp [hnamed]

theorem run_setField (hnamed : decl.fieldNamed? field.name = some field) {held : Option Value}
    {object : Object} (hobject : object.member? = some held) (rest : Variables) :
    (Code.Running.put (.field "self" field.name) object).run
        (("self", .builder decl builder) :: rest) =
      pure ((), ("self", .builder decl (builder.set field.member held)) :: rest) := by
  simp [Code.Running.put, Code.Location.put?, hnamed, hobject, Variables.set?]

/-- A member of a builder is changed, and the builder is handed on. -/
theorem call_builderMethod {function : Fn} {name : String} {docs : List Code.DocLine}
    {parameters : List Code.Parameter} {change : Expr}
    (hfunction : Field.builderMethod name docs parameters change = .fn function)
    {changed : Builder} {object : Object} {objects : List Object} {after : Variables}
    (hchange : (runExpr b calls change).run
      (("self", .builder decl builder) :: (parameters.map Code.Parameter.variable).zip objects) =
        pure (object, ("self", .builder decl changed) :: after)) :
    function.call b calls (.builder decl builder :: objects) = pure (.builder decl changed) := by
  obtain rfl := Code.Part.fn.inj hfunction
  have hbody : (runBody b calls [.run change, .give .self]).run
      (("self", .builder decl builder) :: (parameters.map Code.Parameter.variable).zip objects) =
        pure (.builder decl changed, ("self", .builder decl changed) :: after) := by
    rw [Code.runBody_run, hchange, pure_bind, Code.runBody_last]
    exact run_name List.lookup_cons_self
  exact Code.call_of_pure hbody

theorem builderMethod_name {function : Fn} {name : String} {docs : List Code.DocLine}
    {parameters : List Code.Parameter} {change : Expr}
    (hfunction : Field.builderMethod name docs parameters change = .fn function) :
    function.name = name := by
  obtain rfl := Code.Part.fn.inj hfunction
  rfl

/-- The setter that takes an option sets the member. -/
theorem exists_setter (b : Bindings) (calls : Calls) (field : Field) :
    ∃ function, .fn function ∈ field.methods ∧ function.name = field.setter.toText ∧
      ∀ decl builder held object, decl.fieldNamed? field.name = some field →
        object.member? = some held → function.call b calls [.builder decl builder, object] =
          pure (.builder decl (builder.set field.member held)) := by
  obtain ⟨function, hfunction⟩ : ∃ function, Field.builderMethod field.setter.toText []
    [.typed false "value" (optionOf field.type.tree)] (.assign field.ofSelf (.name "value")) =
      .fn function := ⟨_, rfl⟩
  refine ⟨function, ?_, builderMethod_name hfunction,
    fun decl builder held object hnamed hobject ↦ ?_⟩
  · simp [Field.methods, ← hfunction]
  · have hplace : Code.locationOf? field.ofSelf = some (.field "self" field.name) := rfl
    have hvalue : List.lookup "value" [("self", .builder decl builder), ("value", object)] =
      some object := rfl
    have hassign : (runExpr b calls (.assign field.ofSelf (.name "value"))).run
        [("self", .builder decl builder), ("value", object)] = pure (.unit,
          [("self", .builder decl (builder.set field.member held)), ("value", object)]) := by
      rw [Code.runExpr_assign, StateT.run_bind, run_name hvalue]
      simp [hplace, run_setField hnamed hobject]
    exact call_builderMethod hfunction hassign

/-- What is added goes into the collection of the field, which starts out as its default. -/
theorem run_addTo {method : String} {arguments : List Expr} {objects : List Object}
    {changed : Value} {rest : Variables} (hnamed : decl.fieldNamed? field.name = some field)
    (harguments : (Code.runExprs b calls arguments).run (("self", .builder decl builder) :: rest) =
      pure (objects, ("self", .builder decl builder) :: rest))
    (hcall : Code.methodCall? calls (gathered (builder.get? field.member)) method objects =
      some (pure (.unit, some (.value changed)))) :
    (runExpr b calls (field.addTo method arguments)).run (("self", .builder decl builder) :: rest) =
      pure (.unit, ("self", .builder decl (builder.set field.member (some changed))) :: rest) := by
  have hplace : Code.locationOf? (.method field.ofSelf "get_or_insert_with" [defaultValue]) =
    some (.held (.field "self" field.name)) := rfl
  have hheld : (runExpr b calls (.method field.ofSelf "get_or_insert_with" [defaultValue])).run
      (("self", .builder decl builder) :: rest) =
        pure (gathered (builder.get? field.member), ("self", .builder decl builder) :: rest) := by
    have hblank : (runExpr b calls defaultValue).run (("self", .builder decl builder) :: rest) =
        pure (.blank, ("self", .builder decl builder) :: rest) := by
      simp [defaultValue, std, Code.Path.global, Code.runExpr_path, Code.pathObject?]
    rw [Code.runExpr_method, StateT.run_bind, run_ofSelf hnamed List.lookup_cons_self]
    simp [Code.runExprs_one, hblank, Code.methodCall?, Object.method?, gathered]
  have hput : (Code.Running.put (.held (.field "self" field.name)) (.value changed)).run
      (("self", .builder decl builder) :: rest) =
        pure ((), ("self", .builder decl (builder.set field.member (some changed))) :: rest) :=
    run_setField hnamed rfl rest
  rw [Field.addTo, Code.runExpr_method, StateT.run_bind, hheld]
  simp [harguments, hcall, hplace, Code.Running.update, hput]

/-- The method that adds an item to a list does so. -/
theorem exists_push (b : Bindings) (calls : Calls) {method : Code.Ident} {item : TypeExpr}
    (hadder : field.adder = some (.push method item)) :
    ∃ function, .fn function ∈ field.methods ∧ function.name = method.toText ∧
      ∀ decl builder held, decl.fieldNamed? field.name = some field →
        function.call b calls [.builder decl builder, .value held] =
          pure (.builder decl (builder.push field.member held)) := by
  obtain ⟨function, hfunction⟩ : ∃ function, field.adderMethod (.push method item) = .fn function :=
    ⟨_, rfl⟩
  refine ⟨function, ?_, builderMethod_name hfunction, fun decl builder held hnamed ↦ ?_⟩
  · simp [Field.methods, hadder, hfunction]
  · exact call_builderMethod hfunction (run_addTo hnamed (Code.runExprs_name rfl)
      (methodCall?_push (gathered_items? _) held))

/-- The method that sets the value of a key in a map does so. -/
theorem exists_insert (b : Bindings) (calls : Calls) {method : Code.Ident}
    {keyType valueType : TypeExpr}
    (hadder : field.adder = some (.insert method keyType valueType)) :
    ∃ function, .fn function ∈ field.methods ∧ function.name = method.toText ∧
      ∀ decl builder key held, decl.fieldNamed? field.name = some field →
        function.call b calls [.builder decl builder, .value (.datum key), .value held] =
          pure (.builder decl (builder.insert field.member key held)) := by
  obtain ⟨function, hfunction⟩ :
    ∃ function, field.adderMethod (.insert method keyType valueType) = .fn function := ⟨_, rfl⟩
  refine ⟨function, ?_, builderMethod_name hfunction, fun decl builder key held hnamed ↦ ?_⟩
  · simp [Field.methods, hadder, hfunction]
  · exact call_builderMethod hfunction (run_addTo hnamed (run_keyAndValue rfl rfl)
      (methodCall?_insert (gathered_entries? _) key held))

/-! ## Building -/

/-- What a field of the structure is set to, if nothing required is missing. -/
def Field.object (builder : Builder) (field : Field) : Object :=
  if field.required then gathered (builder.get? field.member)
  else .option ((builder.get? field.member).map .value)

/-- A required member, or the error that names it if it was never set. -/
theorem run_required (shape : String) (hnamed : decl.fieldNamed? field.name = some field)
    (h : vars.lookup "self" = some (.builder decl builder)) :
    (runExpr b calls (.attempt (.method field.ofSelf "ok_or"
        [.record (wire ["BuildError", "MissingMember"])
          [.mk "shape" (.text shape), .mk "member" (.text field.member)]]))).run vars =
      (builder.get? field.member).elim (Reading.fail (.missingMember shape field.member))
        fun held ↦ pure (.value held, vars) := by
  have herror : (runExpr b calls (.record (wire ["BuildError", "MissingMember"])
      [.mk "shape" (.text shape), .mk "member" (.text field.member)])).run vars =
        pure (.failure (.missingMember shape field.member), vars) := by
    simp [Code.runExpr_record, Code.runFields_cons, Code.record?, wire, Code.Path.global,
      Object.text, Object.string?, Object.value?, Value.string?]
  have hcall : (runExpr b calls (.method field.ofSelf "ok_or"
      [.record (wire ["BuildError", "MissingMember"])
        [.mk "shape" (.text shape), .mk "member" (.text field.member)]])).run vars =
          leaving vars ((fun answer ↦ .result answer) <$> pure ((builder.get? field.member).elim
            (Except.error (.missingMember shape field.member)) fun held ↦ .ok (.value held))) := by
    rw [Code.runExpr_method, StateT.run_bind, run_ofSelf hnamed h]
    cases builder.get? field.member <;>
      simp [Code.runExprs_one, herror, Code.methodCall?, Object.method?, Code.leaving]
  rw [Code.run_attempt hcall, pure_bind]
  cases builder.get? field.member <;> rfl

/-- A field of what is built, if it does not lack a required member. -/
theorem run_builtField (shape : String) (hnamed : decl.fieldNamed? field.name = some field)
    (h : vars.lookup "self" = some (.builder decl builder)) (fields : List Code.Field) :
    (Code.runFields b calls (field.built shape :: fields)).run vars =
      if field.required && (builder.get? field.member).isNone then
        Reading.fail (.missingMember shape field.member)
      else (fun p ↦ ((field.name, field.object builder) :: p.1, p.2)) <$>
        (Code.runFields b calls fields).run vars := by
  rw [Field.built, Code.runFields_cons]
  simp only [StateT.run_bind, ← map_eq_pure_bind]
  cases hrequired : field.required with
  | false => simp [run_ofSelf hnamed h, Field.object, hrequired]
  | true =>
    rw [if_pos rfl, run_required shape hnamed h]
    cases hheld : builder.get? field.member with
    | none => rfl
    | some held => simp [Field.object, hrequired, hheld, gathered]

/-- The fields of what is built, as long as nothing required is missing. -/
theorem run_built {shape : String} {fields : List Field}
    (hnamed : ∀ field ∈ fields, decl.fieldNamed? field.name = some field)
    (h : vars.lookup "self" = some (.builder decl builder)) :
    (Code.runFields b calls (fields.map (Field.built shape))).run vars =
      (fun _ ↦ (fields.map fun field ↦ (field.name, field.object builder), vars)) <$>
        Reading.give (builder.buildFields shape fields) := by
  induction fields with
  | nil => rfl
  | cons field rest ih =>
    have hrest := ih fun other hmem ↦ hnamed other (List.mem_cons_of_mem _ hmem)
    rw [List.map_cons, run_builtField shape (hnamed field List.mem_cons_self) h, hrest,
      Builder.buildFields]
    cases hheld : builder.get? field.member with
    | some held => cases builder.buildFields shape rest <;> simp [Reading.map_give]
    | none =>
      cases field.required <;> cases builder.buildFields shape rest <;>
        simp [Reading.map_give, Reading.fail]

/-- The members that were set are those of the fields that were built. -/
theorem members_built {shape : String} {fields : List Field} {members : List (String × Value)}
    (h : builder.buildFields shape fields = .ok members) :
    (fields.map fun field ↦ (field.name, field.object builder)).mapM (fun entry ↦ entry.2.member?) =
        some (fields.map fun field ↦ builder.get? field.member) ∧
      (fields.zip (fields.map fun field ↦ builder.get? field.member)).filterMap
        (fun entry ↦ entry.2.map (entry.1.member, ·)) = members := by
  induction fields generalizing members with
  | nil =>
    obtain rfl := Except.ok.inj h
    exact ⟨rfl, rfl⟩
  | cons field rest ih =>
    rw [Builder.buildFields] at h
    cases hheld : builder.get? field.member with
    | some held =>
      rw [hheld] at h
      obtain ⟨others, hothers, rfl⟩ := Failing.map_eq_ok.mp h
      obtain ⟨hvalues, rfl⟩ := ih hothers
      have hfield : (field.object builder).member? = some (some held) := by
        unfold Field.object
        split <;> simp [hheld, gathered, Object.member?]
      simp only [List.map_cons, List.mapM_cons, hfield, hvalues, hheld, List.zip_cons_cons]
      exact ⟨rfl, rfl⟩
    | none =>
      rw [hheld] at h
      have hoptional : field.required = false := by
        by_contra hrequired
        simp [Bool.not_eq_false] at hrequired
        simp [hrequired] at h
      simp only [hoptional, Bool.false_eq_true, if_false] at h
      obtain ⟨hvalues, rfl⟩ := ih h
      have hfield : (field.object builder).member? = some none := by
        simp [Field.object, hoptional, hheld, Object.member?]
      simp only [List.map_cons, List.mapM_cons, hfield, hvalues, hheld, List.zip_cons_cons]
      exact ⟨rfl, rfl⟩

/-- The method that builds the structure does so. -/
theorem call_finish (calls : Calls) (hnodup : (decl.fields.map Field.name).Nodup)
    (hnamed : b.structNamed? decl.ident.toText = some decl) :
    ∃ function, decl.finish = .fn function ∧ function.name = "build" ∧ ∀ builder,
      function.call b calls [.builder decl builder] =
        pure (.result (.value <$> builder.build decl)) := by
  refine ⟨_, rfl, rfl, fun builder ↦ ?_⟩
  have hfields : (Code.runFields b calls (decl.fields.map (Field.built decl.shape))).run
      [("self", .builder decl builder)] = _ :=
    run_built (fun field hmem ↦ fieldNamed?_name hnodup hmem) List.lookup_cons_self
  have hrecord : (runExpr b calls (.record (.single decl.ident.toText)
      (decl.fields.map (Field.built decl.shape)))).run [("self", .builder decl builder)] =
        leaving [("self", .builder decl builder)]
          (Object.value <$> Reading.give (builder.build decl)) := by
    rw [Code.runExpr_record, StateT.run_bind, hfields, bind_map_left, Builder.build]
    cases hbuilt : builder.buildFields decl.shape decl.fields with
    | error error => rfl
    | ok members =>
      obtain ⟨hvalues, hmembers⟩ := members_built hbuilt
      have hnames : decl.fields.map (Prod.fst ∘ fun field ↦ (field.name, field.object builder)) =
        decl.fields.map Field.name := rfl
      have hbuilds : Code.record? b (.single decl.ident.toText)
          (decl.fields.map fun field ↦ (field.name, field.object builder)) =
            some (.value (.struct members)) := by
        simp [Code.record?, Code.Path.single, wire, Code.Path.global, Code.structure?, hnamed,
          hvalues, hmembers, hnames]
      rw [hbuilds]
      rfl
  have hbody : (runBody b calls [.give (.ok (.record (.single decl.ident.toText)
      (decl.fields.map (Field.built decl.shape))))]).run [("self", .builder decl builder)] = _ :=
    (congrArg (StateT.run · _) (Code.runBody_last _)).trans (Code.run_ok_read rfl hrecord)
  rw [leaving, Functor.map_map] at hbody
  exact (Code.call_of_body hbody).trans (congrArg _ (bind_pure _))

/-- The function that starts a builder gives an empty one. -/
theorem call_start (calls : Calls) (hnamed : b.builderNamed? decl.builder.toText = some decl) :
    ∃ function, decl.start = .fn function ∧ function.name = "builder" ∧
      function.call b calls [] = pure (.builder decl .empty) := by
  have hdefault : Code.ofTrait? b decl.builderType (std ["default", "Default"]) "default" [] =
    some (.builder decl .empty) := Code.ofTrait?_default rfl hnamed
  have hempty : (runExpr b calls (.apply (.ofTrait decl.builderType (std ["default", "Default"])
      "default") [])).run [] = pure (.builder decl .empty, []) := by
    simp [Expr.apply, Code.runExpr_call, Code.applied?, hdefault]
  rw [← Code.runBody_last] at hempty
  exact ⟨_, rfl, rfl, Code.call_of_pure hempty⟩

/-! ## Conversions -/

namespace EnumDecl

variable {decl : EnumDecl}

theorem enumerated?_operand (hvariants : (decl.cases.map fun case ↦ case.variant.toText).Nodup)
    {value : Enumerated} (hdeclared : ∀ case, value = .known case → case ∈ decl.cases) :
    decl.enumerated? (decl.operand value) = some value := by
  cases value with
  | unknown text => simp [operand, enumerated?]
  | known case =>
    have hpaths : (decl.cases.map decl.variantPath).Nodup :=
      (List.nodup_map_iff_inj_on (.of_map _ hvariants)).mpr fun _ hcase _ hother hpath ↦
        eq_of_variantPath hvariants hcase hother hpath
    have hfound := (Table.forall_find?_key_iff (.of_map _ hvariants)).mpr hpaths case
      (hdeclared case rfl)
    simp only [operand, enumerated?, hfound, Option.map_some]

/-- The conversion gives the value of a text. -/
theorem convert?_from (hvariants : (decl.cases.map fun case ↦ case.variant.toText).Nodup)
    (text : String) :
    decl.convert? "from" [.text text] = some (.value (.datum (.enum (decl.ofText text)))) := by
  have hvalue := enumerated?_operand hvariants fun _ (h : decl.ofText text = _) ↦
    mem_cases_of_ofText h
  simp [convert?, Object.text, Object.string?, Object.value?, Value.string?, run_fromText, hvalue]

end EnumDecl

end Bindings

end WireShapes
