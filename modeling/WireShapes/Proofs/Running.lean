import WireShapes.Proofs.Execution

/-!
# How code runs

What names, calls and statements do, one by one.  What a phrase does is a reading with the variables
that it leaves (`Code.leaving`), and what a function gives that does a reading is the answer of it
(`Code.answered`).
-/

namespace WireShapes

open Wire (Reading DecodeError)
open Bindings (std)

namespace Code

/-! ## Variables -/

section Running

variable {α β : Type} {vars after bound before : Variables} {name : String} {object : Object}

@[simp]
theorem locationOf?_name (name : String) : locationOf? (.name name) = some (.variable name) := rfl

@[simp]
theorem known_some (name : String) (a : α) : Running.known name (some a) = pure a := rfl

@[simp]
theorem run_within (bound : Variables) (body : Running α) (vars : Variables) :
    (Running.within bound body).run vars =
      (fun p ↦ (p.1, p.2.drop bound.length)) <$> body.run (bound ++ vars) := by
  simp only [Running.within, StateT.run_bind, StateT.run_modify, pure_bind, StateT.run_pure,
    map_eq_pure_bind]

@[simp]
theorem update_none (location : Option Location) : Running.update location none = pure () := by
  cases location <;> rfl

theorem run_put (h : vars.set? name object = some after) :
    (Running.put (.variable name) object).run vars = pure ((), after) := by
  simp [Running.put, Location.put?, h]

theorem set?_append (h : name ∉ before.map Prod.fst) (held : Object) :
    Variables.set? name object (before ++ (name, held) :: vars) =
      some (before ++ (name, object) :: vars) := by
  induction before with
  | nil => simp [Variables.set?]
  | cons entry rest ih =>
    obtain ⟨hne, hrest⟩ : name ≠ entry.1 ∧ name ∉ rest.map Prod.fst := by simpa using h
    simp [Variables.set?, Ne.symm hne, ih hrest]

theorem lookup_append (h : name ∉ before.map Prod.fst) :
    List.lookup name (before ++ (name, object) :: vars) = some object := by
  induction before with
  | nil => simp
  | cons entry rest ih =>
    obtain ⟨hne, hrest⟩ : name ≠ entry.1 ∧ name ∉ rest.map Prod.fst := by simpa using h
    rw [List.cons_append, List.lookup_cons, beq_false_of_ne hne]
    exact ih hrest

theorem run_put_append (h : name ∉ before.map Prod.fst) (held object : Object) (vars : Variables) :
    (Running.put (.variable name) object).run (before ++ (name, held) :: vars) =
      pure ((), before ++ (name, object) :: vars) :=
  run_put (set?_append h held)

/-- What a reading gives, with the variables after it. -/
def leaving (after : Variables) (reading : Reading Object) : Reading (Object × Variables) :=
  (·, after) <$> reading

@[simp]
theorem leaving_pure (after : Variables) (object : Object) :
    leaving after (pure object) = pure (object, after) := map_pure _ _

@[simp]
theorem leaving_bind {γ : Type} (after : Variables) (reading : Reading Object)
    (next : Object × Variables → Reading γ) :
    leaving after reading >>= next = reading >>= fun object ↦ next (object, after) :=
  bind_map_left _ _ _

theorem leaving_of_bind (after : Variables) (reading : Reading α) (next : α → Reading Object) :
    leaving after (reading >>= next) = reading >>= fun a ↦ leaving after (next a) :=
  map_bind _ _ _

end Running

/-- What a call gives that does a reading. -/
def answered {α : Type} (objectOf : α → Object) (reading : Reading α) : Reading Object :=
  (fun answer ↦ .result (objectOf <$> answer)) <$> reading.caught

/-! ## Phrases -/

section Phrases

variable {α : Type} {b : Bindings} {calls : Calls} {vars after before : Variables} {name : String}
  {object : Object} {child : Element} {value : Expr} {reading : Reading Object} {rest : List Stmt}

@[simp]
theorem run_text (text : String) :
    (runExpr b calls (.text text)).run vars = pure (.text text, vars) := by
  rfl

theorem run_name (h : vars.lookup name = some object) :
    (runExpr b calls (.name name)).run vars = pure (object, vars) := by
  simp [Expr.name, Path.single, runExpr_path, pathObject?, h]

theorem run_none (h : vars.lookup "None" = none) :
    (runExpr b calls .none).run vars = pure (.option none, vars) := by
  simp [Expr.none, Expr.name, Path.single, runExpr_path, pathObject?, h]

theorem runExprs_one (value : Expr) : (runExprs b calls [value]).run vars =
    (fun p ↦ ([p.1], p.2)) <$> (runExpr b calls value).run vars := by
  simp [runExprs_cons]

theorem runExprs_name (h : vars.lookup name = some object) :
    (runExprs b calls [.name name]).run vars = pure ([object], vars) := by
  rw [runExprs_one, run_name h, map_pure]

/-- A call of a method of a variable without arguments. -/
theorem run_method {method : String} {answer : Reading (Object × Option Object)}
    (h : vars.lookup name = some object)
    (hcall : methodCall? calls object method [] = some answer) :
    (runExpr b calls (.method (.name name) method [])).run vars =
      answer >>= fun p ↦
        (fun q ↦ (p.1, q.2)) <$> (Running.update (some (.variable name)) p.2).run vars := by
  simp only [runExpr_method, runExprs_nil, StateT.run_bind, run_name h, pure_bind,
    StateT.run_pure, hcall, known_some, StateT.run_lift, bind_assoc, locationOf?_name,
    map_eq_pure_bind]

/-- A call of something with one argument. -/
theorem run_call_one {function argument : Expr} {isOpen : Bool} {reading : Reading α}
    {objectOf : α → Object} {answer : α → Reading Object} (hlent : lentBy? argument = none)
    (h : (runExpr b calls argument).run vars = leaving after (objectOf <$> reading))
    (hcall : ∀ a, applied? b calls function [objectOf a] = some (answer a)) :
    (runExpr b calls (.call function [argument] isOpen)).run vars =
      leaving after (reading >>= answer) := by
  simp only [runExpr_call, runExprs_one, StateT.run_bind, h, leaving_bind, bind_map_left,
    leaving_of_bind]
  apply bind_congr
  intro a
  simp [hcall, List.filterMap_cons_none hlent, leaving]

/-- A call of something with an argument that is read from nothing. -/
theorem run_call_pure {function argument : Expr} {isOpen : Bool} {answer : Reading Object}
    (hlent : lentBy? argument = none)
    (h : (runExpr b calls argument).run vars = pure (object, after))
    (hcall : applied? b calls function [object] = some answer) :
    (runExpr b calls (.call function [argument] isOpen)).run vars = leaving after answer := by
  simp [runExpr_call, runExprs_one, h, hcall, List.filterMap_cons_none hlent, leaving]

theorem run_some (hlent : lentBy? value = none)
    (h : (runExpr b calls value).run vars = pure (object, after)) :
    (runExpr b calls (.some value)).run vars = pure (.option (some object), after) := by
  have hcall : applied? b calls (.path (.single "Some")) [object] =
      some (pure (.option (some object))) := by
    simp [applied?, library?, Path.single, std, Path.global]
  exact (run_call_pure hlent h hcall).trans (leaving_pure ..)

/-- An option that holds what is read. -/
theorem run_some_read {reading : Reading α} {objectOf : α → Object} (hlent : lentBy? value = none)
    (h : (runExpr b calls value).run vars = leaving after (objectOf <$> reading)) :
    (runExpr b calls (.some value)).run vars =
      leaving after ((fun a ↦ .option (some (objectOf a))) <$> reading) := by
  have hcall (a : α) : applied? b calls (.path (.single "Some")) [objectOf a] =
      some (pure (.option (some (objectOf a)))) := by
    simp [applied?, library?, Path.single, std, Path.global]
  exact (run_call_one hlent h hcall).trans (congrArg _ (map_eq_pure_bind ..).symm)

theorem run_ok_read {reading : Reading α} {objectOf : α → Object} (hlent : lentBy? value = none)
    (h : (runExpr b calls value).run vars = leaving after (objectOf <$> reading)) :
    (runExpr b calls (.ok value)).run vars =
      leaving after ((fun a ↦ .result (objectOf <$> .ok a)) <$> reading) := by
  have hcall (a : α) : applied? b calls (.path (.single "Ok")) [objectOf a] =
      some (pure (.result (objectOf <$> .ok a))) := by
    simp [applied?, library?, Path.single, std, Path.global]
  exact (run_call_one hlent h hcall).trans (congrArg _ (map_eq_pure_bind ..).symm)

theorem run_ok (hlent : lentBy? value = none)
    (h : (runExpr b calls value).run vars = pure (object, after)) :
    (runExpr b calls (.ok value)).run vars = pure (.result (.ok object), after) := by
  have hcall : applied? b calls (.path (.single "Ok")) [object] =
      some (pure (.result (.ok object))) := by
    simp [applied?, library?, Path.single, std, Path.global]
  exact (run_call_pure hlent h hcall).trans (leaving_pure ..)

/-- What is tried gives the answer that it is, or ends with the error. -/
theorem run_attempt {inner : Expr} {reading : Reading α} {answer : α → Except DecodeError Object}
    (h : (runExpr b calls inner).run vars =
      leaving after ((fun a ↦ .result (answer a)) <$> reading)) :
    (runExpr b calls (.attempt inner)).run vars =
      leaving after (reading >>= fun a ↦ Reading.give (answer a)) := by
  simp only [runExpr_attempt, StateT.run_bind, h, leaving_bind, bind_map_left, leaving_of_bind]
  apply bind_congr
  intro a
  cases answer a <;> rfl

/-- What is tried gives what the reading does whose answer it would give. -/
theorem run_attempt_caught {inner : Expr} {reading : Reading α} {objectOf : α → Object}
    {after : Except DecodeError α → Variables}
    (h : (runExpr b calls inner).run vars =
      (fun answer ↦ (.result (objectOf <$> answer), after answer)) <$> reading.caught) :
    (runExpr b calls (.attempt inner)).run vars =
      reading >>= fun a ↦ pure (objectOf a, after (.ok a)) := by
  conv_rhs => rw [← Reading.caught_bind_give reading, bind_assoc]
  simp only [runExpr_attempt, StateT.run_bind, h, bind_map_left]
  apply bind_congr
  rintro (error | a) <;> rfl

theorem run_attempt_answered {inner : Expr} {reading : Reading α} {objectOf : α → Object}
    (h : (runExpr b calls inner).run vars = leaving after (answered objectOf reading)) :
    (runExpr b calls (.attempt inner)).run vars = leaving after (objectOf <$> reading) := by
  rw [leaving, answered, Functor.map_map] at h
  rw [run_attempt_caught h, leaving, Functor.map_map, map_eq_pure_bind]

theorem run_cases {arms : List Arm} (h : (runExpr b calls value).run vars = pure (object, after)) :
    (runExpr b calls (.cases value arms)).run vars = (runArms b calls arms object).run after := by
  rw [runExpr_cases, StateT.run_bind, h, pure_bind]

/-! ### Statements -/

theorem runBody_run :
    (runBody b calls (.run value :: rest)).run vars =
      (runExpr b calls value).run vars >>= fun p ↦ (runBody b calls rest).run p.2 := by
  simp only [runBody_cons_run, StateT.run_bind]

theorem runBody_give (hrest : rest ≠ []) :
    (runBody b calls (.give value :: rest)).run vars =
      (runExpr b calls value).run vars >>= fun p ↦ (runBody b calls rest).run p.2 := by
  have hmore : rest.isEmpty = false := by simpa using hrest
  simp only [runBody_cons_give, StateT.run_bind, hmore, Bool.false_eq_true, if_false]

theorem runBody_last (value : Expr) : runBody b calls [.give value] = runExpr b calls value := by
  simp only [runBody_cons_give, List.isEmpty_nil, if_true, bind_pure]

/-- What a pattern binds is there for the statements after it. -/
theorem runBody_bind {pattern : Pattern} {type : Option Ty} {reading : Reading α}
    {objectOf : α → Object} {bound : α → Variables}
    (hpattern : ∀ a, taken? b pattern (objectOf a) = some (bound a))
    (h : (runExpr b calls value).run vars = leaving after (objectOf <$> reading)) :
    (runBody b calls (.bind pattern type value :: rest)).run vars =
      reading >>= fun a ↦ (fun p ↦ (p.1, p.2.drop (bound a).length)) <$>
        (runBody b calls rest).run (bound a ++ after) := by
  simp only [runBody_cons_bind, StateT.run_bind, h, leaving_bind, bind_map_left, hpattern,
    known_some, StateT.run_pure, pure_bind, run_within]

theorem runBody_bind_pure {pattern : Pattern} {type : Option Ty} {bound : Variables}
    (hpattern : taken? b pattern object = some bound)
    (h : (runExpr b calls value).run vars = pure (object, after)) :
    (runBody b calls (.bind pattern type value :: rest)).run vars =
      (fun p ↦ (p.1, p.2.drop bound.length)) <$> (runBody b calls rest).run (bound ++ after) := by
  simp only [runBody_cons_bind, StateT.run_bind, h, pure_bind, hpattern, known_some,
    StateT.run_pure, run_within]

/-- A function gives what its body does, or the error that its body ends early with. -/
theorem call_of_body {function : Fn} {arguments : List Object} {reading : Reading α} {β : Type}
    {answer : α → Except DecodeError β} {objectOf : β → Object} {after : α → Variables}
    (h : (runBody b calls function.body).run
        ((function.parameters.map Parameter.variable).zip arguments) =
      (fun a ↦ (.result (objectOf <$> answer a), after a)) <$> reading) :
    function.call b calls arguments =
      answered objectOf (reading >>= fun a ↦ Reading.give (answer a)) := by
  have hresult : (runBody b calls function.body).run'
      ((function.parameters.map Parameter.variable).zip arguments) =
        (fun a ↦ .result (objectOf <$> answer a)) <$> reading := by
    rw [StateT.run'_eq, h, Functor.map_map]
  rw [Fn.call, hresult, Reading.caught_map, bind_map_left, answered,
    Reading.caught_bind_give_answer, Functor.map_map, map_eq_pure_bind]
  apply bind_congr
  rintro (error | a) <;> rfl

theorem call_of_pure {function : Fn} {arguments : List Object}
    (h : (runBody b calls function.body).run
      ((function.parameters.map Parameter.variable).zip arguments) = pure (object, after)) :
    function.call b calls arguments = pure object := by
  rw [Fn.call, StateT.run'_eq, h, map_pure]
  rfl

end Phrases

end Code

end WireShapes
