import WireShapes.Proofs.Definitions
import WireShapes.Proofs.Enumerations
import WireShapes.Proofs.ReadingLaws

/-!
# Running generated code

What the functions do that decoders are written as.  Statements run one after another, with
variables in nested scopes, and read on in the document; what functions do that are called is a
parameter (`Code.Calls`).  Types and their variants and fields are found in the declarations by the
names that are printed.  What has no meaning here fails as a call of something undeclared does.
-/

namespace WireShapes

open Wire (Element Reading DecodeError StartTag)
open Scalar (Kind)
open Bindings (StructDecl UnionDecl EnumDecl UnionCase std wire kindType)

/-! ## Declared types by their names -/

namespace Bindings

def Field.isNamed (name : String) (field : Field) : Bool := field.name = name

def StructDecl.fieldNamed? (decl : StructDecl) (name : String) : Option Field :=
  decl.fields.find? (Field.isNamed name)

def UnionDecl.caseNamed? (decl : UnionDecl) (name : String) : Option UnionCase :=
  decl.cases.find? fun case ↦ case.variant.toText = name

/-- The declaration of the type, or of the builder, of a name. -/
def typeNamed? (b : Bindings) (name : String) : Option TypeDecl :=
  b.types.find? fun made ↦ name ∈ made.typeIdents.map Code.Ident.toText

def structNamed? (b : Bindings) (name : String) : Option StructDecl :=
  match b.typeNamed? name with
  | some (.struct decl) => if decl.ident.toText = name then some decl else none
  | _ => none

def builderNamed? (b : Bindings) (name : String) : Option StructDecl :=
  match b.typeNamed? name with
  | some (.struct decl) => if decl.builder.toText = name then some decl else none
  | _ => none

def unionNamed? (b : Bindings) (name : String) : Option UnionDecl :=
  match b.typeNamed? name with
  | some (.union decl) => some decl
  | _ => none

def enumNamed? (b : Bindings) (name : String) : Option EnumDecl :=
  match b.typeNamed? name with
  | some (.enum decl) => some decl
  | _ => none

end Bindings

namespace Code

/-! ## Objects -/

/-- What an expression stands for while code runs.  Boxes and references do not show. -/
inductive Object
  | value (value : Value)
  /-- The default of a type that does not show. -/
  | blank
  | unit
  | flag (value : Bool)
  | element (e : Element)
  /-- An element that something else reads. -/
  | lent
  | start (tag : StartTag)
  | builder (decl : StructDecl) (members : Builder)
  | failure (error : DecodeError)
  | option (held : Option Object)
  | result (answer : Except DecodeError Object)
  | tuple (items : List Object)

def Object.text (text : String) : Object := .value (.datum (.scalar (.string text)))

def Object.value? : Object → Option Value
  | .value held => some held
  | _ => none

def Object.string? (object : Object) : Option String :=
  object.value?.bind Value.string?

/-- The value of a member, which an option may lack. -/
def Object.member? : Object → Option (Option Value)
  | .value held => some (some held)
  | .option none => some none
  | .option (some (.value held)) => some (some held)
  | _ => none

/-- The items of a list, of which a default has none. -/
def Object.items? : Object → Option (List Value)
  | .value held => some held.items
  | .blank => some []
  | _ => none

/-- The entries of a map, of which a default has none. -/
def Object.entries? : Object → Option (List (Datum × Value))
  | .value held => some held.entries
  | .blank => some []
  | _ => none

/-- What a method of the library gives, and its object afterwards if that changes. -/
def Object.method? (self : Object) (arguments : List Object) :
    String → Option (Object × Option Object)
  | "as_str" | "to_owned" | "to_string" => self.string?.map fun text ↦ (.text text, none)
  | "name" =>
    match self with
    | .start tag => some (.text tag.name.toText, none)
    | _ => none
  | "matches" =>
    match self, arguments with
    | .start tag, [pattern] =>
      pattern.string?.map fun pattern ↦ (.flag (tag.matchesPattern pattern), none)
    | _, _ => none
  | "attr" =>
    match self, arguments with
    | .start tag, [pattern] =>
      pattern.string?.map fun pattern ↦ (.option ((tag.get? pattern).map .text), none)
    | _, _ => none
  | "take" =>
    match self with
    | .option held => some (.option held, some (.option none))
    | _ => none
  | "unwrap_or" | "get_or_insert_with" =>
    match self, arguments with
    | .option held, [other] => some (held.getD other, none)
    | _, _ => none
  | "ok_or" =>
    match self, arguments with
    | .option (some object), [_] => some (.result (.ok object), none)
    | .option none, [.failure error] => some (.result (.error error), none)
    | _, _ => none
  | "push" =>
    match self.items?, arguments with
    | some items, [.value item] => some (.unit, some (.value (.list (items ++ [item]))))
    | _, _ => none
  | "insert" =>
    match self.entries?, arguments with
    | some entries, [.value (.datum key), .value item] =>
      some (.unit, some (.value (.map (Value.putEntry entries key item))))
    | _, _ => none
  | _ => none

/-- What is left of an element that was read, after the answer. -/
def leftOf {α : Type} (e : Element) : Except DecodeError α → Object
  | .ok _ => .element e.close
  | .error _ => .lent

/-- What a method of an element gives, and the element afterwards if it was read on. -/
def elementMethod? (e : Element) : String → Option (Reading (Object × Option Object))
  | "start_el" => some (pure (.start e.start, none))
  | "read_text" => some do
    let answer ← e.text.caught
    return (.result (.text <$> answer), some (leftOf e answer))
  | "skip" => some do
    let answer ← (e.foldChildren (fun skipped _ ↦ pure skipped) ()).caught
    return (.result ((fun _ ↦ .unit) <$> answer), some (leftOf e answer))
  | _ => none

/-! ## Variables and locations -/

/-- Variables with what they stand for, the innermost first. -/
abbrev Variables := List (String × Object)

/-- Changes the innermost variable of a name. -/
def Variables.set? (name : String) (object : Object) : Variables → Option Variables
  | [] => none
  | (other, held) :: rest =>
    if other = name then some ((name, object) :: rest)
    else ((other, held) :: ·) <$> Variables.set? name object rest

/-- Where something is that can be changed. -/
inductive Location
  | variable (name : String)
  | field (object name : String)
  /-- Inside an option, which is filled with what is put there. -/
  | held (outer : Location)

/-- Puts an object into a location. -/
def Location.put? (vars : Variables) (object : Object) : Location → Option Variables
  | .variable name => vars.set? name object
  | .field owner name => do
    let .builder decl members ← vars.lookup owner | none
    let field ← decl.fieldNamed? name
    vars.set? owner (.builder decl (members.set field.member (← object.member?)))
  | .held outer => outer.put? vars (.option (some object))

/-- The location that an expression stands for. -/
def locationOf? : Expr → Option Location
  | .path ⟨false, [name]⟩ => some (.variable name)
  | .field (.path ⟨false, [object]⟩) name => some (.field object name)
  | .method receiver "get_or_insert_with" _ => (locationOf? receiver).map .held
  | _ => none

/-- The variable for an element that an argument hands over. -/
def lentBy? : Expr → Option String
  | .reference true (.path ⟨false, [name]⟩) => some name
  | _ => none

/-- The variable for an element that a loop asks for its next child. -/
def walkedBy? : Expr → Option String
  | .attempt (.method (.path ⟨false, [name]⟩) "next_tag" []) => some name
  | _ => none

/-- Code that runs changes variables and reads on in the document. -/
abbrev Running := StateT Variables Reading

namespace Running

variable {α : Type}

def known (name : String) (found : Option α) : Running α :=
  StateT.lift (Reading.known name found)

/-- Runs with more variables, which are dropped afterwards. -/
def within (bound : Variables) (body : Running α) : Running α := do
  modify (bound ++ ·)
  let a ← body
  modify (List.drop bound.length)
  return a

def put (location : Location) (object : Object) : Running Unit := do
  set (← known "location" (location.put? (← get) object))

/-- Puts what an object has changed to into its location, if it has one. -/
def update (location : Option Location) (after : Option Object) : Running Unit :=
  match location, after with
  | some location, some object => put location object
  | _, _ => pure ()

/-- Walks the children of an element, which nothing else reads meanwhile. -/
def walk (name : String) (step : Element → Running Unit) : Running Unit := do
  let .element e ← known name ((← get).lookup name) | known name none
  put (.variable name) .lent
  let after ← StateT.lift (e.foldChildren (fun vars child ↦ Prod.snd <$> (step child).run vars)
    (← get))
  set after
  put (.variable name) (.element e.close)

end Running

/-! ## Data -/

/-- The path of a type without arguments. -/
def Ty.path? : Ty → Option Path
  | .path found [] => some found
  | _ => none

/-- The kind that the library reads as values of a type. -/
def Ty.kind? (type : Ty) : Option Kind :=
  Kind.all.find? fun kind ↦ (kindType kind).path? = type.path?

variable (b : Bindings)

/-- A variant of a union that holds something. -/
def variant? (type name : String) (object : Object) : Option Object := do
  let case ← (← b.unionNamed? type).caseNamed? name
  return .value (.variant case.member (← object.value?))

/-- A structure whose members are given as fields, in order. -/
def structure? (type : String) (fields : List (String × Object)) : Option Object := do
  let decl ← b.structNamed? type
  if fields.map Prod.fst = decl.fields.map Bindings.Field.name then
    let values ← fields.mapM fun field ↦ field.2.member?
    return .value (.struct ((decl.fields.zip values).filterMap fun (field, value) ↦
      value.map (field.member, ·)))
  else none

/-- What a record stands for: an error of the library, or a structure. -/
def record? (path : Path) (fields : List (String × Object)) : Option Object :=
  if path = wire ["DecodeError", "IncompleteEntry"] then
    match fields with
    | [("entry", entry), ("missing", missing)] =>
      return .failure (.incompleteEntry (← entry.string?) (← missing.string?))
    | _ => none
  else if path = wire ["BuildError", "MissingMember"] then
    match fields with
    | [("shape", shape), ("member", member)] =>
      return .failure (.missingMember (← shape.string?) (← member.string?))
    | _ => none
  else
    match path with
    | ⟨false, [type]⟩ => structure? b type fields
    | _ => none

/-- What a path stands for that nothing is applied to. -/
def pathObject? (vars : Variables) (path : Path) : Option Object :=
  match path with
  | ⟨false, [name]⟩ =>
    match vars.lookup name with
    | some object => some object
    | none => if name = "None" then some (.option none) else none
  | ⟨false, [type, "Unknown"]⟩ => (b.unionNamed? type).map fun _ ↦ .value .unknownVariant
  | path => if path = std ["default", "Default", "default"] then some .blank else none

/-! ## Patterns -/

mutual

/-- The variables that a pattern binds, if it takes an object. -/
def taken? : Pattern → Object → Option Variables
  | .name bound, object =>
    if bound = "_" then some []
    else if bound = "None" then
      match object with
      | .option none => some []
      | _ => none
    else some [(bound, object)]
  | .mutable bound, object => some [(bound, object)]
  | .variant path fields, object =>
    match object, path with
    | .option (some held), ⟨false, ["Some"]⟩ => allTaken? fields [held]
    | .value (.variant member payload), ⟨false, [type, variant]⟩ => do
      let case ← (← b.unionNamed? type).caseNamed? variant
      guard (case.member = member)
      allTaken? fields [.value payload]
    | _, _ => none
  | .tuple patterns, .tuple items => allTaken? patterns items
  | _, _ => none

def allTaken? : List Pattern → List Object → Option Variables
  | [], [] => some []
  | pattern :: patterns, object :: objects => do
    return (← taken? pattern object) ++ (← allTaken? patterns objects)
  | _, _ => none

end

section Patterns

variable {b}

@[simp]
theorem taken?_any (object : Object) : taken? b (.name "_") object = some [] := rfl

theorem taken?_name {bound : String} (h : bound ≠ "_" ∧ bound ≠ "None") (object : Object) :
    taken? b (.name bound) object = some [(bound, object)] :=
  (if_neg h.1).trans (if_neg h.2)

@[simp]
theorem taken?_none (held : Option Object) :
    taken? b (.name "None") (.option held) = held.elim (some []) fun _ ↦ none := by
  cases held <;> rfl

@[simp]
theorem taken?_mutable (bound : String) (object : Object) :
    taken? b (.mutable bound) object = some [(bound, object)] := rfl

@[simp]
theorem taken?_some (fields : List Pattern) (held : Option Object) :
    taken? b (.variant (.single "Some") fields) (.option held) =
      held.bind fun object ↦ allTaken? b fields [object] := by
  cases held <;> rfl

theorem taken?_variant {type variant : String} {decl : UnionDecl} {case : UnionCase}
    (hunion : b.unionNamed? type = some decl) (hcase : decl.caseNamed? variant = some case)
    (fields : List Pattern) (member : String) (payload : Value) :
    taken? b (.variant (.member type variant) fields) (.value (.variant member payload)) =
      if case.member = member then allTaken? b fields [.value payload] else none := by
  change (b.unionNamed? type).bind _ = _
  rw [hunion, Option.bind_some]
  change (decl.caseNamed? variant).bind _ = _
  rw [hcase, Option.bind_some]
  by_cases hsame : case.member = member
  · rw [if_pos hsame, guard, if_pos hsame]
    rfl
  · rw [if_neg hsame, guard, if_neg hsame]
    rfl

@[simp]
theorem taken?_tuple (patterns : List Pattern) (items : List Object) :
    taken? b (.tuple patterns) (.tuple items) = allTaken? b patterns items := rfl

@[simp]
theorem allTaken?_nil : allTaken? b [] [] = some [] := rfl

@[simp]
theorem allTaken?_cons (pattern : Pattern) (patterns : List Pattern) (object : Object)
    (objects : List Object) :
    allTaken? b (pattern :: patterns) (object :: objects) =
      (do return (← taken? b pattern object) ++ (← allTaken? b patterns objects)) := rfl

end Patterns

/-! ## Calls -/

/-- What functions do, on their own and of types. -/
structure Calls where
  function : String → List Object → Reading Object
  member : (type name : String) → List Object → Reading Object

/-- What a function or variant of the library gives. -/
def library? (path : Path) (arguments : List Object) : Option Object :=
  match arguments with
  | [] =>
    if path = std ["vec", "Vec", "new"] then some (.value (.list []))
    else if path = std ["collections", "HashMap", "new"] then some (.value (.map []))
    else if path = std ["default", "Default", "default"] then some .blank
    else none
  | [object] =>
    if path = std ["boxed", "Box", "new"] then some object
    else if path = .single "Some" then some (.option (some object))
    else if path = .single "Ok" then some (.result (.ok object))
    else if path = .single "Err" then
      match object with
      | .failure error => some (.result (.error error))
      | _ => none
    else none
  | _ => none

/-- What a function of a trait gives for a type. -/
def ofTrait? (type : Ty) (trait : Path) (name : String) (arguments : List Object) :
    Option Object :=
  match name, arguments with
  | "parse_wire", [text] => do
    guard (trait = wire ["Primitive"])
    let answer := b.datum (.scalar (← type.kind?)) (← text.string?)
    return .result ((fun datum ↦ .value (.datum datum)) <$> answer)
  | "default", [] => do
    guard (trait = std ["default", "Default"])
    return .builder (← b.builderNamed? (← type.name?)) .empty
  | _, _ => none

variable {b} in
theorem ofTrait?_parse {type : Ty} {kind : Kind} (hkind : type.kind? = some kind) (text : String) :
    ofTrait? b type (wire ["Primitive"]) "parse_wire" [.text text] =
      some (.result ((fun datum ↦ .value (.datum datum)) <$> b.datum (.scalar kind) text)) := by
  rw [ofTrait?, guard, if_pos rfl, hkind]
  rfl

variable {b} in
theorem ofTrait?_default {type : Ty} {name : String} {decl : StructDecl}
    (hname : type.name? = some name) (hbuilder : b.builderNamed? name = some decl) :
    ofTrait? b type (std ["default", "Default"]) "default" [] = some (.builder decl .empty) := by
  rw [ofTrait?, guard, if_pos rfl, hname]
  change (b.builderNamed? name).bind _ = _
  rw [hbuilder]
  rfl

variable (calls : Calls)

/-- What is done by applying an expression. -/
def applied? (function : Expr) (arguments : List Object) : Option (Reading Object) :=
  match function with
  | .path path =>
    match library? path arguments, path with
    | some object, _ => some (pure object)
    | none, ⟨false, [name]⟩ => some (calls.function name arguments)
    | none, ⟨false, [type, name]⟩ =>
      match b.unionNamed? type, arguments with
      | some _, [payload] => pure <$> variant? b type name payload
      | _, _ => some (calls.member type name arguments)
    | none, _ => none
  | .ofTrait type trait name => pure <$> ofTrait? b type trait name arguments
  | _ => none

/-- What is done by a method, and its object afterwards if that changes. -/
def methodCall? (self : Object) (method : String) (arguments : List Object) :
    Option (Reading (Object × Option Object)) :=
  match self with
  | .element e => elementMethod? e method
  | .builder decl members =>
    some ((·, none) <$>
      calls.member decl.builder.toText method (.builder decl members :: arguments))
  | object => pure <$> object.method? arguments method

/-! ## Expressions and statements -/

mutual

def runExpr : Expr → Running Object
  | .path path => do Running.known "path" (pathObject? b (← get) path)
  | .text value => return .text value
  | .flag value => return .flag value
  | .call function arguments _ => do
    let given ← runExprs arguments
    let object ← StateT.lift (← Running.known "call" (applied? b calls function given))
    (arguments.filterMap lentBy?).forM fun name ↦ Running.put (.variable name) .lent
    return object
  | .method receiver name arguments => do
    let self ← runExpr receiver
    let given ← runExprs arguments
    let (object, after) ← StateT.lift (← Running.known name (methodCall? calls self name given))
    Running.update (locationOf? receiver) after
    return object
  | .field base name => do
    let .builder decl members ← runExpr base | Running.known name none
    let field ← Running.known name (decl.fieldNamed? name)
    return .option ((members.get? field.member).map .value)
  | .attempt inner => do
    let .result answer ← runExpr inner | Running.known "?" none
    StateT.lift (Reading.give answer)
  | .reference _ inner => runExpr inner
  | .tuple items => return .tuple (← runExprs items)
  | .record path fields => do Running.known "record" (record? b path (← runFields fields))
  | .assign target value => do
    let object ← runExpr value
    Running.put (← Running.known "location" (locationOf? target)) object
    return .unit
  | .block statements => runBody statements
  | .ifLet pattern value body => do
    match taken? b pattern (← runExpr value) with
    | some bound => Running.within bound (runBody body)
    | none => return .unit
  | .whileLet pattern value body => do
    Running.walk (← Running.known "while" (walkedBy? value)) fun child ↦ do
      let bound ← Running.known "while" (taken? b pattern (.option (some (.element child))))
      let _ ← Running.within bound (runBody body)
    return .unit
  | .cases value arms => do runArms arms (← runExpr value)
  | .ofTrait _ _ _ | .array _ | .expand _ _ | .closure _ _ | .ifThen _ _ | .ifLetElse _ _ _ _ =>
    Running.known "expression" none

def runExprs : List Expr → Running (List Object)
  | [] => return []
  | first :: rest => do return (← runExpr first) :: (← runExprs rest)

def runFields : List Field → Running (List (String × Object))
  | [] => return []
  | .mk name value :: rest => do return (name, ← runExpr value) :: (← runFields rest)

def runBody : List Stmt → Running Object
  | [] => return .unit
  | .give value :: rest => do
    let object ← runExpr value
    if rest.isEmpty then return object else runBody rest
  | .run value :: rest => do
    let _ ← runExpr value
    runBody rest
  | .bind pattern _ value :: rest => do
    let bound ← Running.known "let" (taken? b pattern (← runExpr value))
    Running.within bound (runBody rest)

/-- Runs the first arm that takes an object, as far as its guard allows it. -/
def runArms : List Arm → Object → Running Object
  | [], _ => Running.known "match" none
  | .mk pattern none body :: rest, object =>
    match taken? b pattern object with
    | some bound => Running.within bound (runExpr body)
    | none => runArms rest object
  | .mk pattern (some guard) body :: rest, object =>
    match taken? b pattern object with
    | some bound => do
      match ← Running.within bound (runExpr guard) with
      | .flag true => Running.within bound (runExpr body)
      | .flag false => runArms rest object
      | _ => Running.known "guard" none
    | none => runArms rest object

end

/-! ### What each form does -/

variable {b calls}

theorem runExpr_path (path : Path) :
    runExpr b calls (.path path) =
      (do Running.known "path" (pathObject? b (← get) path) : Running Object) := rfl

theorem runExpr_call (function : Expr) (arguments : List Expr) (isOpen : Bool) :
    runExpr b calls (.call function arguments isOpen) = do
      let given ← runExprs b calls arguments
      let object ← StateT.lift (← Running.known "call" (applied? b calls function given))
      (arguments.filterMap lentBy?).forM fun name ↦ Running.put (.variable name) .lent
      return object := rfl

theorem runExpr_method (receiver : Expr) (name : String) (arguments : List Expr) :
    runExpr b calls (.method receiver name arguments) = do
      let self ← runExpr b calls receiver
      let given ← runExprs b calls arguments
      let (object, after) ← StateT.lift (← Running.known name (methodCall? calls self name given))
      Running.update (locationOf? receiver) after
      return object := rfl

theorem runExpr_field (base : Expr) (name : String) :
    runExpr b calls (.field base name) = do
      let .builder decl members ← runExpr b calls base | Running.known name none
      let field ← Running.known name (decl.fieldNamed? name)
      return .option ((members.get? field.member).map .value) := rfl

theorem runExpr_attempt (inner : Expr) :
    runExpr b calls (.attempt inner) = (do
      let .result answer ← runExpr b calls inner | Running.known "?" none
      StateT.lift (Reading.give answer)) := rfl

theorem runExpr_reference (isMutable : Bool) (inner : Expr) :
    runExpr b calls (.reference isMutable inner) = runExpr b calls inner := rfl

theorem runExpr_tuple (items : List Expr) :
    runExpr b calls (.tuple items) =
      runExprs b calls items >>= fun objects ↦ pure (.tuple objects) := rfl

theorem runExpr_record (path : Path) (fields : List Field) :
    runExpr b calls (.record path fields) =
      runFields b calls fields >>= fun held ↦ Running.known "record" (record? b path held) := rfl

theorem runExpr_assign (target value : Expr) :
    runExpr b calls (.assign target value) = do
      let object ← runExpr b calls value
      Running.put (← Running.known "location" (locationOf? target)) object
      return .unit := rfl

theorem runExpr_block (statements : List Stmt) :
    runExpr b calls (.block statements) = runBody b calls statements := rfl

theorem runExpr_ifLet (pattern : Pattern) (value : Expr) (body : List Stmt) :
    runExpr b calls (.ifLet pattern value body) = do
      match taken? b pattern (← runExpr b calls value) with
      | some bound => Running.within bound (runBody b calls body)
      | none => return .unit := rfl

theorem runExpr_whileLet (pattern : Pattern) (value : Expr) (body : List Stmt) :
    runExpr b calls (.whileLet pattern value body) = do
      Running.walk (← Running.known "while" (walkedBy? value)) fun child ↦ do
        let bound ← Running.known "while" (taken? b pattern (.option (some (.element child))))
        let _ ← Running.within bound (runBody b calls body)
      return .unit := rfl

theorem runExpr_cases (value : Expr) (arms : List Arm) :
    runExpr b calls (.cases value arms) =
      runExpr b calls value >>= runArms b calls arms := rfl

@[simp]
theorem runExprs_nil : runExprs b calls [] = pure [] := rfl

theorem runExprs_cons (first : Expr) (rest : List Expr) :
    runExprs b calls (first :: rest) =
      (do return (← runExpr b calls first) :: (← runExprs b calls rest)) := rfl

@[simp]
theorem runFields_nil : runFields b calls [] = pure [] := rfl

theorem runFields_cons (name : String) (value : Expr) (rest : List Field) :
    runFields b calls (.mk name value :: rest) =
      (do return (name, ← runExpr b calls value) :: (← runFields b calls rest)) := rfl

@[simp]
theorem runBody_nil : runBody b calls [] = pure .unit := rfl

theorem runBody_cons_give (value : Expr) (rest : List Stmt) :
    runBody b calls (.give value :: rest) =
      runExpr b calls value >>= fun object ↦
        if rest.isEmpty then pure object else runBody b calls rest := rfl

theorem runBody_cons_run (value : Expr) (rest : List Stmt) :
    runBody b calls (.run value :: rest) =
      runExpr b calls value >>= fun _ ↦ runBody b calls rest := rfl

theorem runBody_cons_bind (pattern : Pattern) (type : Option Ty) (value : Expr)
    (rest : List Stmt) :
    runBody b calls (.bind pattern type value :: rest) =
      runExpr b calls value >>= fun object ↦
        Running.known "let" (taken? b pattern object) >>= fun bound ↦
          Running.within bound (runBody b calls rest) := rfl

theorem runArms_free (pattern : Pattern) (body : Expr) (rest : List Arm) (object : Object) :
    runArms b calls (.mk pattern none body :: rest) object =
      match taken? b pattern object with
      | some bound => Running.within bound (runExpr b calls body)
      | none => runArms b calls rest object := rfl

theorem runArms_guarded (pattern : Pattern) (guard body : Expr) (rest : List Arm)
    (object : Object) :
    runArms b calls (.mk pattern (some guard) body :: rest) object =
      match taken? b pattern object with
      | some bound => do
        match ← Running.within bound (runExpr b calls guard) with
        | .flag true => Running.within bound (runExpr b calls body)
        | .flag false => runArms b calls rest object
        | _ => Running.known "guard" none
      | none => runArms b calls rest object := rfl

variable (b calls)

/-! ## Functions -/

def Parameter.variable : Parameter → String
  | .receiver _ => "self"
  | .typed _ name _ => name

/-- What a function gives for arguments.  An error that it returns early is its result. -/
def Fn.call (function : Fn) (arguments : List Object) : Reading Object := do
  let vars := (function.parameters.map Parameter.variable).zip arguments
  match ← ((runBody b calls function.body).run' vars).caught with
  | .ok object => return object
  | .error error => return .result (.error error)

/-- The functions of code by their names. -/
def functions (code : List Decl) : List (String × Fn) :=
  code.filterMap fun
    | .fn function => some (function.name, function)
    | _ => none

def Part.fn? : Part → Option Fn
  | .fn function => some function
  | .alias _ _ => none

/-- The functions that types have of their own, by the names of the types and of the functions. -/
def members (code : List Decl) : List ((String × String) × Fn) :=
  code.flatMap fun
    | .implementation none type parts =>
      type.name?.toList.flatMap fun owner ↦
        (parts.filterMap Part.fn?).map fun function ↦ ((owner, function.name), function)
    | _ => []

/-- Nothing can be called. -/
def Calls.none : Calls where
  function name _ := Reading.fail (.undeclared name)
  member _ name _ := Reading.fail (.undeclared name)

end Code

namespace Bindings

open Code (Object Operand Calls)

/-- The value that a conversion gives. -/
def EnumDecl.enumerated? (decl : EnumDecl) : Operand → Option Enumerated
  | .variant path none => (decl.cases.find? fun case ↦ decl.variantPath case = path).map .known
  | .variant path (some text) => if path = decl.unknownPath then some (.unknown text) else none
  | .text _ => none

/-- What the conversion of a text to an enumeration gives, as its code has it. -/
def EnumDecl.convert? (decl : EnumDecl) (name : String) (arguments : List Object) :
    Option Object :=
  match name, arguments with
  | "from", [text] => do
    let converted ← decl.fromText.run? (.text (← text.string?))
    return .value (.datum (.enum (← decl.enumerated? converted)))
  | _, _ => none

variable (b : Bindings)

/-- A function of a type. -/
def callMember (type name : String) (arguments : List Object) : Reading Object :=
  match b.enumNamed? type with
  | some decl => pure =<< Reading.known name (decl.convert? name arguments)
  | none =>
    match (Code.members b.code).find? fun entry ↦ entry.1 = (type, name) with
    | some entry => entry.2.call b .none arguments
    | none => Reading.fail (.undeclared name)

/-- A function on its own. -/
def callFunction (calls : Calls) (name : String) (arguments : List Object) : Reading Object :=
  match (Code.functions b.code).lookup name with
  | some function => function.call b calls arguments
  | none => Reading.fail (.undeclared name)

/-- The function decodes the entries of some map. -/
def decodesEntries (name : String) : Bool :=
  b.decoders.any fun
    | .map d => d.entryIdent.toText = name
    | _ => false

/-- The functions of the code, by those that decode shapes.  One that decodes entries calls those
only, and goes no deeper than what calls it. -/
def callsBy (shapes : String → List Object → Reading Object) : Calls where
  function name arguments :=
    if b.decodesEntries name then b.callFunction ⟨shapes, b.callMember⟩ name arguments
    else shapes name arguments
  member := b.callMember

/-- The functions that decode shapes, on elements that may nest `levels` deep. -/
def shapeCalls : (levels : Nat) → String → List Object → Reading Object
  | 0 => fun _ _ ↦ pure (.result (.error (.tooDeep Wire.defaultMaxDepth)))
  | levels + 1 => b.callFunction (b.callsBy (shapeCalls levels))

/-- The functions of the code. -/
def calls (levels : Nat) : Calls := b.callsBy (b.shapeCalls levels)

end Bindings

end WireShapes
