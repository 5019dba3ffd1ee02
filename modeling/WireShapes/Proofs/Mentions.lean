import WireShapes.Code.Tree

/-!
# Names in generated code

What a piece of generated code refers to by name, and what it defines.  A name on its own in the
place of a type is a type, in front of arguments it is a function; a name behind that of a type is a
variant in a pattern, and a variant or a function of the type anywhere else; a method is looked for
with the type of its receiver, where that is an argument of the function at hand, or its object.
Paths from the root lead to other libraries and are left alone, as are local variables.
-/

namespace WireShapes.Code

/-- A name that code refers to something by. -/
inductive Mention
  | type (name : String)
  | variant (type name : String)
  /-- A variant or function of a type. -/
  | member (type name : String)
  | function (name : String)
  | method (receiver name : String)
deriving DecidableEq

/-! ## What is mentioned -/

/-- A path in the place of a type. -/
def Path.asType : Path → List Mention
  | ⟨false, [name]⟩ => [.type name]
  | ⟨false, [type, name]⟩ => [.member type name]
  | _ => []

/-- A path in a pattern. -/
def Path.asPattern : Path → List Mention
  | ⟨false, [name]⟩ => [.function name]
  | ⟨false, [type, name]⟩ => [.variant type name]
  | _ => []

/-- A path in an expression, where a name on its own is a variable. -/
def Path.asValue : Path → List Mention
  | ⟨false, [type, name]⟩ => [.member type name]
  | _ => []

/-- A path that is called. -/
def Path.asCallee : Path → List Mention
  | ⟨false, [name]⟩ => [.function name]
  | _ => []

/-- What is called by its name. -/
def Expr.asFunction : Expr → List Mention
  | .path names => names.asCallee
  | _ => []

/-- A method of what a variable holds. -/
def Expr.asReceiver (method : String) : Expr → List Mention
  | .path ⟨false, [name]⟩ => [.method name method]
  | _ => []

mutual

@[simp]
def Ty.mentions : Ty → List Mention
  | .path names arguments => names.asType ++ Ty.mentionsIn arguments
  | .lifetime _ => []
  | .reference _ _ inner => inner.mentions
  | .slice item => item.mentions
  | .tuple items => Ty.mentionsIn items

@[simp]
def Ty.mentionsIn : List Ty → List Mention
  | [] => []
  | type :: rest => type.mentions ++ Ty.mentionsIn rest

end

mutual

@[simp]
def Pattern.mentions : Pattern → List Mention
  | .name _ | .mutable _ | .text _ => []
  | .path names => names.asPattern
  | .variant names fields => names.asPattern ++ Pattern.mentionsIn fields
  | .tuple items => Pattern.mentionsIn items

@[simp]
def Pattern.mentionsIn : List Pattern → List Mention
  | [] => []
  | pattern :: rest => pattern.mentions ++ Pattern.mentionsIn rest

end

mutual

@[simp]
def Expr.mentions : Expr → List Mention
  | .path names => names.asValue
  | .ofTrait type _ _ => type.mentions
  | .text _ | .flag _ => []
  | .call function arguments _ =>
    function.asFunction ++ function.mentions ++ Expr.mentionsIn arguments
  | .method receiver name arguments =>
    receiver.asReceiver name ++ receiver.mentions ++ Expr.mentionsIn arguments
  | .field base _ => base.mentions
  | .attempt inner => inner.mentions
  | .reference _ inner => inner.mentions
  | .array items => Expr.mentionsIn items
  | .tuple items => Expr.mentionsIn items
  | .record type fields => type.asType ++ Field.mentionsIn fields
  | .assign place value => place.mentions ++ value.mentions
  | .expand _ arguments => Expr.mentionsIn arguments
  | .closure _ body => body.mentions
  | .block statements => Stmt.mentionsIn statements
  | .ifThen condition body => condition.mentions ++ Stmt.mentionsIn body
  | .ifLet pattern value body => pattern.mentions ++ value.mentions ++ Stmt.mentionsIn body
  | .ifLetElse pattern value body otherwise =>
    pattern.mentions ++ value.mentions ++ Stmt.mentionsIn body ++ Stmt.mentionsIn otherwise
  | .whileLet pattern value body => pattern.mentions ++ value.mentions ++ Stmt.mentionsIn body
  | .cases value arms => value.mentions ++ Arm.mentionsIn arms

@[simp]
def Expr.mentionsIn : List Expr → List Mention
  | [] => []
  | expr :: rest => expr.mentions ++ Expr.mentionsIn rest

@[simp]
def Field.mentions : Field → List Mention
  | .mk _ value => value.mentions

@[simp]
def Field.mentionsIn : List Field → List Mention
  | [] => []
  | field :: rest => field.mentions ++ Field.mentionsIn rest

@[simp]
def Stmt.mentions : Stmt → List Mention
  | .bind pattern none value => pattern.mentions ++ value.mentions
  | .bind pattern (some type) value => pattern.mentions ++ type.mentions ++ value.mentions
  | .run value => value.mentions
  | .give value => value.mentions

@[simp]
def Stmt.mentionsIn : List Stmt → List Mention
  | [] => []
  | stmt :: rest => stmt.mentions ++ Stmt.mentionsIn rest

@[simp]
def Arm.mentions : Arm → List Mention
  | .mk pattern none body => pattern.mentions ++ body.mentions
  | .mk pattern (some guard) body => pattern.mentions ++ guard.mentions ++ body.mentions

@[simp]
def Arm.mentionsIn : List Arm → List Mention
  | [] => []
  | arm :: rest => arm.mentions ++ Arm.mentionsIn rest

end

@[simp]
def Parameter.mentions : Parameter → List Mention
  | .receiver _ => []
  | .typed _ _ type => type.mentions

@[simp]
def Fn.mentions (fn : Fn) : List Mention :=
  fn.parameters.flatMap Parameter.mentions ++ fn.result.mentions ++ Stmt.mentionsIn fn.body

/-! ### Lists -/

theorem Expr.mentionsIn_eq (exprs : List Expr) :
    Expr.mentionsIn exprs = exprs.flatMap Expr.mentions := by
  induction exprs with
  | nil => rfl
  | cons expr rest ih => rw [Expr.mentionsIn, ih, List.flatMap_cons]

theorem Field.mentionsIn_eq (fields : List Field) :
    Field.mentionsIn fields = fields.flatMap Field.mentions := by
  induction fields with
  | nil => rfl
  | cons field rest ih => rw [Field.mentionsIn, ih, List.flatMap_cons]

theorem Stmt.mentionsIn_eq (statements : List Stmt) :
    Stmt.mentionsIn statements = statements.flatMap Stmt.mentions := by
  induction statements with
  | nil => rfl
  | cons statement rest ih => rw [Stmt.mentionsIn, ih, List.flatMap_cons]

theorem Arm.mentionsIn_eq (arms : List Arm) :
    Arm.mentionsIn arms = arms.flatMap Arm.mentions := by
  induction arms with
  | nil => rfl
  | cons arm rest ih => rw [Arm.mentionsIn, ih, List.flatMap_cons]

/-! ### Short forms -/

section

variable (type name method : String) (names : List String) (arguments : List Expr) (value : Expr)

@[simp]
theorem Path.asType_single : (Path.single name).asType = [.type name] := rfl

@[simp]
theorem Path.asType_member : (Path.member type name).asType = [.member type name] := rfl

@[simp]
theorem Path.asType_global : (Path.global names).asType = [] := rfl

@[simp]
theorem Path.asPattern_single : (Path.single name).asPattern = [.function name] := rfl

@[simp]
theorem Path.asPattern_member : (Path.member type name).asPattern = [.variant type name] := rfl

@[simp]
theorem Path.asValue_single : (Path.single name).asValue = [] := rfl

@[simp]
theorem Path.asValue_member : (Path.member type name).asValue = [.member type name] := rfl

@[simp]
theorem Path.asValue_global : (Path.global names).asValue = [] := rfl

@[simp]
theorem Path.asCallee_single : (Path.single name).asCallee = [.function name] := rfl

@[simp]
theorem Path.asCallee_member : (Path.member type name).asCallee = [] := rfl

@[simp]
theorem Path.asCallee_global : (Path.global names).asCallee = [] := rfl

@[simp]
theorem Ty.mentions_plain (path : Path) : (Ty.plain path).mentions = path.asType := by
  simp [Ty.plain]

@[simp]
theorem Ty.mentions_named : (Ty.named name).mentions = [.type name] := by
  simp [Ty.named]

@[simp]
theorem Ty.mentions_to (inner : Ty) : inner.to.mentions = inner.mentions := by
  simp [Ty.to]

@[simp]
theorem Expr.mentions_name : (Expr.name name).mentions = [] := by
  simp [Expr.name]

@[simp]
theorem Expr.asReceiver_name : (Expr.name name).asReceiver method = [.method name method] := rfl

@[simp]
theorem Expr.asReceiver_field (base : Expr) : (Expr.field base name).asReceiver method = [] := rfl

@[simp]
theorem Expr.asReceiver_method (receiver : Expr) :
    (Expr.method receiver name arguments).asReceiver method = [] := rfl

@[simp]
theorem Expr.asReceiver_attempt (inner : Expr) : inner.attempt.asReceiver method = [] := rfl

@[simp]
theorem Expr.asFunction_path (path : Path) : (Expr.path path).asFunction = path.asCallee := rfl

@[simp]
theorem Expr.asFunction_ofTrait (owner : Ty) (trait : Path) :
    (Expr.ofTrait owner trait name).asFunction = [] := rfl

@[simp]
theorem Expr.mentions_self : Expr.self.mentions = [] := Expr.mentions_name "self"

@[simp]
theorem Expr.asReceiver_self : Expr.self.asReceiver method = [.method "self" method] := rfl

@[simp]
theorem Expr.mentions_none : Expr.none.mentions = [] := Expr.mentions_name "None"

@[simp]
theorem Expr.mentions_apply (function : Expr) :
    (Expr.apply function arguments).mentions =
      function.asFunction ++ function.mentions ++ Expr.mentionsIn arguments := by
  simp [Expr.apply]

@[simp]
theorem Expr.mentions_applyPath (path : Path) :
    (Expr.applyPath path arguments).mentions =
      path.asCallee ++ path.asValue ++ Expr.mentionsIn arguments := by
  simp [Expr.applyPath]

@[simp]
theorem Expr.mentions_some : value.some.mentions = .function "Some" :: value.mentions := by
  simp [Expr.some]

@[simp]
theorem Expr.mentions_ok : value.ok.mentions = .function "Ok" :: value.mentions := by
  simp [Expr.ok]

@[simp]
theorem Expr.mentions_error : value.error.mentions = .function "Err" :: value.mentions := by
  simp [Expr.error]

end

/-! ## What is defined -/

/-- The name of a type without arguments. -/
def Ty.name? : Ty → Option String
  | .path ⟨false, [name]⟩ [] => some name
  | _ => none

/-- The name of the type that a declaration defines. -/
def Decl.typeName? : Decl → Option String
  | .record _ name _ | .choice _ name _ => some name
  | .implementation _ _ _ | .fn _ => none

def Decl.functionName? : Decl → Option String
  | .fn f => some f.name
  | .record _ _ _ | .choice _ _ _ | .implementation _ _ _ => none

def Part.functionName? : Part → Option String
  | .fn f => some f.name
  | .alias _ _ => none

/-- The variants that a declaration defines, with the type they are of. -/
def Decl.variants? : Decl → Option (String × List String)
  | .choice _ name variants => some (name, variants.map Variant.name)
  | .record _ _ _ | .implementation _ _ _ | .fn _ => none

/-- The functions that an implementation defines, with the type they are of. -/
def Decl.functions? : Decl → Option (String × List String)
  | .implementation _ owner members =>
    owner.name?.map fun name ↦ (name, members.filterMap Part.functionName?)
  | .record _ _ _ | .choice _ _ _ | .fn _ => none

/-- As `functions?`, but only for what a type has of its own and not for a trait. -/
def Decl.methods? : Decl → Option (String × List String)
  | .implementation none owner members =>
    owner.name?.map fun name ↦ (name, members.filterMap Part.functionName?)
  | .implementation (some _) _ _ | .record _ _ _ | .choice _ _ _ | .fn _ => none

/-- Every name with its owner. -/
def owned (entries : List (String × List String)) : List (String × String) :=
  entries.flatMap fun entry ↦ entry.2.map fun name ↦ (entry.1, name)

def typeNames (code : List Decl) : List String := code.filterMap Decl.typeName?

def functionNames (code : List Decl) : List String := code.filterMap Decl.functionName?

/-- Every type with each of its variants. -/
def variantNames (code : List Decl) : List (String × String) :=
  owned (code.filterMap Decl.variants?)

/-- Every type with each function that is implemented for it. -/
def implementedNames (code : List Decl) : List (String × String) :=
  owned (code.filterMap Decl.functions?)

/-- Every type with each function that it has of its own. -/
def methodNames (code : List Decl) : List (String × String) :=
  owned (code.filterMap Decl.methods?)

/-! ## What is known -/

/-- The types of the language that generated code names. -/
def builtinTypes : List String :=
  ["bool", "i8", "i16", "i32", "i64", "f32", "f64", "str", "u8", "Self"]

/-- What generated code names of these types. -/
def builtinMembers : List (String × String) := [("str", "to_owned"), ("Self", "Err")]

/-- The variants of the language that generated code names on their own. -/
def builtinVariants : List String := ["Some", "Ok", "Err"]

/-- What is mentioned is defined in the code, or belongs to the language.  Receivers are variables
with the types they have. -/
def Mention.Known (code : List Decl) (receivers : List (String × String)) : Mention → Prop
  | .type name => name ∈ builtinTypes ∨ name ∈ typeNames code
  | .variant owner name => (owner, name) ∈ variantNames code
  | .member owner name => (owner, name) ∈ builtinMembers ∨ (owner, name) ∈ variantNames code ∨
      (owner, name) ∈ implementedNames code
  | .function name => name ∈ builtinVariants ∨ name ∈ functionNames code
  | .method receiver name =>
    ∀ owner, (receiver, owner) ∈ receivers → (owner, name) ∈ implementedNames code

/-- An argument with its type, where that has a name. -/
def Parameter.receiver? : Parameter → Option (String × String)
  | .typed _ name type => type.name?.map fun typeName ↦ (name, typeName)
  | .receiver _ => none

/-- The arguments of a function whose types have names, and its object. -/
def Fn.receivers (self : Option String) (fn : Fn) : List (String × String) :=
  self.toList.map (fun type ↦ ("self", type)) ++ fn.parameters.filterMap Parameter.receiver?

/-- All that a type mentions is known. -/
def Ty.Closed (code : List Decl) (type : Ty) : Prop :=
  ∀ mention ∈ type.mentions, Mention.Known code [] mention

/-- All that a function mentions is known. -/
def Fn.Closed (code : List Decl) (self : Option String) (fn : Fn) : Prop :=
  ∀ mention ∈ fn.mentions, Mention.Known code (fn.receivers self) mention

def Part.Closed (code : List Decl) (self : Option String) : Part → Prop
  | .fn f => Fn.Closed code self f
  | .alias _ type => Ty.Closed code type

/-- All that a declaration mentions is known. -/
def Decl.Closed (code : List Decl) : Decl → Prop
  | .record _ _ fields => ∀ field ∈ fields, Ty.Closed code field.type
  | .choice _ _ variants => ∀ variant ∈ variants, ∀ type ∈ variant.payload, Ty.Closed code type
  | .implementation trait owner members =>
    (∀ type ∈ trait, Ty.Closed code type) ∧ Ty.Closed code owner ∧
      ∀ part ∈ members, Part.Closed code owner.name? part
  | .fn f => Fn.Closed code none f

/-! ### Names of the language -/

section

variable (code : List Decl) (receivers : List (String × String))

@[simp]
theorem Mention.known_self : Mention.Known code receivers (.type "Self") := .inl (by decide)

@[simp]
theorem Mention.known_bool : Mention.Known code receivers (.type "bool") := .inl (by decide)

@[simp]
theorem Mention.known_str : Mention.Known code receivers (.type "str") := .inl (by decide)

@[simp]
theorem Mention.known_u8 : Mention.Known code receivers (.type "u8") := .inl (by decide)

@[simp]
theorem Mention.known_some : Mention.Known code receivers (.function "Some") := .inl (by decide)

@[simp]
theorem Mention.known_ok : Mention.Known code receivers (.function "Ok") := .inl (by decide)

@[simp]
theorem Mention.known_err : Mention.Known code receivers (.function "Err") := .inl (by decide)

end

/-! ### Types -/

mutual

theorem Ty.not_method_mem :
    (type : Ty) → ∀ receiver name, .method receiver name ∉ type.mentions
  | .path names arguments, receiver, name => by
    rw [Ty.mentions, List.mem_append, not_or]
    refine ⟨?_, Ty.not_method_mem_mentionsIn arguments receiver name⟩
    unfold Path.asType
    split <;> simp
  | .lifetime _, _, _ => List.not_mem_nil
  | .reference _ _ inner, receiver, name => Ty.not_method_mem inner receiver name
  | .slice item, receiver, name => Ty.not_method_mem item receiver name
  | .tuple items, receiver, name => Ty.not_method_mem_mentionsIn items receiver name

theorem Ty.not_method_mem_mentionsIn :
    (types : List Ty) → ∀ receiver name, .method receiver name ∉ Ty.mentionsIn types
  | [], _, _ => List.not_mem_nil
  | type :: rest, receiver, name => by
    rw [Ty.mentionsIn, List.mem_append, not_or]
    exact ⟨Ty.not_method_mem type receiver name, Ty.not_method_mem_mentionsIn rest receiver name⟩

end

/-- What a type mentions does not depend on variables. -/
theorem Ty.Closed.known {code : List Decl} {type : Ty} (h : Ty.Closed code type)
    (receivers : List (String × String)) :
    ∀ mention ∈ type.mentions, Mention.Known code receivers mention := by
  intro mention hmention
  have hknown := h mention hmention
  cases mention with
  | method receiver name => exact absurd hmention (type.not_method_mem receiver name)
  | type | variant | member | function => exact hknown

end WireShapes.Code
