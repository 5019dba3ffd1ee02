import WireShapes.Proofs.ValueTypes

/-!
# Types of code

The rules by which the target language gives types to the code of decoders and builders, over what
that code declares and over the methods of the libraries that it calls.  The judgment
(`Code.Typed` for expressions, with one for lists of expressions, one for statements and one for
arms) is declarative: where the language infers a type from later uses, as for an empty collection,
the rule holds for every type.  Lifetimes and ownership are left out.
-/

namespace WireShapes

open Bindings (std wire optionOf resultOf decoded boxOf kindType stringType selfType defaultValue
  fromText HasFn Implements)

namespace Code

/-! ## Types of the libraries -/

/-- An element that is read. -/
def elementType : Ty := .path (wire ["ScopedDecoder"]) [.lifetime "'_", .lifetime "'_"]

def startType : Ty := .plain (wire ["StartEl"])

def nameType : Ty := .plain (wire ["Name"])

def decodeError : Ty := .plain (wire ["DecodeError"])

def buildError : Ty := .plain (wire ["BuildError"])

/-- A text that is borrowed. -/
def textType : Ty := .to (.named "str")

def boolType : Ty := .named "bool"

def unitType : Ty := .tuple []

def vecOf (item : Ty) : Ty := .path (std ["vec", "Vec"]) [item]

def mapOf (key value : Ty) : Ty := .path (std ["collections", "HashMap"]) [key, value]

/-- Where a method is looked up: references and boxes are looked through. -/
inductive Derefs : Ty → Ty → Prop
  | self (type : Ty) : Derefs type type
  | reference {lifetime : Option String} {isMutable : Bool} {inner type : Ty}
      (h : Derefs inner type) : Derefs (.reference lifetime isMutable inner) type
  | box {inner type : Ty} (h : Derefs inner type) : Derefs (boxOf inner) type

/-- Collections have a default, and so have boxes of what has one. -/
inductive HasDefault : Ty → Prop
  | vec (item : Ty) : HasDefault (vecOf item)
  | hashMap (key value : Ty) : HasDefault (mapOf key value)
  | box {inner : Ty} (h : HasDefault inner) : HasDefault (boxOf inner)

/-- The functions and variants of the libraries, with the types of arguments and results. -/
inductive LibraryCall : Path → List Ty → Ty → Prop
  | some (type : Ty) : LibraryCall (.single "Some") [type] (optionOf type)
  | ok (type error : Ty) : LibraryCall (.single "Ok") [type] (resultOf type error)
  | error (type error : Ty) : LibraryCall (.single "Err") [error] (resultOf type error)
  | box (type : Ty) : LibraryCall (std ["boxed", "Box", "new"]) [type] (boxOf type)
  | vec (item : Ty) : LibraryCall (std ["vec", "Vec", "new"]) [] (vecOf item)
  | hashMap (key value : Ty) :
      LibraryCall (std ["collections", "HashMap", "new"]) [] (mapOf key value)
  | default {type : Ty} (h : HasDefault type) :
      LibraryCall (std ["default", "Default", "default"]) [] type

/-- The methods of the libraries, by the type that they are methods of. -/
inductive LibraryMethod : Ty → String → List Ty → Ty → Prop
  | startEl : LibraryMethod elementType "start_el" [] (.to startType)
  | nextTag : LibraryMethod elementType "next_tag" [] (decoded (optionOf elementType))
  | readText : LibraryMethod elementType "read_text" [] (decoded stringType)
  | skip : LibraryMethod elementType "skip" [] (decoded unitType)
  | isMatched : LibraryMethod startType "matches" [textType] boolType
  | attr : LibraryMethod startType "attr" [textType] (optionOf textType)
  | name : LibraryMethod startType "name" [] (.to nameType)
  | ofName : LibraryMethod nameType "to_string" [] stringType
  | asText : LibraryMethod stringType "as_str" [] textType
  | toOwned : LibraryMethod (.named "str") "to_owned" [] stringType
  | take (type : Ty) : LibraryMethod (optionOf type) "take" [] (optionOf type)
  | unwrapOr (type : Ty) : LibraryMethod (optionOf type) "unwrap_or" [type] type
  | push (item : Ty) : LibraryMethod (vecOf item) "push" [item] unitType
  | insert (key value : Ty) :
      LibraryMethod (mapOf key value) "insert" [key, value] (optionOf value)

/-! ## What code declares -/

/-- Code declares a union with a variant. -/
def HasVariant (code : List Decl) (union : Ident) (variant : String) (payload : Option Ty) : Prop :=
  ∃ heading variants docs, .choice heading union.toText variants ∈ code ∧
    ⟨docs, variant, payload⟩ ∈ variants

/-- Code declares a structure with a field. -/
def HasField (code : List Decl) (owner : Ident) (name : String) (type : Ty) : Prop :=
  ∃ heading fields docs isPublic, .record heading owner.toText fields ∈ code ∧
    ⟨docs, isPublic, name, type⟩ ∈ fields

/-- What the result of a function of a type stands for. -/
inductive Stands (owner : Ident) : Ty → Ty → Prop
  | self : Stands owner selfType (.named owner.toText)
  | other {type : Ty} (h : type ≠ selfType) : Stands owner type type

/-- The type of an argument that a function takes. -/
def Parameter.type? : Parameter → Option Ty
  | .receiver _ => none
  | .typed _ _ type => some type

/-! ## The judgment -/

/-- Variables with their types, the innermost first. -/
abbrev Scope := List (String × Ty)

variable (code : List Decl)

/-- A pattern takes objects of a type and binds variables. -/
inductive Binds : Pattern → Ty → Scope → Prop
  | any (type : Ty) : Binds (.name "_") type []
  | none (type : Ty) : Binds (.name "None") (optionOf type) []
  | name {name : String} (h : name ≠ "_" ∧ name ≠ "None") (type : Ty) :
      Binds (.name name) type [(name, type)]
  | mutable (name : String) (type : Ty) : Binds (.mutable name) type [(name, type)]
  | some {pattern : Pattern} {type : Ty} {bound : Scope} (h : Binds pattern type bound) :
      Binds (.variant (.single "Some") [pattern]) (optionOf type) bound
  | variant {union : Ident} {variant : String} {payload : Ty} {pattern : Pattern} {bound : Scope}
      (hvariant : HasVariant code union variant (some payload))
      (h : Binds pattern payload bound) :
      Binds (.variant (.member union.toText variant) [pattern]) (.named union.toText) bound
  | pair {first second : Pattern} {type type' : Ty} {bound bound' : Scope}
      (h : Binds first type bound) (h' : Binds second type' bound') :
      Binds (.tuple [first, second]) (.tuple [type, type']) (bound ++ bound')

mutual

/-- An expression has a type. -/
inductive Typed : Scope → Expr → Ty → Prop
  | name {scope : Scope} {name : String} {type : Ty} (h : scope.lookup name = some type) :
      Typed scope (.name name) type
  | none {scope : Scope} (type : Ty) : Typed scope .none (optionOf type)
  | text {scope : Scope} (value : String) : Typed scope (.text value) textType
  | library {scope : Scope} {path : Path} {arguments : List Expr} {types : List Ty} {type : Ty}
      (hcall : LibraryCall path types type) (h : AllTyped scope arguments types) :
      Typed scope (.applyPath path arguments) type
  | function {scope : Scope} {name : Ident} {arguments : List Expr} {parameters : List Parameter}
      {result : Ty} (hfn : HasFn code name parameters result)
      (h : AllTyped scope arguments (parameters.filterMap Parameter.type?)) :
      Typed scope (.applyPath (.single name.toText) arguments) result
  | start {scope : Scope} {owner : Ident} {name : String} {result : Ty}
      (himplements : Implements code none owner name [] result) :
      Typed scope (.applyPath (.member owner.toText name) []) result
  | converted {scope : Scope} {owner : Ident} {text : Expr}
      (himplements : Implements code (some fromText) owner "from" [.typed false "s" textType]
        selfType)
      (h : Typed scope text textType) :
      Typed scope (.applyPath (.member owner.toText "from") [text]) (.named owner.toText)
  | variant {scope : Scope} {union : Ident} {variant : String} {payload : Ty} {value : Expr}
      (hvariant : HasVariant code union variant (some payload)) (h : Typed scope value payload) :
      Typed scope (.applyPath (.member union.toText variant) [value]) (.named union.toText)
  | bareVariant {scope : Scope} {union : Ident} {variant : String}
      (hvariant : HasVariant code union variant none) :
      Typed scope (.path (.member union.toText variant)) (.named union.toText)
  | parsed {scope : Scope} {text : Expr} (kind : Scalar.Kind) (h : Typed scope text textType) :
      Typed scope (.apply (.ofTrait (kindType kind) (wire ["Primitive"]) "parse_wire") [text])
        (decoded (kindType kind))
  | libraryMethod {scope : Scope} {receiver : Expr} {name : String} {arguments : List Expr}
      {held self type : Ty} {types : List Ty} (hreceiver : Typed scope receiver held)
      (hself : Derefs held self) (hmethod : LibraryMethod self name types type)
      (h : AllTyped scope arguments types) : Typed scope (.method receiver name arguments) type
  | method {scope : Scope} {receiver : Expr} {owner : Ident} {name : String}
      {arguments : List Expr} {self : Receiver} {parameters : List Parameter} {result type : Ty}
      (hreceiver : Typed scope receiver (.named owner.toText))
      (himplements : Implements code none owner name (.receiver self :: parameters) result)
      (hstands : Stands owner result type)
      (h : AllTyped scope arguments (parameters.filterMap Parameter.type?)) :
      Typed scope (.method receiver name arguments) type
  /-- What an option holds, and its default if it holds nothing. -/
  | filled {scope : Scope} {receiver : Expr} {type : Ty} (hdefaults : HasDefault type)
      (h : Typed scope receiver (optionOf type)) :
      Typed scope (.method receiver "get_or_insert_with" [defaultValue]) (.reference none true type)
  | field {scope : Scope} {base : Expr} {held : Ty} {owner : Ident} {name : String} {type : Ty}
      (hbase : Typed scope base held) (hself : Derefs held (.named owner.toText))
      (hfield : HasField code owner name type) : Typed scope (.field base name) type
  /-- Errors of building become errors of decoding. -/
  | attempt {scope : Scope} {inner : Expr} {type error : Ty}
      (herror : error = decodeError ∨ error = buildError)
      (h : Typed scope inner (resultOf type error)) : Typed scope (.attempt inner) type
  | reference {scope : Scope} {inner : Expr} {type : Ty} (isMutable : Bool)
      (h : Typed scope inner type) :
      Typed scope (.reference isMutable inner) (.reference none isMutable type)
  /-- A text that is held is borrowed where one is asked for. -/
  | borrowed {scope : Scope} {inner : Expr} (h : Typed scope inner stringType) :
      Typed scope (.reference false inner) textType
  | tuple {scope : Scope} {items : List Expr} {types : List Ty} (h : AllTyped scope items types) :
      Typed scope (.tuple items) (.tuple types)
  | incomplete {scope : Scope} {entry missing : Expr} (hentry : Typed scope entry stringType)
      (hmissing : Typed scope missing textType) :
      Typed scope (.record (wire ["DecodeError", "IncompleteEntry"])
        [.mk "entry" entry, .mk "missing" missing]) decodeError
  | assign {scope : Scope} {target value : Expr} {type : Ty} (htarget : Typed scope target type)
      (h : Typed scope value type) : Typed scope (.assign target value) unitType
  | block {scope : Scope} {statements : List Stmt} {type : Ty}
      (h : BodyTyped scope statements type) : Typed scope (.block statements) type
  | ifLet {scope bound : Scope} {pattern : Pattern} {value : Expr} {body : List Stmt} {held : Ty}
      (hvalue : Typed scope value held) (hbinds : Binds code pattern held bound)
      (h : BodyTyped (bound ++ scope) body unitType) :
      Typed scope (.ifLet pattern value body) unitType
  | whileLet {scope bound : Scope} {pattern : Pattern} {value : Expr} {body : List Stmt}
      {held : Ty} (hvalue : Typed scope value held) (hbinds : Binds code pattern held bound)
      (h : BodyTyped (bound ++ scope) body unitType) :
      Typed scope (.whileLet pattern value body) unitType
  | cases {scope : Scope} {value : Expr} {arms : List Arm} {held type : Ty}
      (hvalue : Typed scope value held) (h : ArmsTyped scope arms held type) :
      Typed scope (.cases value arms) type

/-- Expressions have types, in order. -/
inductive AllTyped : Scope → List Expr → List Ty → Prop
  | nil {scope : Scope} : AllTyped scope [] []
  | cons {scope : Scope} {value : Expr} {type : Ty} {values : List Expr} {types : List Ty}
      (h : Typed scope value type) (hrest : AllTyped scope values types) :
      AllTyped scope (value :: values) (type :: types)

/-- Statements have the type of what they give. -/
inductive BodyTyped : Scope → List Stmt → Ty → Prop
  | nil {scope : Scope} : BodyTyped scope [] unitType
  | last {scope : Scope} {value : Expr} {type : Ty} (h : Typed scope value type) :
      BodyTyped scope [.give value] type
  | give {scope : Scope} {value : Expr} {rest : List Stmt} {type : Ty}
      (h : Typed scope value unitType) (hmore : rest ≠ []) (hrest : BodyTyped scope rest type) :
      BodyTyped scope (.give value :: rest) type
  | run {scope : Scope} {value : Expr} {rest : List Stmt} {dropped type : Ty}
      (h : Typed scope value dropped) (hrest : BodyTyped scope rest type) :
      BodyTyped scope (.run value :: rest) type
  | bind {scope bound : Scope} {pattern : Pattern} {declared : Option Ty} {value : Expr}
      {rest : List Stmt} {held type : Ty} (hdeclared : declared = none ∨ declared = some held)
      (h : Typed scope value held) (hbinds : Binds code pattern held bound)
      (hrest : BodyTyped (bound ++ scope) rest type) :
      BodyTyped scope (.bind pattern declared value :: rest) type

/-- Arms take objects of a type and give what has another. -/
inductive ArmsTyped : Scope → List Arm → Ty → Ty → Prop
  | nil {scope : Scope} {held type : Ty} : ArmsTyped scope [] held type
  | free {scope bound : Scope} {pattern : Pattern} {body : Expr} {rest : List Arm} {held type : Ty}
      (hbinds : Binds code pattern held bound) (h : Typed (bound ++ scope) body type)
      (hrest : ArmsTyped scope rest held type) :
      ArmsTyped scope (.mk pattern none body :: rest) held type
  | guarded {scope bound : Scope} {pattern : Pattern} {guard body : Expr} {rest : List Arm}
      {held type : Ty} (hbinds : Binds code pattern held bound)
      (hguard : Typed (bound ++ scope) guard boolType) (h : Typed (bound ++ scope) body type)
      (hrest : ArmsTyped scope rest held type) :
      ArmsTyped scope (.mk pattern (some guard) body :: rest) held type

end

/-- The variables that a function starts with; its type is that of the object. -/
def Parameter.entry? (owner : Option Ident) : Parameter → Option (String × Ty)
  | .receiver .borrowed => owner.map fun ident ↦ ("self", .to (.named ident.toText))
  | .receiver _ => owner.map fun ident ↦ ("self", .named ident.toText)
  | .typed _ name type => some (name, type)

/-- The body of a function has the type of its result. -/
def Fn.Typed (function : Fn) : Prop :=
  BodyTyped code (function.parameters.filterMap (Parameter.entry? none)) function.body
    function.result

/-- The same for a function of a type. -/
def Fn.TypedFor (owner : Ident) (function : Fn) : Prop :=
  ∃ type, Stands owner function.result type ∧
    BodyTyped code (function.parameters.filterMap (Parameter.entry? (some owner))) function.body
      type

end Code

end WireShapes
