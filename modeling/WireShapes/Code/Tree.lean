/-!
# Generated code as a tree

The part of the target language that generated code is written in.  Declarations become trees, and
only trees become text: in one line (`Code/Words`) or laid out (`Code/Pieces`).
-/

namespace WireShapes.Code

/-- Names with `::` between them, and before them in an absolute path. -/
structure Path where
  absolute : Bool
  names : List String
deriving DecidableEq

/-- A path of a single name. -/
def Path.single (name : String) : Path := ⟨false, [name]⟩

/-- A variant or function of a type. -/
def Path.member (type name : String) : Path := ⟨false, [type, name]⟩

/-- An absolute path. -/
def Path.global (names : List String) : Path := ⟨true, names⟩

inductive Ty
  /-- A path, whose last name has arguments. -/
  | path (path : Path) (arguments : List Ty)
  | lifetime (name : String)
  | reference (lifetime : Option String) (mutable : Bool) (inner : Ty)
  | slice (item : Ty)
  | tuple (items : List Ty)

/-- A type without arguments. -/
def Ty.plain (path : Path) : Ty := .path path []

/-- A type with a single name. -/
def Ty.named (name : String) : Ty := .plain (.single name)

/-- An immutable reference. -/
def Ty.to (inner : Ty) : Ty := .reference none false inner

inductive Pattern
  /-- A name that is bound, or `_`. -/
  | name (name : String)
  | mutable (name : String)
  | text (value : String)
  | path (path : Path)
  | variant (path : Path) (fields : List Pattern)
  | tuple (items : List Pattern)

mutual

inductive Expr
  | path (path : Path)
  /-- A function of a trait for a type. -/
  | ofTrait (type : Ty) (trait : Path) (name : String)
  | text (value : String)
  | flag (value : Bool)
  /-- A call; in `open` ones a comma follows the last argument. -/
  | call (function : Expr) (arguments : List Expr) (isOpen : Bool)
  | method (receiver : Expr) (name : String) (arguments : List Expr)
  | field (base : Expr) (name : String)
  /-- Returns early with the error, if there is one. -/
  | attempt (inner : Expr)
  | reference (mutable : Bool) (inner : Expr)
  | array (items : List Expr)
  | tuple (items : List Expr)
  | record (type : Path) (fields : List Field)
  | assign (place value : Expr)
  /-- A use of a named abbreviation, written with `!`. -/
  | expand (name : String) (arguments : List Expr)
  | closure (parameter : String) (body : Expr)
  | block (statements : List Stmt)
  | ifThen (condition : Expr) (body : List Stmt)
  | ifLet (pattern : Pattern) (value : Expr) (body : List Stmt)
  | ifLetElse (pattern : Pattern) (value : Expr) (body otherwise : List Stmt)
  | whileLet (pattern : Pattern) (value : Expr) (body : List Stmt)
  | cases (value : Expr) (arms : List Arm)

/-- A field of a record with its value. -/
inductive Field
  | mk (name : String) (value : Expr)

inductive Stmt
  | bind (pattern : Pattern) (type : Option Ty) (value : Expr)
  /-- An expression whose value is dropped. -/
  | run (value : Expr)
  /-- An expression without a semicolon: the value of the block, or one that ends in a block. -/
  | give (value : Expr)

/-- An arm of a case distinction. -/
inductive Arm
  | mk (pattern : Pattern) (guard : Option Expr) (body : Expr)

end

/-- A line of documentation. -/
inductive DocLine
  /-- A line that the generated code has of its own. -/
  | own (text : String)
  /-- A line that stands in the model. -/
  | model (text : String)

/-- A mark before a declaration, with its arguments. -/
structure Mark where
  name : String
  arguments : List String

/-- What stands before a declaration. -/
structure Heading where
  docs : List DocLine := []
  mark : Option Mark := none

/-- The object of a method. -/
inductive Receiver
  | owned
  | changing
  | borrowed

inductive Parameter
  | receiver (receiver : Receiver)
  | typed (mutable : Bool) (name : String) (type : Ty)

structure Fn where
  heading : Heading := {}
  isPublic : Bool := true
  isConst : Bool := false
  name : String
  parameters : List Parameter
  /-- Whether a comma follows the last parameter. -/
  isOpen : Bool := false
  result : Ty
  body : List Stmt

structure RecordField where
  docs : List DocLine
  isPublic : Bool
  name : String
  type : Ty

structure Variant where
  docs : List DocLine
  name : String
  payload : Option Ty

/-- What an implementation holds. -/
inductive Part
  | fn (fn : Fn)
  | alias (name : String) (type : Ty)

inductive Decl
  | record (heading : Heading) (name : String) (fields : List RecordField)
  | choice (heading : Heading) (name : String) (variants : List Variant)
  | implementation (trait : Option Ty) (type : Ty) (members : List Part)
  | fn (fn : Fn)

/-! ## Short forms -/

namespace Expr

def name (name : String) : Expr := .path (.single name)

/-- A call without a comma after its last argument. -/
def apply (function : Expr) (arguments : List Expr) : Expr := .call function arguments false

/-- A call of a function or variant by its path. -/
def applyPath (path : Path) (arguments : List Expr) : Expr := apply (.path path) arguments

def some (value : Expr) : Expr := applyPath (.single "Some") [value]

def ok (value : Expr) : Expr := applyPath (.single "Ok") [value]

def error (value : Expr) : Expr := applyPath (.single "Err") [value]

def none : Expr := name "None"

def self : Expr := name "self"

end Expr

end WireShapes.Code
