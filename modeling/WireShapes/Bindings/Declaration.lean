import WireShapes.Code.Ident
import WireShapes.Model.Symbol

/-!
# Declarations of generated code

What generated code declares, before it is written out: the types for structures, unions and
enumerations, an error enumeration for each operation, a decoder for each shape that needs one, and
the entry points of the operations.  Each declaration holds every identifier and type that its text
shows, so that statements about the code can be made about declarations; and each decoder can be run
as it stands.
-/

namespace WireShapes.Bindings

open Code (Ident)
open Scalar (Kind)

/-! ## Types -/

/-- The builder method that adds to a collection member. -/
inductive Adder
  | push (method : Ident) (item : TypeExpr)
  | insert (method : Ident) (key value : TypeExpr)
deriving DecidableEq

/-- A field of a structure, with its builder methods.  The setter named like the field takes a
value, the other one an option. -/
structure Field where
  member : String
  doc : Option String
  required : Bool
  ident : Ident
  setter : Ident
  getter : Ident
  type : TypeExpr
  adder : Option Adder
deriving DecidableEq

/-- How a structure that describes a failure is displayed: its name, and its message if it has a
member for one. -/
structure Display where
  message : Option Field
deriving DecidableEq

/-- A structure and its builder. -/
structure StructDecl where
  shape : String
  doc : Option String
  ident : Ident
  builder : Ident
  fields : List Field
  display : Option Display
deriving DecidableEq

/-- A variant of a union, with its accessors. -/
structure UnionCase where
  member : String
  doc : Option String
  variant : Ident
  asMethod : Ident
  isMethod : Ident
  type : TypeExpr
deriving DecidableEq

structure UnionDecl where
  shape : String
  doc : Option String
  ident : Ident
  cases : List UnionCase
deriving DecidableEq

/-- A value of an enumeration. -/
structure EnumCase where
  name : String
  doc : Option String
  variant : Ident
  literal : String
deriving DecidableEq

structure EnumDecl where
  shape : String
  doc : Option String
  ident : Ident
  cases : List EnumCase
deriving DecidableEq

/-- The type generated for a shape. -/
inductive TypeDecl
  | struct (decl : StructDecl)
  | union (decl : UnionDecl)
  | enum (decl : EnumDecl)
deriving DecidableEq

/-- An error of an operation. -/
structure ErrorCase where
  shape : String
  variant : Ident
  type : TypeExpr
deriving DecidableEq

/-- The errors of an operation, and one more for codes the model does not describe. -/
structure OperationErrorDecl where
  operation : String
  ident : Ident
  cases : List ErrorCase
deriving DecidableEq

/-! ## Decoders -/

/-- How a text becomes a value. -/
inductive TextSource
  | string
  | scalar (kind : Kind)
  | enum (type : Ident)
deriving DecidableEq

/-- How an element becomes a value: by its text, by a structure's decoder and a builder, or by the
decoder of another shape. -/
inductive Source
  | text (source : TextSource)
  | struct (decoder type : Ident)
  | shape (decoder : Ident)
deriving DecidableEq

/-- A source, and whether its value is put into a box. -/
structure Boxing (σ : Type) where
  source : σ
  boxed : Bool
deriving DecidableEq

/-- Reads a member from an attribute. -/
structure AttributeArm where
  pattern : String
  member : String
  setter : Ident
  value : Boxing TextSource
deriving DecidableEq

/-- What a child does to the builder of a structure. -/
inductive StructAction
  | set (setter : Ident) (value : Boxing Source)
  | push (method : Ident) (item : Boxing Source)
  | insert (method : Ident) (entry : Ident)
deriving DecidableEq

structure StructArm where
  pattern : String
  member : String
  action : StructAction
deriving DecidableEq

structure StructDecoder where
  shape : String
  ident : Ident
  builder : Ident
  attributes : List AttributeArm
  arms : List StructArm
deriving DecidableEq

/-- What a child does to the value of a union.  A flattened variant gathers its siblings. -/
inductive UnionAction
  | set (value : Boxing Source)
  | push (item : Boxing Source)
  | insert (entry : Ident)
deriving DecidableEq

structure UnionArm where
  pattern : String
  member : String
  variant : Ident
  action : UnionAction
deriving DecidableEq

structure UnionDecoder where
  shape : String
  ident : Ident
  type : Ident
  arms : List UnionArm
deriving DecidableEq

structure ListDecoder where
  shape : String
  ident : Ident
  type : TypeExpr
  pattern : String
  item : Boxing Source
deriving DecidableEq

/-- The decoder of a map, and the decoder of one entry, which flattened members share. -/
structure MapDecoder where
  shape : String
  ident : Ident
  entryIdent : Ident
  type : TypeExpr
  keyType : TypeExpr
  valueType : TypeExpr
  entryPattern : String
  keyPattern : String
  valuePattern : String
  key : Boxing TextSource
  value : Boxing Source
deriving DecidableEq

/-- The decoder generated for a shape. -/
inductive DecoderDecl
  | struct (decl : StructDecoder)
  | union (decl : UnionDecoder)
  | list (decl : ListDecoder)
  | map (decl : MapDecoder)
deriving DecidableEq

/-! ## Operations -/

/-- The entry point for an operation's input. -/
structure InputDecl where
  ident : Ident
  type : Ident
  decoder : Ident
  root : String
deriving DecidableEq

/-- Where the output of an operation is. -/
inductive OutputPlace
  | root (pattern : String)
  | result (response result : String)
deriving DecidableEq

/-- The entry point for an operation's output. -/
structure OutputDecl where
  ident : Ident
  type : Ident
  decoder : Ident
  place : OutputPlace
deriving DecidableEq

/-- An error that a code selects. -/
structure CodeCase where
  code : String
  shape : String
  variant : Ident
  type : Ident
  decoder : Ident
deriving DecidableEq

/-- The entry point for an operation's errors. -/
structure FailureDecl where
  ident : Ident
  type : Ident
  wrapped : Bool
  cases : List CodeCase
deriving DecidableEq

structure OperationDecl where
  operation : String
  input : Option InputDecl
  output : Option OutputDecl
  failure : FailureDecl
deriving DecidableEq

end WireShapes.Bindings

namespace WireShapes

/-- All that generated code declares, in order. -/
structure Bindings where
  types : List Bindings.TypeDecl
  errors : List Bindings.OperationErrorDecl
  decoders : List Bindings.DecoderDecl
  operations : List Bindings.OperationDecl
deriving DecidableEq

end WireShapes
