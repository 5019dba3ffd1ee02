import WireShapes.Text.Utf8
import WireShapes.Wire.StartTag

/-!
# Decoding errors

Everything that can go wrong while a payload is decoded, with the text shown for it.  Names that a
decoder does not know are never errors.
-/

namespace WireShapes.Wire

/-- Why a payload cannot be decoded. -/
inductive DecodeError
  | markup (fault : Xml.Fault)
  | attributeList (fault : Xml.AttributeFault)
  | encoding (fault : Text.Utf8.Fault)
  /-- The document has no root element. -/
  | noRoot
  /-- The document ends inside an element. -/
  | unterminated (element : String)
  | tooDeep (levels : Nat)
  | unexpectedElement (expected found : String)
  | missingElement (name : String)
  /-- A text that is no value of a scalar kind. -/
  | scalar (kind text : String)
  /-- A map entry without its key or its value. -/
  | incompleteEntry (entry missing : String)
  /-- A required member that was never set. -/
  | missingMember (shape member : String)
  /-- A call of something that the bindings in use do not declare. -/
  | undeclared (ident : String)
deriving DecidableEq

namespace DecodeError

def ofTagFault : TagFault → DecodeError
  | .attributeList fault => .attributeList fault
  | .reference fault => .markup (.reference fault)

def message : DecodeError → String
  | .markup fault => "malformed xml: " ++ fault.message
  | .attributeList fault => "malformed attribute: " ++ fault.message
  | .encoding fault => "document is not valid utf-8: " ++ fault.message
  | .noRoot => "document has no root element"
  | .unterminated element => "<" ++ element ++ "> is not terminated"
  | .tooDeep levels => "elements nest deeper than " ++ toString levels ++ " levels"
  | .unexpectedElement expected found => "expected <" ++ expected ++ ">, got <" ++ found ++ ">"
  | .missingElement name => "<" ++ name ++ "> was not found"
  | .scalar kind text => "invalid " ++ kind ++ ": " ++ Text.quoted text
  | .incompleteEntry entry missing => "map entry <" ++ entry ++ "> has no <" ++ missing ++ ">"
  | .missingMember shape member =>
    shape ++ ": required member `" ++ member ++ "` was never set"
  | .undeclared ident => "`" ++ ident ++ "` is not declared"

end DecodeError

end WireShapes.Wire
