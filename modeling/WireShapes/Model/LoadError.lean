import WireShapes.Text.Utf8
import WireShapes.Xml.Fault

/-!
# Loading errors

What keeps a model document from being loaded, with the text shown for it.
-/

namespace WireShapes

/-- Why a model document cannot be loaded. -/
inductive LoadError
  | markup (fault : Xml.Fault)
  | attributeList (fault : Xml.AttributeFault)
  | encoding (fault : Text.Utf8.Fault)
  | unexpected (expected found : String)
  | missingAttribute (element key : String)
  | invalidAttribute (element key value : String)
  | duplicateShape (name : String)
  /-- The document ends before the model does. -/
  | unfinished
deriving DecidableEq

namespace LoadError

def message : LoadError → String
  | .markup fault => "malformed xml: " ++ fault.message
  | .attributeList fault => "malformed attribute: " ++ fault.message
  | .encoding fault => "model is not valid utf-8: " ++ fault.message
  | .unexpected expected found => "expected " ++ expected ++ ", got <" ++ found ++ ">"
  | .missingAttribute element key => "<" ++ element ++ "> is missing attribute `" ++ key ++ "`"
  | .invalidAttribute element key value =>
    "<" ++ element ++ ">: invalid value " ++ Text.quoted value ++ " for `" ++ key ++ "`"
  | .duplicateShape name => "shape `" ++ name ++ "` is declared twice"
  | .unfinished => "unexpected end of model"

/-- The errors beneath this one, outermost first. -/
def causes : LoadError → List String
  | .markup fault =>
    match fault with
    | .scan _ => [fault.message]
    | .reference inner => [fault.message, inner.message]
  | .attributeList fault => [fault.message]
  | .encoding fault => [fault.message]
  | _ => []

end LoadError

end WireShapes
