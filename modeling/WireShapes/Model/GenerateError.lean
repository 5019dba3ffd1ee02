/-!
# Generation errors

Why no bindings can be generated for a model, with the text shown for it.
-/

namespace WireShapes

inductive GenerateError
  | unknownShape (shape target : String)
  /-- A cycle through lists and maps only, which no named type can break. -/
  | anonymousCycle (shape : String)
  | invalidFlattening (shape member target : String)
  | invalidAttribute (shape member reason : String)
  | ambiguousBinding (shape first second outerName : String)
  | invalidMapKey (shape key : String)
  | reservedVariant (shape name : String)
  | duplicateIdent (shape name other ident : String)
  | invalidOperationShape (operation target : String)
deriving DecidableEq

namespace GenerateError

def message : GenerateError → String
  | .unknownShape shape target => shape ++ ": reference to unknown shape `" ++ target ++ "`"
  | .anonymousCycle shape =>
    shape ++ ": cycle through collections only, no named type can hold the indirection"
  | .invalidFlattening shape member target =>
    shape ++ "." ++ member ++ ": flattened member must target a list or a map, `" ++ target ++
      "` is neither"
  | .invalidAttribute shape member reason => shape ++ "." ++ member ++ ": " ++ reason
  | .ambiguousBinding shape first second outerName =>
    shape ++ ": members `" ++ first ++ "` and `" ++ second ++ "` both decode from " ++ outerName
  | .invalidMapKey shape key =>
    shape ++ ": map key `" ++ key ++ "` must be a string or an enum"
  | .reservedVariant shape name =>
    shape ++ ": `" ++ name ++ "` would collide with the generated `Unknown` variant"
  | .duplicateIdent shape name other ident =>
    shape ++ ": `" ++ name ++ "` and `" ++ other ++ "` produce the same identifier `" ++ ident ++
      "`"
  | .invalidOperationShape operation target =>
    "operation " ++ operation ++ ": `" ++ target ++ "` is not a structure"

end GenerateError

end WireShapes
