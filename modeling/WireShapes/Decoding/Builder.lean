import WireShapes.Decoding.Value

/-!
# Builders

A builder holds the members of a structure that have been set so far.  Members can be set and unset,
and those that are collections can be added to.  `build` gives the structure, unless a required
member is not set.
-/

namespace WireShapes

open Wire (DecodeError)

/-- The members set so far, by model name. -/
structure Builder where
  members : List (String × Value)

namespace Builder

def empty : Builder := ⟨[]⟩

def get? (b : Builder) (member : String) : Option Value :=
  b.members.lookup member

/-- Sets a member, or unsets it. -/
def set (b : Builder) (member : String) (value : Option Value) : Builder :=
  match value with
  | some value => ⟨Table.put member value b.members⟩
  | none => ⟨b.members.filter fun entry => entry.1 != member⟩

/-- Adds an item to a list member. -/
def push (b : Builder) (member : String) (item : Value) : Builder :=
  let items := ((b.get? member).map Value.items).getD []
  b.set member (some (.list (items ++ [item])))

/-- Sets the value of a key of a map member. -/
def insert (b : Builder) (member : String) (key : Datum) (value : Value) : Builder :=
  let entries := ((b.get? member).map Value.entries).getD []
  b.set member (some (.map (Value.putEntry entries key value)))

/-- The members of a structure's fields, in declaration order. -/
def buildFields (b : Builder) (shape : String) :
    List Bindings.Field → Except DecodeError (List (String × Value))
  | [] => .ok []
  | field :: rest =>
    match b.get? field.member with
    | some value => ((field.member, value) :: ·) <$> buildFields b shape rest
    | none =>
      if field.required then .error (.missingMember shape field.member)
      else buildFields b shape rest

/-- The structure with the members set. -/
def build (b : Builder) (decl : Bindings.StructDecl) : Except DecodeError Value :=
  .struct <$> b.buildFields decl.shape decl.fields

end Builder

/-- A structure that describes a failure, on one line. -/
def Bindings.StructDecl.displayText (decl : Bindings.StructDecl) (value : Value) : String :=
  let message := do
    let display ← decl.display
    let field ← display.message
    let text ← value.member? field.member
    text.string?
  decl.shape ++ match message with | some text => ": " ++ text | none => ""

end WireShapes
