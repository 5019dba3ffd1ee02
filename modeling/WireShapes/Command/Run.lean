import WireShapes.Bindings.OperationCode
import WireShapes.Bindings.OfModel
import WireShapes.Code.Pieces
import WireShapes.Command.Arguments
import WireShapes.Command.Files
import WireShapes.Model.Loader

/-!
# Running the command

The command loads every model it is given, in order, merges them, and writes the bindings under a
header.  What goes wrong is reported with what was being done, followed by its causes.
-/

namespace WireShapes.Command

/-- The first line of generated files. -/
def header : String := "// Code generated by xml-bindgen. DO NOT EDIT.\n"

/-- What went wrong. -/
structure Report where
  context : String
  causes : List String
deriving DecidableEq

namespace Report

/-- A cause with its first line after a mark, and the others as far in. -/
def indented (mark : String) (cause : String) : List String :=
  match cause.splitOn "\n" with
  | [] => []
  | first :: rest =>
    (mark ++ first) :: rest.map fun line => String.ofList (List.replicate mark.length ' ') ++ line

/-- The mark of a numbered cause. -/
def numberMark (number : Nat) : String :=
  let digits := toString number
  String.ofList (List.replicate (5 - digits.length) ' ') ++ digits ++ ": "

/-- Causes numbered from a number on. -/
def numbered (number : Nat) : List String → List String
  | [] => []
  | cause :: rest => indented (numberMark number) cause ++ numbered (number + 1) rest

/-- The causes, numbered if there are several. -/
def causeLines : List String → List String
  | [] => []
  | [cause] => "" :: "Caused by:" :: indented "    " cause
  | causes => "" :: "Caused by:" :: numbered 0 causes

/-- The report line by line. -/
def lines (report : Report) : List String :=
  ("Error: " ++ report.context).splitOn "\n" ++ causeLines report.causes

end Report

/-- Loads one source into a model. -/
def loadSource (model : Model) : Source → Except Report Model
  | .locked context reason => .error ⟨context, [reason]⟩
  | .file path bytes =>
    match Model.ofBytes bytes with
    | .error error => .error ⟨"parse " ++ path, error.message :: error.causes⟩
    | .ok loaded =>
      match model.merge loaded with
      | (model, none) => .ok model
      | (_, some name) =>
        .error ⟨"merge " ++ path, [(LoadError.duplicateShape name).message]⟩

/-- Loads what a path leads to into a model. -/
def loadPath (find : String → Except String Node) (model : Model) (path : String) :
    Except Report Model :=
  match find path with
  | .error reason => .error ⟨"stat " ++ path, [reason]⟩
  | .ok node => (node.sources path).foldlM loadSource model

/-- The text of the bindings for a model. -/
def bindingsText (model : Model) (defaults : Defaults) : Except GenerateError String :=
  (fun bindings => Code.toText bindings.code) <$> model.bindings defaults

/-- The text of the bindings that settings ask for. -/
def output (find : String → Except String Node) (settings : Settings) : Except Report String := do
  let model ← settings.models.foldlM (loadPath find) Model.fresh
  match bindingsText model settings.defaults with
  | .error error => .error ⟨"generate bindings", [error.message]⟩
  | .ok text => .ok (header ++ text)

/-- What the command leaves: its exit code, the text it prints, its report, and the files. -/
structure Outcome where
  code : Nat
  printed : String := ""
  report : Option Report := none
  files : Node

/-- Writes a text where the settings say. -/
def deliver (files : Node) (out text : String) : Outcome :=
  if out = "-" then { code := 0, printed := text, files }
  else match files.write out text.toUTF8.toList with
    | .ok files => { code := 0, files }
    | .error fault => { code := 1, report := some ⟨"write " ++ out, [fault.message]⟩, files }

/-- Runs the command in a directory. -/
def run (files : Node) (arguments : List String) : Outcome :=
  match Request.ofArguments arguments with
  | .refuse => { code := 2, files }
  | .describe => { code := 0, files }
  | .generate settings =>
    let find (path : String) := (files.find path).mapError FileFault.message
    match output find settings with
    | .error report => { code := 1, report := some report, files }
    | .ok text => deliver files (settings.out.getD "-") text

end WireShapes.Command
