import WireShapes.Model.Binding

/-!
# Arguments of the command

Options stand anywhere among the paths of models, each at most once; after `--` everything is a path.
The value of an option is what follows `=`, what follows the letter of a short one, or else the next
argument, which must not look like an option itself.  Arguments are read from left to right, and the
first that is wrong, or that asks for help, settles the matter.
-/

namespace WireShapes.Command

/-- What the command is told to do. -/
structure Settings where
  /-- Where the bindings go; `-` is the standard output. -/
  out : Option String := none
  envelope : Option Envelope := none
  bareErrors : Bool := false
  qualifier : Option String := none
  models : List String := []
deriving DecidableEq

/-- What the arguments come to. -/
inductive Request
  | generate (settings : Settings)
  /-- Asks for help or for the version. -/
  | describe
  | refuse
deriving DecidableEq

namespace Settings

/-- The protocol settings that the arguments choose. -/
def defaults (s : Settings) : Defaults :=
  { envelope := s.envelope.getD .bare, errorWrapping := !s.bareErrors, qualifier := s.qualifier }

/-- Sets something that must not be set yet. -/
def setOut? (s : Settings) (value : String) : Option Settings :=
  if s.out.isSome then none else some { s with out := some value }

def setEnvelope? (s : Settings) (value : String) : Option Settings :=
  if s.envelope.isSome then none
  else match value with
    | "bare" => some { s with envelope := some .bare }
    | "wrapped" => some { s with envelope := some .wrapped }
    | _ => none

def setQualifier? (s : Settings) (value : String) : Option Settings :=
  if s.qualifier.isSome then none else some { s with qualifier := some value }

def setBareErrors? (s : Settings) : Option Settings :=
  if s.bareErrors then none else some { s with bareErrors := true }

/-- A path is never empty. -/
def addModel? (s : Settings) (path : String) : Option Settings :=
  if path.isEmpty then none else some { s with models := s.models ++ [path] }

/-- At least one model has to be given. -/
def complete (s : Settings) : Request :=
  if s.models.isEmpty then .refuse else .generate s

end Settings

/-- An argument by its form. -/
inductive Argument
  /-- `--` -/
  | separator
  /-- `--name` or `--name=value` -/
  | long (name : List Char) (value : Option String)
  /-- `-` and at least one letter. -/
  | short (letters : List Char)
  | path (text : String)
deriving DecidableEq

/-- The form of an argument. -/
def Argument.ofText (text : String) : Argument :=
  match text.toList with
  | ['-', '-'] => .separator
  | '-' :: '-' :: rest =>
    match rest.dropWhile (· != '=') with
    | [] => .long rest none
    | _ :: value => .long (rest.takeWhile (· != '=')) (some (String.ofList value))
  | '-' :: letter :: rest => .short (letter :: rest)
  | _ => .path text

/-- What an argument does. -/
inductive Step
  /-- Goes on with changed settings. -/
  | go (settings : Option Settings)
  /-- Needs the next argument as a value. -/
  | wait (set : String → Option Settings)
  | stop (request : Request)

/-- Sets an option to the value attached to it, or waits for one. -/
def Step.withValue (set : String → Option Settings) : Option String → Step
  | some value => .go (set value)
  | none => .wait set

/-- What a long option does. -/
def longStep (s : Settings) (name : List Char) (value : Option String) : Step :=
  match String.ofList name, value with
  | "out", value => .withValue s.setOut? value
  | "envelope", value => .withValue s.setEnvelope? value
  | "namespace-prefix", value => .withValue s.setQualifier? value
  | "no-error-wrapping", none => .go s.setBareErrors?
  | "help", none | "version", none => .stop .describe
  | _, _ => .stop .refuse

/-- What short options behind one dash do. -/
def shortStep (s : Settings) : List Char → Step
  | ['o'] => .wait s.setOut?
  | 'o' :: '=' :: value => .go (s.setOut? (String.ofList value))
  | 'o' :: value => .go (s.setOut? (String.ofList value))
  | 'h' :: _ | 'V' :: _ => .stop .describe
  | _ => .stop .refuse

/-- Takes every argument as a path. -/
def readPaths (s : Settings) : List String → Request
  | [] => s.complete
  | path :: rest =>
    match s.addModel? path with
    | some s => readPaths s rest
    | none => .refuse

/-- Reads arguments from left to right. -/
def readArguments (s : Settings) : List String → Request
  | [] => s.complete
  | text :: rest =>
    let step : Step := match Argument.ofText text with
      | .separator => .stop (readPaths s rest)
      | .long name value => longStep s name value
      | .short letters => shortStep s letters
      | .path text => .go (s.addModel? text)
    match step with
    | .stop request => request
    | .go none => .refuse
    | .go (some s) => readArguments s rest
    | .wait set =>
      match rest with
      | [] => .refuse
      | value :: rest =>
        match Argument.ofText value with
        | .path value =>
          match set value with
          | some s => readArguments s rest
          | none => .refuse
        | _ => .refuse

/-- What the arguments of the command ask for. -/
def Request.ofArguments (arguments : List String) : Request :=
  readArguments {} arguments

end WireShapes.Command
