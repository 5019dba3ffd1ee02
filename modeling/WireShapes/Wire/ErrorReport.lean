import WireShapes.Wire.Reading

/-!
# Error documents

Every error document carries a report: a code, a message, a kind and a request id, each optional.
Wrapped, the report is the `Error` element inside an `ErrorResponse` root; otherwise the root itself
is `Error`.  `ErrorReport.parse` reads the report, `inErrorElement` runs a decoder on the `Error`
element for the members that are particular to one error.
-/

namespace WireShapes.Wire

/-- The fields of an error, whether or not its code is known. -/
structure ErrorReport where
  code : Option String := none
  message : Option String := none
  /-- The side at fault, when the service says. -/
  kind : Option String := none
  requestId : Option String := none
deriving DecidableEq

namespace ErrorReport

/-- Sets the field that an element of the report names, if it names one. -/
def set? (report : ErrorReport) (field : String) : Option (String → ErrorReport) :=
  match field with
  | "Code" => some fun text => { report with code := some text }
  | "Message" => some fun text => { report with message := some text }
  | "Type" => some fun text => { report with kind := some text }
  | "RequestId" => some fun text => { report with requestId := some text }
  | _ => none

/-- Reads one child of the `Error` element. -/
def readField (report : ErrorReport) (child : Element) : Reading ErrorReport :=
  match report.set? child.start.name.base with
  | some set => do return set (← child.text)
  | none => pure report

/-- Reads the fields inside an `Error` element. -/
def readFields (report : ErrorReport) (e : Element) : Reading ErrorReport :=
  e.foldChildren readField report

/-- Reads one child of an `ErrorResponse`: the first `Error`, or a request id. -/
def readResponse (state : Bool × ErrorReport) (child : Element) : Reading (Bool × ErrorReport) :=
  let (found, report) := state
  if !found && child.start.matchesPattern "Error" then do
    return (true, ← report.readFields child)
  else if child.start.matchesPattern "RequestId" then do
    let text ← child.text
    return (found, { report with requestId := some text })
  else pure state

/-- The report of an error document. -/
def read (wrapped : Bool) (root : Element) : Reading ErrorReport :=
  if wrapped then do
    Reading.give (root.expect "ErrorResponse")
    let (found, report) ← root.foldChildren readResponse (false, {})
    if found then return report else Reading.fail (.missingElement "Error")
  else do
    Reading.give (root.expect "Error")
    readFields {} root

/-- The report of an error document given as bytes. -/
def parse (bytes : List UInt8) (wrapped : Bool) : Except DecodeError ErrorReport :=
  decodeRoot bytes (read wrapped)

/-- The report on one line. -/
def toText (report : ErrorReport) : String :=
  report.code.getD "unknown error" ++
    (match report.message with | some text => ": " ++ text | none => "") ++
    (match report.requestId with | some id => " (request id " ++ id ++ ")" | none => "")

end ErrorReport

/-- Runs a decoder on the `Error` element of a document whose root is in hand. -/
def readErrorElement (wrapped : Bool) (decode : Element → Reading α) (root : Element) : Reading α :=
  if wrapped then do
    Reading.give (root.expect "ErrorResponse")
    match ← root.firstChild fun start => start.matchesPattern "Error" with
    | some error => decode error
    | none => Reading.fail (.missingElement "Error")
  else do
    Reading.give (root.expect "Error")
    decode root

/-- Runs a decoder on the `Error` element of an error document given as bytes. -/
def inErrorElement (bytes : List UInt8) (wrapped : Bool) (decode : Element → Reading α) :
    Except DecodeError α :=
  decodeRoot bytes (readErrorElement wrapped decode)

end WireShapes.Wire
