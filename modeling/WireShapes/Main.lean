import WireShapes.Command.Run

/-!
# The command line

Reads the files that the arguments name, runs the command on them, and writes what it gives.
-/

open WireShapes.Command

/-- The reason that a failed operation on a file gives. -/
def failureReason : IO.Error → String
  | .noFileOrDirectory .. => FileFault.notFound.message
  | .inappropriateType _ code _ =>
    if code = 21 then FileFault.isDirectory.message else FileFault.notDirectory.message
  | .invalidArgument _ 36 _ => FileFault.nameTooLong.message
  | error => toString error

/-- What stands under a path, with everything below it. -/
partial def readNode (path : String) : IO Node := do
  let place := (← IO.currentDir) / path
  if ← place.isDir then
    match ← place.readDir.toBaseIO with
    | .ok entries =>
      return .directory (← entries.toList.mapM fun entry => do
        return (entry.fileName, ← readNode (entryPath path entry.fileName)))
    | .error error => return .lockedDirectory (failureReason error)
  else
    match ← (IO.FS.readBinFile place).toBaseIO with
    | .ok bytes => return .file bytes.toList
    | .error error => return .lockedFile (failureReason error)

/-- What a path leads to, or why it leads nowhere. -/
def findNode (path : String) : IO (Except String Node) := do
  match ← ((← IO.currentDir) / path).metadata.toBaseIO with
  | .ok _ => return .ok (← readNode path)
  | .error error => return .error (failureReason error)

/-- Reports what went wrong. -/
def fail (report : Report) : IO UInt32 := do
  IO.eprintln ("\n".intercalate report.lines)
  return 1

/-- Writes the bindings where the settings say. -/
def deliverText (out text : String) : IO UInt32 := do
  if out = "-" then
    IO.print text
    return 0
  match ← (IO.FS.writeFile out text).toBaseIO with
  | .ok _ => return 0
  | .error error => fail ⟨"write " ++ out, [failureReason error]⟩

def usage : String :=
  "Usage: gen [--out OUT] [--envelope bare|wrapped] [--no-error-wrapping] " ++
    "[--namespace-prefix NAMESPACE_PREFIX] MODELS..."

def main (arguments : List String) : IO UInt32 := do
  match Request.ofArguments arguments with
  | .refuse =>
    IO.eprintln usage
    return 2
  | .describe =>
    IO.println usage
    return 0
  | .generate settings =>
    let found ← settings.models.mapM fun path => return (path, ← findNode path)
    let find (path : String) : Except String Node :=
      (found.lookup path).getD (.error FileFault.notFound.message)
    match output find settings with
    | .error report => fail report
    | .ok text => deliverText (settings.out.getD "-") text
