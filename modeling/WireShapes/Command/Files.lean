/-!
# Files

A tree of files under a working directory.  Paths are followed name by name: `.` stays, `..` goes
back, and going on from a file fails.  A path that leaves the working directory leads to what every
system has.
-/

namespace WireShapes.Command

/-- A file or directory. -/
inductive Node
  | file (bytes : List UInt8)
  | directory (entries : List (String × Node))
  /-- A file that cannot be read. -/
  | lockedFile (reason : String)
  /-- A directory that cannot be listed. -/
  | lockedDirectory (reason : String)

/-- Why a path leads nowhere. -/
inductive FileFault
  | notFound
  | notDirectory
  | isDirectory
  | nameTooLong
deriving DecidableEq

def FileFault.message : FileFault → String
  | .notFound => "No such file or directory (os error 2)"
  | .notDirectory => "Not a directory (os error 20)"
  | .isDirectory => "Is a directory (os error 21)"
  | .nameTooLong => "File name too long (os error 36)"

/-- The names of a path; slashes without a name between them give empty ones. -/
def pathNames (path : String) : List String :=
  path.splitOn "/"

/-- The longest name of a file in bytes. -/
def longestName : Nat := 255

/-- The longest path in bytes. -/
def longestPath : Nat := 4095

namespace Node

def isDirectory : Node → Bool
  | .directory _ | .lockedDirectory _ => true
  | _ => false

/-- The entries of a directory; nothing else has any. -/
def entries : Node → List (String × Node)
  | .directory entries => entries
  | _ => []

/-- What is known of the files outside the working directory. -/
def elsewhere : Node :=
  .directory [("dev", .directory [("null", .file [])]), ("tmp", .directory [])]

end Node

/-- A place that a path leads to. -/
structure Place where
  /-- Whether the place is in the working directory. -/
  inside : Bool
  /-- The directories on the way, with the names taken there, the nearest first. -/
  above : List (String × Node)
  here : Node

namespace Place

/-- The names from the working directory to the place. -/
def names (place : Place) : List String := place.above.reverse.map Prod.fst

/-- Goes on by one name. -/
def enter (place : Place) (name : String) : Except FileFault Place :=
  if !place.here.isDirectory then .error .notDirectory
  else match name with
    | "" | "." => .ok place
    | ".." =>
      match place.above with
      | [] => .ok ⟨false, [], .directory []⟩
      | (_, parent) :: above => .ok { place with above, here := parent }
    | name =>
      if longestName < name.utf8ByteSize then .error .nameTooLong
      else match place.here.entries.lookup name with
        | some node => .ok { place with above := (name, place.here) :: place.above, here := node }
        | none => .error .notFound

/-- The place where a path starts. -/
def start (root : Node) (path : String) : Except FileFault Place :=
  if path.isEmpty then .error .notFound
  else if longestPath < path.utf8ByteSize then .error .nameTooLong
  else if path.startsWith "/" then .ok ⟨false, [], Node.elsewhere⟩
  else .ok ⟨true, [], root⟩

end Place

namespace Node

/-- The place that a path leads to. -/
def locate (root : Node) (path : String) : Except FileFault Place := do
  (pathNames path).foldlM Place.enter (← Place.start root path)

/-- What a path leads to. -/
def find (root : Node) (path : String) : Except FileFault Node :=
  Place.here <$> root.locate path

/-- Replaces an entry, or adds it. -/
def putEntry (name : String) (change : Option Node → Node) :
    List (String × Node) → List (String × Node)
  | [] => [(name, change none)]
  | (other, node) :: rest =>
    if other = name then (name, change (some node)) :: rest
    else (other, node) :: putEntry name change rest

/-- Puts a file under a path of names; directories on the way are made. -/
def put (bytes : List UInt8) : List String → Node → Node
  | [], _ => .file bytes
  | name :: rest, node =>
    .directory (putEntry name (fun entry => put bytes rest (entry.getD (.directory [])))
      node.entries)

/-- Writes a file into a directory that exists.  What is written elsewhere is not seen here. -/
def write (root : Node) (path : String) (bytes : List UInt8) : Except FileFault Node := do
  let names := (pathNames path).filter fun name => name ≠ ""
  let last := names.getLastD "."
  let parent ← names.dropLast.foldlM Place.enter (← Place.start root path)
  if !parent.here.isDirectory then .error .notDirectory
  else if last ∈ [".", ".."] ∨ path.endsWith "/" then .error .isDirectory
  else if longestName < last.utf8ByteSize then .error .nameTooLong
  else if (parent.here.entries.lookup last).any isDirectory then .error .isDirectory
  else if parent.inside then .ok (put bytes (parent.names ++ [last]) root)
  else .ok root

end Node

/-- Whether a file's name ends in `.xml` after something else. -/
def isModelName (name : String) : Bool :=
  match name.toList.reverse with
  | 'l' :: 'm' :: 'x' :: '.' :: _ :: _ => true
  | _ => false

/-- An entry of a directory as a path. -/
def entryPath (directory name : String) : String :=
  if directory.endsWith "/" then directory ++ name else directory ++ "/" ++ name

/-- A file to load, or the reason why something cannot be read. -/
inductive Source
  | file (path : String) (bytes : List UInt8)
  | locked (context reason : String)
deriving DecidableEq

mutual

/-- The files below a node, in the order of their names. -/
def Node.sources (path : String) : Node → List Source
  | .file bytes => [.file path bytes]
  | .lockedFile reason => [.locked ("read " ++ path) reason]
  | .lockedDirectory reason => [.locked ("read dir " ++ path) reason]
  | .directory entries =>
    ((entrySources path entries).mergeSort fun a b => a.1 ≤ b.1).flatMap Prod.snd

/-- The model files below each entry of a directory. -/
def entrySources (path : String) : List (String × Node) → List (String × List Source)
  | [] => []
  | (name, node) :: rest =>
    let place := entryPath path name
    if longestPath < place.utf8ByteSize then
      if isModelName name then
        (name, [.locked ("stat " ++ place) FileFault.nameTooLong.message]) ::
          entrySources path rest
      else entrySources path rest
    else if node.isDirectory || isModelName name then
      (name, node.sources place) :: entrySources path rest
    else entrySources path rest

end

end WireShapes.Command
