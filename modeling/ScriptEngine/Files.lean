import ScriptEngine.Text.Utf8

namespace ScriptEngine

/-!
# Files

A file tree is what a run can see of the disk: the files and folders, each told by
the names on the way to it from the root, and the folder the run works in.  Paths
are followed name by name, so a path through a file, or through a name that is not
there, leads nowhere even when a later `..` would lead out of it again.
-/

namespace Path

/-- The names between the slashes of a path. -/
def names (path : String) : List String :=
  (Text.splitAt '/' path.toList).map String.ofList

/-- Whether a path starts at the root. -/
def isRooted (path : String) : Bool :=
  Text.startsWith path "/"

/-- Add a name to the names so far, last one first; `..` takes the last one back. -/
def push (rooted : Bool) (done : List String) (name : String) : List String :=
  if name = "" || name = "." then done
  else if name = ".." then
    match done with
    | [] => if rooted then [] else [".."]
    | last :: rest => if last = ".." then ".." :: done else rest
  else name :: done

/-- The shortest path that means the same, read without looking at the disk. -/
def clean (path : String) : String :=
  let rooted := isRooted path
  let shown := "/".intercalate ((names path).foldl (push rooted) []).reverse
  if rooted then "/" ++ shown else if shown.isEmpty then "." else shown

/-- The path from the root, for a path that may start at `directory`. -/
def absolute (directory path : String) : String :=
  if isRooted path then clean path else clean (directory ++ "/" ++ path)

end Path

/-- What stands at a place of a tree. -/
inductive FileEntry where
  | file (content : ByteArray)
  | folder

/-- Why a path does not lead to what is asked for. -/
inductive FileProblem where
  | missing
  | notFolder
  | folder
  | longName
  | badName
  deriving DecidableEq, Repr

namespace FileProblem

/-- The wording of a problem. -/
def reason : FileProblem → String
  | missing => "no such file or directory"
  | notFolder => "not a directory"
  | folder => "is a directory"
  | longName => "file name too long"
  | badName => "invalid argument"

end FileProblem

/-- What was tried with a file. -/
inductive FileAction where
  | opening
  | reading
  deriving DecidableEq, Repr

namespace FileAction

/-- The word for an action. -/
def word : FileAction → String
  | opening => "open"
  | reading => "read"

end FileAction

/-- An action on a path that failed. -/
structure FileFault where
  action : FileAction
  path : String
  problem : FileProblem
  deriving DecidableEq, Repr

namespace FileFault

/-- The wording of a fault. -/
def message (fault : FileFault) : String :=
  fault.action.word ++ " " ++ fault.path ++ ": " ++ fault.problem.reason

end FileFault

/-- The files and folders by the names that lead to them, and the working folder. -/
structure FileTree where
  directory : String
  entries : List (List String × FileEntry) := []

namespace FileTree

/-- The most bytes of a name. -/
def nameLimit : Nat :=
  255

/-- The most bytes of a path. -/
def pathLimit : Nat :=
  4095

/-- The names that lead to the working folder. -/
def directoryNames (tree : FileTree) : List String :=
  (Path.names tree.directory).filter (· ≠ "")

/-- What stands at a place; a place on the way to another one is a folder. -/
def entry? (tree : FileTree) (place : List String) : Option FileEntry :=
  match tree.entries.lookup place with
  | some entry => some entry
  | none =>
      if place.isPrefixOf tree.directoryNames ||
          tree.entries.any (fun entry => place.isPrefixOf entry.1) then some .folder
      else none

/-- The place a name in a folder leads to, and what stands there. -/
def follow (tree : FileTree) (place : List String) (name : String) :
    Except FileProblem (List String × FileEntry) :=
  if name = "" || name = "." then .ok (place, .folder)
  else if name = ".." then .ok (place.dropLast, .folder)
  else if nameLimit < name.utf8ByteSize then .error .longName
  else
    match tree.entry? (place ++ [name]) with
    | some entry => .ok (place ++ [name], entry)
    | none => .error .missing

/-- The folder that names lead to. -/
def descend (tree : FileTree) : List String → List String → Except FileProblem (List String)
  | place, [] => .ok place
  | place, name :: rest =>
      match tree.follow place name with
      | .ok (next, .folder) => descend tree next rest
      | .ok (_, .file _) => .error .notFolder
      | .error problem => .error problem

/-- The place where a path starts. -/
def origin (tree : FileTree) (path : String) : List String :=
  if Path.isRooted path then [] else tree.directoryNames

/-- Why a path cannot be followed at all, whatever the tree. -/
def pathProblem? (path : String) : Option FileProblem :=
  if Text.holds path (Char.ofNat 0) then some .badName
  else if path.isEmpty then some .missing
  else if pathLimit < path.utf8ByteSize then some .longName
  else none

/-- What a path leads to. -/
def find (tree : FileTree) (path : String) : Except FileProblem FileEntry :=
  match pathProblem? path with
  | some problem => .error problem
  | none =>
      let names := Path.names path
      match tree.descend (tree.origin path) names.dropLast with
      | .error problem => .error problem
      | .ok place => (tree.follow place (names.getLast?.getD "")).map Prod.snd

/-- The content of the file a path leads to. -/
def read (tree : FileTree) (path : String) : Except FileFault ByteArray :=
  match tree.find path with
  | .error problem => .error ⟨.opening, path, problem⟩
  | .ok .folder => .error ⟨.reading, path, .folder⟩
  | .ok (.file content) => .ok content

/-- The place of the file a path leads to, which need not be there yet, and its content. -/
def target (tree : FileTree) (path : String) :
    Except FileProblem (List String × ByteArray) :=
  match pathProblem? path with
  | some problem => .error problem
  | none =>
      let names := Path.names path
      let kept := (names.reverse.dropWhile (· = "")).reverse
      match tree.descend (tree.origin path) kept.dropLast with
      | .error problem => .error problem
      | .ok place =>
          match tree.follow place (kept.getLast?.getD "") with
          | .ok (_, .folder) => .error .folder
          | .ok (found, .file content) =>
              if kept.length < names.length then .error .folder else .ok (found, content)
          | .error .missing =>
              if kept.length < names.length then .error .folder
              else .ok (place ++ kept.getLast?.toList, .empty)
          | .error problem => .error problem

/-- Put a file at a place. -/
def put (tree : FileTree) (place : List String) (content : ByteArray) : FileTree :=
  { tree with entries := (place, .file content) :: tree.entries.filter (·.1 ≠ place) }

/-- Put a file at a path from the working folder. -/
def add (tree : FileTree) (path : String) (content : ByteArray) : FileTree :=
  tree.put (tree.origin path ++ (Path.names path).filter (· ≠ "")) content

/-- Write at the end of the file a path leads to. -/
def append (tree : FileTree) (path text : String) : Except FileFault FileTree :=
  match tree.target path with
  | .ok (place, content) => .ok (tree.put place (content ++ text.toUTF8))
  | .error problem => .error ⟨.opening, path, problem⟩

end FileTree

end ScriptEngine
