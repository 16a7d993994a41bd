import FilterEditor.Text.Basic

/-!
# Files

What the program asks of a file system, and a file system in memory: a tree of directories and text
files, known by the names on the way to them.
-/

namespace FilterEditor.CommandLine

/-- What is found under a path. -/
inductive Entry where
  | missing
  | directory
  /-- A file, with its content if that is a text. -/
  | file (content : Option Text)
deriving DecidableEq, Repr

/-- What the program asks of a file system; writing says whether it worked. -/
structure Files (m : Type → Type) where
  entry : Text → m Entry
  /-- Makes a directory and those around it that are missing. -/
  makeDirectories : Text → m Bool
  write : Text → Text → m Bool

/-- A path below another one. -/
def joinPath (base name : Text) : Text :=
  if base.isEmpty || base.getLast? == some '/' then base ++ name else base ++ '/' :: name

/-- The names on the way to a file or directory. -/
def pathNames (path : Text) : List Text :=
  (List.splitOn '/' path).filter fun name => !name.isEmpty && name != ['.']

/-- The path of the directory that holds a file. -/
def parentPath (path : Text) : Text :=
  (if path.head? == some '/' then ['/'] else []) ++ Text.join ['/'] (pathNames path).dropLast

/-- Whether a path can only be the path of a directory. -/
def namesDirectory (path : Text) : Bool :=
  match (List.splitOn '/' path).getLast? with
  | some name => name.isEmpty || name == ['.']
  | none => true

/-- A file system in memory: the directories and files below its root, with the names on the way to
them. Every directory on the way is listed itself. -/
structure FileTree where
  entries : List (List Text × Entry) := []
deriving DecidableEq, Repr

namespace FileTree

/-- What stands at the end of a way. -/
def find (names : List Text) (t : FileTree) : Entry :=
  if names.isEmpty then .directory else (t.entries.lookup names).getD .missing

/-- Puts something at the end of a way. -/
def put (names : List Text) (entry : Entry) (t : FileTree) : FileTree :=
  ⟨(names, entry) :: t.entries.filter (·.1 ≠ names)⟩

/-- Makes the directories along `names`, below those along `above`. -/
def makeAlong (above : List Text) : List Text → FileTree → Option FileTree
  | [], t => some t
  | name :: names, t =>
    let way := above ++ [name]
    match t.find way with
    | .missing => makeAlong way names (t.put way .directory)
    | .directory => makeAlong way names t
    | .file _ => none

/-- What is found under a path. -/
def entry (path : Text) (t : FileTree) : Entry :=
  match t.find (pathNames path) with
  | .file content => if namesDirectory path then .missing else .file content
  | found => if path.isEmpty then .missing else found

/-- Makes a directory and those around it that are missing. -/
def makeDirectories? (path : Text) (t : FileTree) : Option FileTree :=
  makeAlong [] (pathNames path) t

/-- Writes a file into a directory that is there. -/
def write? (path content : Text) (t : FileTree) : Option FileTree :=
  let names := pathNames path
  match t.find names.dropLast, t.find names with
  | .directory, .missing | .directory, .file _ =>
    if namesDirectory path then none else some (t.put names (.file content))
  | _, _ => none

/-- A file system with the given files and the directories that they need. -/
def ofFiles (files : List (Text × Text)) : FileTree :=
  files.foldl
    (fun t (path, content) =>
      let names := pathNames path
      ((makeAlong [] names.dropLast t).getD t).put names (.file content))
    {}

/-- A step that may fail, in which case nothing changes; says whether it worked. -/
def attempt (step : FileTree → Option FileTree) : StateM FileTree Bool := fun t =>
  match step t with
  | some t => (true, t)
  | none => (false, t)

/-- A file system in memory as the program sees it. -/
def files : Files (StateM FileTree) where
  entry path := fun t => (t.entry path, t)
  makeDirectories path := attempt (makeDirectories? path)
  write path content := attempt (write? path content)

end FileTree
end FilterEditor.CommandLine
