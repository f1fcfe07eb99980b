import TabCompletion.Host.FileTree
import TabCompletion.Host.Path

/-!
# The file system of a process

A tree of files and the working directory in it. An absolute path is looked up from the root, any
other one from the working directory. Looking up fails as on Linux: if a name on the way does not
exist or is no directory, if the process may not search a directory on the way, or if a name or the
path is too long. There are no links.

* `find` gives what a path names; a path that ends in `/` names a directory.
* `list` and `read` ask for the right to read what has been found.
* `write` puts a text into a file, new or not.
-/

namespace TabCompletion

open Text

/-- The tree of all files, and the names that lead from its root to the working directory. -/
structure FileSystem where
  root : FileTree
  working : List String
deriving Inhabited

namespace FileSystem

/-- The bytes that a path may have. -/
def maxPath : Nat := 4095

/-- The file system of which nothing is known but what lies below the working directory. -/
def below (working : List String) (tree : FileTree) : FileSystem :=
  ⟨working.foldr (fun name t => .directory .all [(name, t)]) tree, working⟩

/-! ## 1. Looking up -/

/-- What is wrong with a path before any name of it is looked up. -/
def pathFault? (path : String) : Option FileFault :=
  if contains path '\x00' then some .nulInName
  else if path.isEmpty then some .notFound
  else if maxPath < path.utf8ByteSize then some .nameTooLong
  else none

/-- Where the look-up of a path begins, with the directories above. -/
def start? (fs : FileSystem) (path : String) : Option (List FileTree × FileTree) :=
  if Path.isAbsolute path then some ([], fs.root) else fs.root.place? [] fs.working

/-- What a list of names leads to from where the look-up of a path begins. -/
def followFrom (fs : FileSystem) (path : String) (names : List String) :
    Except FileFault FileTree :=
  match fs.start? path with
  | some (above, here) => here.follow above names
  | none => .error .notFound

/-- What a path names. -/
def find (fs : FileSystem) (path : String) : Except FileFault FileTree :=
  match pathFault? path with
  | some f => .error f
  | none => fs.followFrom path (splitAll '/' path)

/-- Whether a path names anything. -/
def has (fs : FileSystem) (path : String) : Bool :=
  match fs.find path with
  | .ok _ => true
  | .error _ => false

/-- Whether a path names a directory. A path that cannot be followed names none. -/
def isDirectory (fs : FileSystem) (path : String) : Bool :=
  match fs.find path with
  | .ok t => t.isDirectory
  | .error _ => false

/-- Whether the names in the directory of a path can be followed. -/
def isSearchable (fs : FileSystem) (path : String) : Bool :=
  match fs.find path with
  | .ok (.directory rights _) => rights.search
  | _ => false

/-- The entries of the directory that a path names. -/
def list (fs : FileSystem) (path : String) : Except FileFault (List (String × FileTree)) := do
  match ← fs.find path with
  | .file _ _ => .error .notDirectory
  | .directory rights es => if rights.read then .ok es else .error .accessDenied

/-- The text of the file that a path names. -/
def read (fs : FileSystem) (path : String) : Except FileFault String := do
  let t ← fs.find path
  if !t.rights.read then .error .accessDenied
  else match t with
    | .file _ text => .ok text
    | .directory _ _ => .error .isDirectory

/-- The names of a path, those of the working directory first if it is relative. -/
def names (fs : FileSystem) (path : String) : List String :=
  if Path.isAbsolute path then splitAll '/' path else fs.working ++ splitAll '/' path

/-- The absolute path of what a path names, without detours. -/
def absolute (fs : FileSystem) (path : String) : String :=
  "/" ++ joinWith "/" (Path.resolvedNames (fs.names path))

/-! ## 2. Writing -/

/-- Why a file cannot be written at a path, if it cannot. A path that ends in `/` names a directory
    even if there is none. -/
def createFault? (fs : FileSystem) (path : String) : Option FileFault :=
  match pathFault? path with
  | some f => some f
  | none =>
    match (splitAll '/' path).reverse.dropWhile (·.isEmpty) with
    | [] => some .isDirectory
    | name :: above =>
      match fs.followFrom path above.reverse with
      | .error f => some f
      | .ok dir => dir.writeFault? (if endsWith path "/" then "" else name)

/-- The file system with something more at a path. -/
def put (fs : FileSystem) (path : String) (new : FileTree) : FileSystem :=
  { fs with root := .insert new (Path.resolvedNames (fs.names path)) fs.root }

/-- The file system after a text has been written to a path, or the fault that prevents it. A file
    that is there already keeps its rights. -/
def write (fs : FileSystem) (path text : String) : Except FileFault FileSystem :=
  match fs.createFault? path with
  | some f => .error f
  | none =>
    let rights := match fs.find path with
      | .ok old => old.rights
      | .error _ => .all
    .ok (fs.put path (.file rights text))

end FileSystem

end TabCompletion
