import TabCompletion.Text.Basic

/-!
# Files and directories

A tree of files, and the way from one of its directories along a list of names: an empty name and
`.` stay where they are, and `..` goes back to the directory above. Every file and every directory
says what the process may do with it.

* `follow` walks along names, as far as the directories on the way may be searched.
* `insert` puts a file into the tree.
-/

namespace TabCompletion

open Text

/-- What a process may do. A directory that it may read can be listed, one that it may write can get
    new entries, and in one that it may search names can be followed. -/
structure Rights where
  read : Bool
  write : Bool
  search : Bool
deriving DecidableEq, Repr, Inhabited

/-- The process may do everything. -/
def Rights.all : Rights := ⟨true, true, true⟩

/-- The process may do nothing. -/
def Rights.none : Rights := ⟨false, false, false⟩

/-- A file with its text, or a directory with its entries in the order in which they are listed. -/
inductive FileTree where
  | file (rights : Rights) (text : String)
  | directory (rights : Rights) (entries : List (String × FileTree))
deriving Inhabited

/-- Why a path cannot be used. -/
inductive FileFault where
  | notFound
  | accessDenied
  | notDirectory
  | isDirectory
  | nameTooLong
  | nulInName
deriving DecidableEq, Repr

/-- The wording of a fault. -/
def FileFault.message : FileFault → String
  | .notFound => "No such file or directory (os error 2)"
  | .accessDenied => "Permission denied (os error 13)"
  | .notDirectory => "Not a directory (os error 20)"
  | .isDirectory => "Is a directory (os error 21)"
  | .nameTooLong => "File name too long (os error 36)"
  | .nulInName => "file name contained an unexpected NUL byte"

namespace FileTree

/-- The bytes that a name may have. -/
def maxName : Nat := 255

/-- Whether this is a directory. -/
def isDirectory : FileTree → Bool
  | .file _ _ => false
  | .directory _ _ => true

/-- What the process may do with it. -/
def rights : FileTree → Rights
  | .file rights _ => rights
  | .directory rights _ => rights

/-- The entries of a directory. -/
def entries : FileTree → List (String × FileTree)
  | .file _ _ => []
  | .directory _ es => es

/-! ## 1. Following names -/

/-- Follow one name from a directory `here` whose parents are `above`, the nearest first. Every name
    but the empty one needs the right to search the directory, be it `.` or `..`. -/
def enter (above : List FileTree) (here : FileTree) (name : String) :
    Except FileFault (List FileTree × FileTree) :=
  match here with
  | .file _ _ => .error .notDirectory
  | .directory rights es =>
    if name = "" then .ok (above, here)
    else if !rights.search then .error .accessDenied
    else if name = "." then .ok (above, here)
    else if name = ".." then
      match above with
      | [] => .ok ([], here)
      | parent :: rest => .ok (rest, parent)
    else if maxName < name.utf8ByteSize then .error .nameTooLong
    else match es.lookup name with
      | none => .error .notFound
      | some t => .ok (here :: above, t)

/-- Follow names one after the other. -/
def follow (here : FileTree) (above : List FileTree) : List String → Except FileFault FileTree
  | [] => .ok here
  | name :: names => do
    let (above, here) ← enter above here name
    follow here above names

/-- The directory to which names lead, with those above it. This is where a process is, and so no
    rights are asked for. -/
def place? (here : FileTree) (above : List FileTree) :
    List String → Option (List FileTree × FileTree)
  | [] => some (above, here)
  | name :: names => (here.entries.lookup name).bind fun t => place? t (here :: above) names

/-- Why a file with this name cannot be written in a directory, if it cannot. -/
def writeFault? (dir : FileTree) (name : String) : Option FileFault :=
  match dir with
  | .file _ _ => some .notDirectory
  | .directory rights es =>
    if !rights.search then some .accessDenied
    else if name = "" ∨ name = "." ∨ name = ".." then some .isDirectory
    else if maxName < name.utf8ByteSize then some .nameTooLong
    else match es.lookup name with
      | some (.directory _ _) => some .isDirectory
      | some (.file old _) => if old.write then none else some .accessDenied
      | none => if rights.write then none else some .accessDenied

/-! ## 2. Building trees -/

/-- The tree with one more file or directory, put in by the names that lead to it. Directories
    that are missing are made. -/
def insert (new : FileTree) : List String → FileTree → FileTree
  | [], t => if new.isDirectory && t.isDirectory then t else new
  | name :: names, t =>
    let child := (t.entries.lookup name).getD (.directory .all [])
    .directory t.rights (t.entries.filter (·.1 != name) ++ [(name, insert new names child)])

/-- The file with a text, or an empty directory. -/
def leaf : Option String → FileTree
  | some text => .file .all text
  | none => .directory .all []

/-- The tree of files given by their paths; a path without text is a directory. -/
def ofPaths (paths : List (String × Option String)) : FileTree :=
  paths.foldl (fun t (path, text) => insert (leaf text) ((splitAll '/' path).filter (· != "")) t)
    (.directory .all [])

end FileTree

end TabCompletion
