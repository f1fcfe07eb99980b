import TabCompletion.Host.Basic
import TabCompletion.Host.Path

/-!
# What completers answer

A completer gets a request and the host it runs on. Fixed choices depend on neither, names of
variables and paths on the host and on what has been typed. A completer of the program itself may
look at everything.
-/

namespace TabCompletion

open Text

/-- The order of texts by their characters. -/
def Completer.textLe (a b : String) : Bool := !(b < a)

/-! ## 1. Paths -/

namespace PathFilter

/-- The directory to list for the directory part of what has been typed. -/
def directory (f : PathFilter) (part : String) : String :=
  let dir := if part.isEmpty then "." else part
  match f.base with
  | some base => Path.join base dir
  | none => dir

/-- The part of a file name after its last dot, unless the dot comes first. -/
def extension? (name : String) : Option String :=
  if name = ".." then none
  else
    let (before, after) := splitAfterLast '.' name
    if before = "" ∨ before = "." then none else some after

/-- Whether a file of this name is offered. -/
def acceptsFile (f : PathFilter) (name : String) : Bool :=
  f.extensions.isEmpty || match extension? name with
    | some e => f.extensions.contains e
    | none => false

/-- Whether an entry of this name is looked at. A name that starts with a dot is hidden until a
    dot has been typed. -/
def isShown (part name : String) : Bool :=
  startsWith name part && (!startsWith name "." || startsWith part ".")

/-- The candidate for the entry `name` of the directory `dir`, if it is offered. What the entry is
    gets looked up by its path. -/
def entryCandidate? (f : PathFilter) (files : FileSystem) (dir dirPart namePart name : String) :
    Option Candidate :=
  if !isShown namePart name then none
  else if files.isDirectory (Path.join dir name) then
    some (.directory (dirPart ++ name ++ "/") (name ++ "/"))
  else if !f.directoriesOnly && f.acceptsFile name then some (.file (dirPart ++ name) name)
  else none

/-- The order of candidates by their values. -/
def valueLe (a b : Candidate) : Bool := Completer.textLe a.value b.value

/-- The paths that continue what has been typed. A directory that does not exist offers nothing. -/
def paths (f : PathFilter) (files : FileSystem) (typed : String) : CompleterResult :=
  let (dirPart, namePart) := splitAfterLast '/' typed
  let dir := f.directory dirPart
  match files.list dir with
  | .ok entries =>
    .candidates ((entries.filterMap fun entry =>
      f.entryCandidate? files dir dirPart namePart entry.1).mergeSort valueLe)
  | .error .notFound => .candidates []
  | .error fault => .failed (.failed f.completerName s!"{dir}: {fault.message}")

end PathFilter

/-! ## 2. Answers -/

namespace Completer

/-- What a completer answers to a request. -/
def complete (c : Completer) (host : Host) (request : CompletionRequest) : CompleterResult :=
  match c with
  | .choices values => .candidates (values.map .plain)
  | .environ => .candidates (((host.environment.map (·.1)).mergeSort textLe).map .plain)
  | .paths filter => filter.paths host.files request.typed
  | .custom _ number => host.answers number request

/-- The candidates of a run, or the error that stands for its failure. -/
def run (c : Completer) (host : Host) (request : CompletionRequest) :
    Except CompleterError (List Candidate) :=
  match c.complete host request with
  | .candidates cs => .ok cs
  | .failed e => .error e
  | .brokenOff message => .error (.panicked c.name (message.getD "unknown panic"))

end Completer

end TabCompletion
