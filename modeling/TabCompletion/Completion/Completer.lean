/-!
# Completers

A completer is a source of candidates for the values of one action. The built-in ones offer fixed
choices, names of environment variables, and paths; a program may bring completers of its own.

What a completer answers is a matter of the host it runs on. An action only says which one it has.
-/

namespace TabCompletion

/-- Which paths are offered: below which directory, files with which extensions (all if none is
    listed), and whether files are offered at all. -/
structure PathFilter where
  base : Option String
  extensions : List String
  directoriesOnly : Bool
deriving DecidableEq, Repr, Inhabited

/-- The name of the completer with this filter. -/
def PathFilter.completerName (f : PathFilter) : String :=
  if f.directoriesOnly then "directories" else "files"

/-- A source of candidates. One that the program brings along has a name, and the number under which
    the host knows its code. -/
inductive Completer where
  | choices (values : List String)
  | environ
  | paths (filter : PathFilter)
  | custom (name : String) (number : Nat)
deriving DecidableEq, Repr, Inhabited

namespace Completer

/-- All paths below the working directory. -/
def files : Completer := .paths ⟨none, [], false⟩

/-- All directories below the working directory. -/
def directories : Completer := .paths ⟨none, [], true⟩

/-- The name that is used in warnings. -/
def name : Completer → String
  | .choices _ => "choices"
  | .environ => "environ"
  | .paths filter => filter.completerName
  | .custom name _ => name

/-- How a completer is shown. -/
def label (c : Completer) : String :=
  s!"Completer({c.name})"

end Completer

end TabCompletion
