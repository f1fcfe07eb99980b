import TabCompletion.Text.Basic

/-!
# Paths

Joining paths, and the names to which a path comes down.
-/

namespace TabCompletion.Path

open Text

/-- Whether the path starts at the root of the file system. -/
def isAbsolute (path : String) : Bool :=
  startsWith path "/"

/-- A path below another; an absolute path stays as it is. -/
def join (base path : String) : String :=
  if isAbsolute path then path
  else if base.isEmpty || endsWith base "/" then base ++ path
  else base ++ "/" ++ path

/-- Names with `.` and empty ones left out and `..` resolved; `done` holds the names so far, the
    last one first. -/
def resolveFrom (done : List String) : List String → List String
  | [] => done.reverse
  | n :: ns =>
    if n = "" ∨ n = "." then resolveFrom done ns
    else if n = ".." then resolveFrom done.tail ns
    else resolveFrom (n :: done) ns

/-- The names that lead from the root to the same place without detours. -/
def resolvedNames (names : List String) : List String :=
  resolveFrom [] names

end TabCompletion.Path
