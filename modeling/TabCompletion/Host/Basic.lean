import TabCompletion.Completion.Request
import TabCompletion.Host.FileSystem

/-!
# The host of a request

What a completion source can look at besides the request itself, and the code of the sources that
the program brings along.
-/

namespace TabCompletion

/-- The values of variables by name; a name that is not listed is unset. -/
abbrev Environment := List (String × String)

/-- The value of a variable. -/
def Environment.value? (env : Environment) (name : String) : Option String :=
  env.lookup name

/-- The files that the process can see, its environment, and what the program's own completers
    answer, by their numbers. -/
structure Host where
  files : FileSystem
  environment : Environment
  answers : Nat → CompletionRequest → CompleterResult
deriving Inhabited

/-- The host of a program without completers of its own. -/
def Host.plain (files : FileSystem) (environment : Environment) : Host :=
  ⟨files, environment, fun _ _ => .candidates []⟩

/-- A host without files and without variables. -/
def Host.bare : Host := .plain (.below [] (.ofPaths [])) []

end TabCompletion
