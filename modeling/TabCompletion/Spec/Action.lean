import TabCompletion.Completion.Completer
import TabCompletion.Spec.Arity
import TabCompletion.Text.Alphanumeric
import TabCompletion.Text.Basic

/-!
# Actions

An action is one declared flag or positional of a command.
-/

namespace TabCompletion

open Text

/-- The built-in source that an action uses if it has neither a completer nor choices. -/
inductive ValueHint where
  | any
  | filePath
  | dirPath
  | envVar
  | nothing
deriving DecidableEq, Repr, Inhabited

/-- A declared flag or positional. The names of a flag are the words that give it; a positional
    has its name for display. A terminator stops all flag matching behind it; a hidden flag is
    offered only on request. -/
structure Action where
  names : List String
  positional : Bool
  arity : Arity
  choices : List String
  completer : Option Completer
  hint : ValueHint
  terminator : Bool
  repeatable : Bool
  hidden : Bool
  help : Option String
deriving Inhabited

namespace Action

/-- A flag without values. -/
def flag (names : List String) : Action :=
  ⟨names, false, .zero, [], none, .any, false, false, false, none⟩

/-- A positional with one value. -/
def operand (name : String) : Action :=
  ⟨[name], true, .one, [], none, .any, false, false, false, none⟩

/-- The name from which a flag's destination is made: the first long one, or else the first. -/
def principalName? (a : Action) : Option String :=
  (a.names.find? (startsWith · "--")).or a.names.head?

/-- The key under which values are recorded: the name of a positional; for a flag its principal
    name from the first letter or number on, with underscores for hyphens. -/
def dest (a : Action) : String :=
  if a.positional then a.names.headD ""
  else
    let name := (a.principalName?.getD "").toList
    String.ofList ((name.dropWhile (!isAlphanumeric ·)).map fun c => if c = '-' then '_' else c)

/-- Whether the action answers to a name. -/
def answersTo (a : Action) (name : String) : Bool :=
  a.names.contains name

/-- The name under which the action is shown. -/
def displayName (a : Action) : String :=
  a.names.headD "<unnamed>"

/-- The action without its completer. -/
def withoutCompleter (a : Action) : Action :=
  { a with completer := none }

end Action

end TabCompletion
