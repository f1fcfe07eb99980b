import TabCompletion.Spec.Command

/-!
# Well-formed commands

A command is checked scope by scope from the root. In each scope the names of the actions come
first, in the order of their declaration, then the names of the sub-commands; a sub-command is
checked as soon as its own names have been.
-/

namespace TabCompletion

/-- What is wrong with a command, and in which scope. -/
inductive SpecError where
  | fileNotFound (path : String)
  | duplicateFlag (command name : String)
  | duplicateSubcommand (command name : String)
  | invalidFlagName (command name : String)
  | invalidPositionalName (command name : String)
  | missingName (command : String)
deriving DecidableEq, Repr

/-- The wording of a defect. -/
def SpecError.message : SpecError → String
  | .fileNotFound path => s!"Spec file not found: {path}"
  | .duplicateFlag command name => s!"Flag '{name}' declared twice in '{command}'"
  | .duplicateSubcommand command name =>
    s!"Sub-command '{name}' declared twice under '{command}'"
  | .invalidFlagName command name =>
    s!"Flag '{name}' in '{command}' does not start with a prefix character"
  | .invalidPositionalName command name =>
    s!"Positional '{name}' in '{command}' starts with a prefix character"
  | .missingName command => s!"Action without a name in '{command}'"

namespace Command

/-- Check the names of a flag; `seen` holds the flag names before them. The result holds theirs
    too. -/
def checkFlagNames (c : Command) (seen : List String) : List String → Except SpecError (List String)
  | [] => .ok seen
  | n :: ns =>
    if !c.startsLikeFlag n then .error (.invalidFlagName c.name n)
    else if seen.contains n then .error (.duplicateFlag c.name n)
    else c.checkFlagNames (n :: seen) ns

/-- Check the names of an action. -/
def checkAction (c : Command) (seen : List String) (a : Action) : Except SpecError (List String) :=
  if a.names.isEmpty then .error (.missingName c.name)
  else if a.positional then
    match a.names.find? c.startsLikeFlag with
    | some n => .error (.invalidPositionalName c.name n)
    | none => .ok seen
  else c.checkFlagNames seen a.names

/-- Check the actions of one scope. -/
def checkActions (c : Command) (seen : List String) : List Action → Except SpecError Unit
  | [] => .ok ()
  | a :: as => do
    let seen ← c.checkAction seen a
    c.checkActions seen as

/-- Check the names of a sub-command of the command `parent` against the names before them. -/
def checkNames (parent : String) (seen : List String) : List String → Except SpecError (List String)
  | [] => .ok seen
  | n :: ns =>
    if seen.contains n then .error (.duplicateSubcommand parent n)
    else checkNames parent (n :: seen) ns

mutual

/-- Check the whole tree. -/
def validate : Command → Except SpecError Unit
  | ⟨name, aliases, help, flagChars, actions, subcommands⟩ => do
    checkActions ⟨name, aliases, help, flagChars, actions, subcommands⟩ [] actions
    validateAll name [] subcommands

/-- Check the sub-commands of the command `parent`. -/
def validateAll (parent : String) (seen : List String) : List Command → Except SpecError Unit
  | [] => .ok ()
  | c :: cs => do
    let seen ← checkNames parent seen c.allNames
    c.validate
    validateAll parent seen cs

end

end Command

end TabCompletion
