import TabCompletion.Spec.Action
import TabCompletion.Text.Numeral

/-!
# Commands

A command describes the words that a program or one of its sub-commands understands: actions in
the order of their declaration, and sub-commands that are commands themselves.

* `findFlag?` and `findSubcommand?` look up a word in one scope.
* `isFlagLike` tells flags from values.
-/

namespace TabCompletion

open Text

/-- One scope of the command line: a program or a sub-command. `flagChars` are the characters
    that introduce a flag. -/
structure Command where
  name : String
  aliases : List String
  help : Option String
  flagChars : String
  actions : List Action
  subcommands : List Command
deriving Inhabited

/-- An action together with its place among the actions of its command. -/
structure Slot where
  index : Nat
  action : Action
deriving Inhabited

/-- Whether a word looks like a negative number: a hyphen and a floating-point literal. -/
def looksNegative (word : String) : Bool :=
  match word.toList with
  | '-' :: rest => isFloatLiteral rest
  | _ => false

namespace Command

/-- A command with nothing but a name. -/
def empty (name : String) : Command :=
  ⟨name, [], none, "-", [], []⟩

/-- The command with one more alias. -/
def addAlias (c : Command) (name : String) : Command :=
  { c with aliases := c.aliases ++ [name] }

/-- The command with one more action. -/
def addAction (c : Command) (a : Action) : Command :=
  { c with actions := c.actions ++ [a] }

/-- The command with one more sub-command. -/
def addSubcommand (c child : Command) : Command :=
  { c with subcommands := c.subcommands ++ [child] }

/-- The name and the aliases. -/
def allNames (c : Command) : List String :=
  c.name :: c.aliases

/-- Whether the command is meant by a word. -/
def answersTo (c : Command) (word : String) : Bool :=
  c.allNames.contains word

/-- The actions with their places. -/
def slots (c : Command) : List Slot :=
  c.actions.zipIdx.map fun (a, i) => ⟨i, a⟩

/-- The flags with their places. -/
def flags (c : Command) : List Slot :=
  c.slots.filter (!·.action.positional)

/-- The positionals with their places. -/
def positionals (c : Command) : List Slot :=
  c.slots.filter (·.action.positional)

/-- The flag that a name gives. -/
def findFlag? (c : Command) (name : String) : Option Slot :=
  c.flags.find? (·.action.answersTo name)

/-- The sub-command that a word means, with its place among the sub-commands. -/
def findChild? (c : Command) (word : String) : Option (Nat × Command) :=
  (c.subcommands.zipIdx.find? (·.1.answersTo word)).map fun (child, i) => (i, child)

/-- The sub-command that a word means. -/
def findSubcommand? (c : Command) (word : String) : Option Command :=
  (c.findChild? word).map (·.2)

/-- Whether a word starts with a character that introduces flags. -/
def startsLikeFlag (c : Command) (word : String) : Bool :=
  match word.toList with
  | [] => false
  | ch :: _ => contains c.flagChars ch

/-- Whether a flag of the command has a name that looks like a negative number. -/
def hasNumericFlag (c : Command) : Bool :=
  c.flags.any (·.action.names.any looksNegative)

/-- Whether a word is a flag rather than a value: at least two characters, the first of which
    introduces flags. A negative number is a value unless the command has a flag that looks like
    one. -/
def isFlagLike (c : Command) (word : String) : Bool :=
  2 ≤ word.length && c.startsLikeFlag word && (!looksNegative word || c.hasNumericFlag)

mutual

/-- The command without completers, sub-commands included. -/
def withoutCompleters : Command → Command
  | ⟨name, aliases, help, flagChars, actions, subcommands⟩ =>
    ⟨name, aliases, help, flagChars, actions.map (·.withoutCompleter),
      withoutCompletersAll subcommands⟩

/-- Commands without completers. -/
def withoutCompletersAll : List Command → List Command
  | [] => []
  | c :: cs => c.withoutCompleters :: withoutCompletersAll cs

end

/-- The sub-command that a list of words leads to. -/
def descend? (c : Command) : List String → Option Command
  | [] => some c
  | w :: ws => (c.findSubcommand? w).bind (descend? · ws)

end Command

end TabCompletion
