import TabCompletion.Interface.Parameter
import TabCompletion.Spec.Command

/-!
# Interfaces

The interface of a program: what it declares about its command line, with sub-commands as
interfaces of their own. Besides what is declared, a command has what every command has unless it
is switched off:

* the flags `--help` and, if it has a version, `--version`, behind all others;
* the inherited parameters of the commands above it;
* a last sub-command `help` if it has sub-commands. Below it the tree of sub-commands is repeated
  with nothing but names and help texts.

`toCommand` gives all this as a command for completion.
-/

namespace TabCompletion

/-- The command line that a program declares. The switches `noHelpFlag` and `noVersionFlag` hold
    for the sub-commands too. `longHelp` says that there is more help than its short form, and
    `needsSubcommand` that one has to be given. -/
structure Interface where
  name : String
  about : Option String
  version : Option String
  aliases : List String
  hidden : Bool
  noHelpFlag : Bool
  noVersionFlag : Bool
  noHelpCommand : Bool
  longHelp : Bool
  needsSubcommand : Bool
  parameters : List Parameter
  subcommands : List Interface
deriving Inhabited

/-- What a command has from the commands above it. -/
structure Inheritance where
  noHelpFlag : Bool
  noVersionFlag : Bool
  parameters : List Parameter
deriving DecidableEq, Repr, Inhabited

namespace Interface

/-- Nothing is inherited at the root. -/
def rootInheritance : Inheritance := ⟨false, false, []⟩

/-- An interface of which only the name is known. -/
def named (name : String) : Interface where
  name := name
  about := none
  version := none
  aliases := []
  hidden := false
  noHelpFlag := false
  noVersionFlag := false
  noHelpCommand := false
  longHelp := false
  needsSubcommand := false
  parameters := []
  subcommands := []

/-! ## 1. Implied parameters -/

/-- The flag that prints help. -/
def helpFlag (longHelp : Bool) : Parameter :=
  { Parameter.named "help" with
    short := some 'h'
    long := some "help"
    givenEffect := some .help
    help := some (if longHelp then "Print help (see more with '--help')" else "Print help") }

/-- The flag that prints the version. -/
def versionFlag : Parameter :=
  { Parameter.named "version" with
    short := some 'V'
    long := some "version"
    givenEffect := some .version
    help := some "Print version" }

/-- The parameters of a command with those that it inherits. One with the same identifier takes the
    place of an inherited one. -/
def ownAndInherited (i : Interface) (above : Inheritance) : List Parameter :=
  i.parameters ++ above.parameters.filter fun p => !i.parameters.any (·.id == p.id)

/-- The flags that every command has unless they are switched off. -/
def impliedFlags (i : Interface) (above : Inheritance) : List Parameter :=
  (if i.noHelpFlag || above.noHelpFlag then [] else [helpFlag i.longHelp])
    ++ if i.noVersionFlag || above.noVersionFlag || i.version.isNone then [] else [versionFlag]

/-- All parameters of a command. -/
def allParameters (i : Interface) (above : Inheritance) : List Parameter :=
  i.ownAndInherited above ++ i.impliedFlags above

/-- What the sub-commands of a command inherit. -/
def inheritance (i : Interface) (above : Inheritance) : Inheritance :=
  ⟨i.noHelpFlag || above.noHelpFlag, i.noVersionFlag || above.noVersionFlag,
    (i.ownAndInherited above).filter (·.inherited)⟩

/-! ## 2. The sub-command `help` -/

/-- Whether the command has a sub-command `help` that it does not declare. -/
def hasHelpCommand (i : Interface) : Bool :=
  !i.noHelpCommand && !i.subcommands.isEmpty

/-- The help text of the sub-command `help`. -/
def helpCommandAbout : String :=
  "Print this message or the help of the given subcommand(s)"

mutual

/-- The tree of sub-commands by name and help text. -/
def outline : Interface → Command
  | ⟨name, about, _, _, _, _, _, _, _, _, _, subcommands⟩ =>
    ⟨name, [], about.map Text.visible, "-", [], outlineAll subcommands⟩

/-- The trees of the sub-commands that are not hidden. -/
def outlineAll : List Interface → List Command
  | [] => []
  | i :: is => if i.hidden then outlineAll is else outline i :: outlineAll is

end

/-- The sub-command `help`, which lists the sub-commands and itself. -/
def helpCommand (subcommands : List Interface) : Command :=
  let help (children : List Command) : Command :=
    ⟨"help", [], some helpCommandAbout, "-", [], children⟩
  help (outlineAll subcommands ++ [help []])

/-! ## 3. Completion -/

/-- The actions for parameters: flags in the order of their declaration, then positionals. -/
def actionsOf (ps : List Parameter) : List Action :=
  (ps.filter (!·.isPositional) ++ ps.filter (·.isPositional)).map (·.toAction)

/-- The sub-command `help` of a command that has one. -/
def helpCommands (i : Interface) : List Command :=
  if i.hasHelpCommand then [helpCommand i.subcommands] else []

mutual

/-- The command for completion, given what it inherits. -/
def toCommandBelow (above : Inheritance) : Interface → Command
  | ⟨name, about, version, aliases, hidden, noHelpFlag, noVersionFlag, noHelpCommand, longHelp,
      needsSubcommand, parameters, subcommands⟩ =>
    let i : Interface := ⟨name, about, version, aliases, hidden, noHelpFlag, noVersionFlag,
      noHelpCommand, longHelp, needsSubcommand, parameters, subcommands⟩
    ⟨name, aliases, about.map Text.visible, "-", actionsOf (i.allParameters above),
      toCommandsBelow (i.inheritance above) subcommands ++ i.helpCommands⟩

/-- The commands for completion of the sub-commands that are not hidden. -/
def toCommandsBelow (above : Inheritance) : List Interface → List Command
  | [] => []
  | i :: is =>
    if i.hidden then toCommandsBelow above is
    else toCommandBelow above i :: toCommandsBelow above is

end

/-- The command for completion. -/
def toCommand (i : Interface) : Command :=
  toCommandBelow rootInheritance i

end Interface

end TabCompletion
