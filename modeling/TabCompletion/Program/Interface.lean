import TabCompletion.Interface.Arguments
import TabCompletion.Shell.Kind

/-!
# The program's own command line

`argcomp` prints hooks, explains completions, and shows its configuration. Its interface describes
its command line to completion as well, so that it completes itself.
-/

namespace TabCompletion

/-- What the program is to do. -/
inductive Task where
  | register (program : String) (shell : Shell) (spec : Option String)
  | explain (spec : Option String) (line : String) (point : Option Nat) (shell : Shell)
  | config (showAll path validate : Bool)
deriving DecidableEq, Repr, Inhabited

/-- What the arguments of the program ask for. -/
structure Options where
  configFile : Option String
  noColour : Bool
  quiet : Bool
  verbose : Bool
  veryVerbose : Bool
  task : Task
deriving DecidableEq, Repr, Inhabited

namespace Program

/-- The name of the program. -/
def name : String := "argcomp"

/-- The version of the program. -/
def version : String := "0.1.0"

/-! ## 1. Parameters -/

/-- A switch with a long name. -/
def switch (long : String) (help : String) : Parameter :=
  { Parameter.named long with long := some long, givenEffect := some .setTrue, help := some help }

/-- An option with a long name and one value. -/
def option (long : String) (help : String) : Parameter :=
  { Parameter.named long with long := some long, help := some help }

/-- An option for a file. -/
def fileOption (long : String) (help : String) : Parameter :=
  { option long help with topic := .filePath, shape := .path }

/-- The option for a shell. -/
def shellOption (help : String) : Parameter :=
  { option "shell" help with
    short := some 's'
    choices := Shell.all.map fun s => ⟨s.name, false⟩ }

/-! ## 2. Commands -/

/-- The sub-command that prints hooks. -/
def registerCommand : Interface :=
  { Interface.named "register" with
    about := some "Print the shell hook that enables completion for a program"
    parameters := [
      { Parameter.named "program" with
        topic := .commandName, help := some "Program to complete", required := true },
      shellOption "Target shell",
      fileOption "spec" "Answer requests from a JSON spec instead of the program itself"] }

/-- The sub-command that explains a completion. -/
def explainCommand : Interface :=
  { Interface.named "explain" with
    about := some "Show how a command line would be completed"
    parameters := [
      fileOption "spec" "JSON spec to complete against (argcomp's own surface if omitted)",
      { option "line" "Command line, program name first" with
        short := some 'l', required := true, hyphens := true },
      { option "point" "Cursor byte offset (end of line if omitted)" with
        short := some 'p', shape := .number },
      shellOption "Shell whose payload is shown"] }

/-- The sub-command that shows the configuration. -/
def configCommand : Interface :=
  { Interface.named "config" with
    about := some "Show configuration"
    parameters := [
      switch "show" "Show effective configuration",
      switch "path" "Print the configuration file path",
      switch "validate" "Validate configuration file"] }

/-- The interface of the program. -/
def interface : Interface :=
  { Interface.named name with
    about := some "Dynamic tab completion for command-line programs"
    version := some version
    longHelp := true
    needsSubcommand := true
    parameters := [
      { fileOption "config" "Configuration file path" with short := some 'c' },
      switch "no-color" "Disable colored output",
      { switch "quiet" "Quiet mode (errors only)" with short := some 'q' },
      { switch "verbose" "Verbose mode (debug logging)" with short := some 'v' },
      switch "vv" "Very verbose mode (trace logging)"]
    subcommands := [registerCommand, explainCommand, configCommand] }

/-- The program as completion sees it. -/
def command : Command :=
  interface.toCommand

end Program

/-! ## 3. Options -/

namespace Options

open Text

/-- The shell that was asked for; Bash if none was. -/
def shellOf (m : Match) : Shell :=
  ((m.value? "shell").bind Shell.ofName?).getD .bash

/-- The task that a sub-command stands for. -/
def taskOf? (m : Match) : Option Task :=
  if m.command = Program.registerCommand.name then
    (m.value? "program").map (.register · (shellOf m) (m.value? "spec"))
  else if m.command = Program.explainCommand.name then
    (m.value? "line").map fun line =>
      .explain (m.value? "spec") line ((m.value? "point").bind (nat? wordBound)) (shellOf m)
  else if m.command = Program.configCommand.name then
    some (.config (m.has "show") (m.has "path") (m.has "validate"))
  else none

/-- What arguments ask for. -/
def ofArguments (args : List String) : Except UsageError Options := do
  match ← Program.interface.read args with
  | [m, sub] => match taskOf? sub with
    | some task =>
      .ok ⟨m.value? "config", m.has "no-color", m.has "quiet", m.has "verbose", m.has "vv", task⟩
    | none => .error .missingArgument
  | _ => .error .missingSubcommand

end Options

end TabCompletion
