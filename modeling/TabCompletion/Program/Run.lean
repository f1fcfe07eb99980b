import TabCompletion.Config.Load
import TabCompletion.Explanation.Report
import TabCompletion.Program.Interface
import TabCompletion.Shell.Hook
import TabCompletion.Spec.Load

/-!
# Running the program

What the program does as a function of what it can see. If a shell asks for completions, it answers
and does nothing else; then no error reaches the shell. Otherwise its arguments say what to do.

* `Invocation.answer` answers a request.
* `Options.perform` does what the arguments ask for.
* `Invocation.run` chooses between them.
-/

namespace TabCompletion

open Text

/-- What the program can see: its arguments, the host, the path of its executable, the descriptor
    that is open besides the standard ones, and whether its output is a terminal. -/
structure Invocation where
  arguments : List String
  host : Host
  executable : String
  openDescriptor : Option Int
  terminal : Bool
deriving Inhabited

/-- What a run leaves behind: its exit code and output, the text for the open descriptor, and the
    path and text of a file that was written. -/
structure Ending where
  code : Nat
  stdout : String
  stderr : String
  descriptor : Option String
  file : Option (String × String)
deriving DecidableEq, Repr, Inhabited

namespace Ending

/-- The end of a successful run that only prints. -/
def printed (text : String) : Ending := ⟨0, text, "", none, none⟩

/-- The end of a run that failed. -/
def failed (code : Nat) (message : String) : Ending := ⟨code, "", message, none, none⟩

end Ending

/-! ## 1. Requests -/

namespace Invocation

/-- The command that a request is about: the one in the file that the hook names, or else the
    program itself. A file that cannot be used stands for a command without anything. -/
def requestedCommand (p : Invocation) : Command :=
  match p.host.environment.value? specFileVar with
  | some path => match Command.ofFile p.host path with
    | .ok c => c
    | .error _ => .empty Program.name
  | none => Program.command

/-- The configuration for a request. One that cannot be used is ignored. -/
def requestConfig (p : Invocation) : Config :=
  match Config.load p.host with
  | .ok c => c
  | .error _ => .default

/-- The lowest descriptor from `n` on that is not open. -/
def freeDescriptor (p : Invocation) (n : Int) : Int :=
  if p.openDescriptor = some n then n + 1 else n

/-- The descriptor to which standard output is moved while a request is answered. -/
def movedStdout (p : Invocation) : Int :=
  p.freeDescriptor 3

/-- The descriptor to which standard error is moved while a request is answered. -/
def movedStderr (p : Invocation) : Int :=
  p.freeDescriptor (p.movedStdout + 1)

/-- The end of a run that answers a request with a text. Nothing is said about a channel that cannot
    be written to. The standard descriptors are silent, but for standard error if the request asks
    for details. -/
def deliver (p : Invocation) (r : ShellRequest) (warnings text : String) : Ending :=
  let silent : Ending := ⟨0, "", warnings, none, none⟩
  match r.channel with
  | .stdout => { silent with stdout := text }
  | .tempFile path =>
    if (p.host.files.createFault? path).isNone then { silent with file := some (path, text) }
    else silent
  | .descriptor n =>
    if p.openDescriptor = some n then { silent with descriptor := some text }
    else if n = p.movedStdout then { silent with stdout := text }
    else if n = p.movedStderr ∨ (n = 2 ∧ r.debug = true) then
      { silent with stderr := warnings ++ text }
    else silent

/-- Answer a request. Each warning stands on a line of its own. -/
def answer (p : Invocation) (r : ShellRequest) : Ending :=
  let engine : Engine := ⟨p.requestConfig, none⟩
  let outcome := engine.completeLine p.host p.requestedCommand r.line r.cursor
  p.deliver r (String.join (outcome.warnings.map ("\n" ++ ·))) (r.encode outcome)

end Invocation

/-! ## 2. Tasks -/

namespace Options

/-- The path of the configuration file. -/
def configPath (o : Options) (host : Host) : String :=
  match o.configFile with
  | some path => path
  | none => (host.environment.value? Host.configVar).getD (Host.defaultConfigPath host.environment)

/-- The level of logging that the options ask for. The most talkative one wins. -/
def logLevel? (o : Options) : Option LogLevel :=
  if o.veryVerbose then some .trace
  else if o.verbose then some .debug
  else if o.quiet then some .error
  else none

/-- The configuration in effect. -/
def config (o : Options) (host : Host) : Except Error Config := do
  let c ← match o.configFile with
    | some path => Config.loadFrom host (some path)
    | none => Config.load host
  .ok { c with logging := { c.logging with level := o.logLevel?.getD c.logging.level } }

/-- The command in a file, or else the program itself. -/
def command (host : Host) : Option String → Except Error Command
  | some path => Command.ofFile host path
  | none => .ok Program.command

/-- The hook for a program. The file with its description is checked. -/
def hook (p : Invocation) (program : String) (shell : Shell) : Option String → Except Error Hook
  | none => .ok ⟨program, shell, none⟩
  | some path => do
    let _ ← Command.ofFile p.host path
    .ok ⟨program, shell, some ⟨p.host.files.absolute path, p.executable⟩⟩

/-- What is found out about the configuration file. -/
def checkConfig (host : Host) (path : String) : String :=
  if !host.files.has path then "Configuration file does not exist, defaults apply"
  else match Config.loadFrom host (some path) with
    | .ok _ => "Configuration is valid"
    | .error e => "Configuration is invalid: " ++ e.message

/-- What is printed about the configuration. -/
def configReport (o : Options) (host : Host) (c : Config) (showAll path validate : Bool) : String :=
  let file := o.configPath host
  (if path then file ++ "\n" else "")
    ++ (if validate then
      "Validating configuration file: " ++ file ++ "\n" ++ checkConfig host file ++ "\n" else "")
    ++ (if showAll || !(path || validate) then
      "# Configuration file: " ++ file ++ "\n\n" ++ c.toToml ++ "\n" else "")

/-- Do what the options ask for; the result is what is printed. -/
def perform (o : Options) (p : Invocation) : Except Error String := do
  let c ← o.config p.host
  match o.task with
  | .register program shell spec => do
    let h ← hook p program shell spec
    .ok h.text
  | .explain spec line point shell => do
    let root ← command p.host spec
    let request := ShellRequest.byHand shell line (point.getD line.utf8ByteSize)
    let palette : Palette := if p.terminal && !o.noColour then .coloured else .plain
    .ok (((⟨c, none⟩ : Engine).explain p.host root request).report palette)
  | .config showAll path validate => .ok (o.configReport p.host c showAll path validate)

end Options

/-! ## 3. The program -/

/-- The wording of what is wrong with arguments. -/
def UsageError.message : UsageError → String
  | .helpRequested => "help was asked for"
  | .versionRequested => "the version was asked for"
  | .nothingGiven => "a sub-command is needed"
  | .missingSubcommand => "a sub-command is needed"
  | .unknownSubcommand => "unknown sub-command"
  | .unknownArgument => "unexpected argument"
  | .missingArgument => "a required argument is missing"
  | .givenTwice => "an argument was given twice"
  | .invalidValue => "a value is missing or is not one of those admitted"
  | .malformedValue => "a value is malformed"
  | .wrongNumberOfValues => "an argument has a wrong number of values"
  | .tooFewValues => "an argument has too few values"
  | .tooManyValues => "an argument has too many values"

namespace Invocation

/-- One line on each sub-command. -/
def overview : String :=
  "Usage: " ++ Program.name ++ " [OPTIONS] <COMMAND>\n\n"
    ++ String.join (Program.command.subcommands.map fun c =>
      "  " ++ c.name ++ ": " ++ c.help.getD "" ++ "\n")

/-- Do what the arguments ask for. -/
def obey (p : Invocation) : Ending :=
  match Options.ofArguments p.arguments with
  | .error .helpRequested => .printed overview
  | .error .versionRequested => .printed (Program.name ++ " " ++ Program.version ++ "\n")
  | .error e => .failed 2 ("error: " ++ e.message ++ "\n")
  | .ok o => match o.perform p with
    | .ok text => .printed text
    | .error e => .failed 1 ("Error: " ++ e.message ++ "\n")

/-- Run the program. -/
def run (p : Invocation) : Ending :=
  match ShellRequest.decode? p.host.environment with
  | some r => p.answer r
  | none => p.obey

/-! ## 4. What a run looks at -/

/-- The files whose text a run may read. -/
def readPaths (p : Invocation) : List String :=
  let env := p.host.environment
  let asked := match Options.ofArguments p.arguments with
    | .ok o => o.configFile.toList ++ match o.task with
      | .register _ _ spec | .explain spec _ _ _ => spec.toList
      | .config .. => []
    | .error _ => []
  (env.value? specFileVar).toList ++ (env.value? Host.configVar).toList
    ++ [Host.defaultConfigPath env] ++ asked

/-- The directory in which the names are looked for that continue a path. -/
def directoryOf (path : String) : String :=
  let dir := (splitAfterLast '/' path).1
  if dir.isEmpty then "." else dir

/-- The directory that is listed when a line is completed. -/
def lineDirectory (root : Command) (line : String) (cursor : Nat) : String :=
  directoryOf (Walk.ofLine root line cursor).word.typed

/-- The directories whose entries a run may list once the files have been read. -/
def listPaths (p : Invocation) : List String :=
  match ShellRequest.decode? p.host.environment with
  | some r =>
    lineDirectory p.requestedCommand r.line r.cursor :: match r.channel with
      | .tempFile path => [directoryOf path]
      | _ => []
  | none => match Options.ofArguments p.arguments with
    | .ok ⟨_, _, _, _, _, .explain spec line point _⟩ =>
      match Options.command p.host spec with
      | .ok root => [lineDirectory root line (point.getD line.utf8ByteSize)]
      | .error _ => []
    | _ => []

end Invocation

end TabCompletion
