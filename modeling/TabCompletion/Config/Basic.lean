import TabCompletion.Text.Basic
import TabCompletion.Text.Blank

/-!
# Configuration

How completion behaves: what is added to a sole candidate, when flags are offered, and in which
order candidates come.
-/

namespace TabCompletion

open Text

/-- Which flags are offered where a word is not the beginning of a flag. -/
inductive OptionCompletion where
  | never
  | long
  | short
  | all
deriving DecidableEq, Repr, Inhabited

/-- Whether the setting admits a flag of this name. -/
def OptionCompletion.admits : OptionCompletion → String → Bool
  | .never, _ => false
  | .long, name => startsWith name "--"
  | .short, name => !startsWith name "--"
  | .all, _ => true

/-- What is offered where a word may be a sub-command or a value: both, or no values as soon as the
    name of a sub-command matches. -/
inductive SubcommandPolicy where
  | union
  | preferSubcommands
deriving DecidableEq, Repr, Inhabited

/-- The order of the candidates: as they come from their sources, or the exact match first, then
    the shorter ones, then by the alphabet. -/
inductive CandidateOrder where
  | declared
  | ranked
deriving DecidableEq, Repr, Inhabited

/-- How much is logged. -/
inductive LogLevel where
  | error
  | warn
  | info
  | debug
  | trace
deriving DecidableEq, Repr, Inhabited

/-- How much is logged, and whether with the time. -/
structure Logging where
  level : LogLevel
  timestamps : Bool
deriving DecidableEq, Repr, Inhabited

/-- Nothing below warnings is logged, and without the time. -/
def Logging.default : Logging := ⟨.warn, false⟩

/-- The configuration of completion. -/
structure Config where
  appendSpace : Bool
  optionCompletion : OptionCompletion
  subcommandPolicy : SubcommandPolicy
  order : CandidateOrder
  printHidden : Bool
  exclude : List String
  logging : Logging
deriving DecidableEq, Repr, Inhabited

/-- Why a configuration cannot be used. A malformed text may come with a reason. -/
inductive ConfigError where
  | fileNotFound (path : String)
  | invalidFormat (reason : String)
  | invalidValue (field value : String)
deriving DecidableEq, Repr

/-- The wording of an error. -/
def ConfigError.message : ConfigError → String
  | .fileNotFound path => s!"Config file not found: {path}"
  | .invalidFormat reason => s!"Invalid config format: {reason}"
  | .invalidValue field value => s!"Invalid value '{value}' for field '{field}'"

namespace Config

/-- The configuration that holds where nothing is set. -/
def default : Config := ⟨true, .never, .union, .declared, false, [], .default⟩

/-- Check the configuration: no excluded name is blank. -/
def validate (c : Config) : Except ConfigError Unit :=
  match c.exclude.find? isBlankText with
  | some name => .error (.invalidValue "exclude" name)
  | none => .ok ()

/-- Whether a flag of this name may be offered. -/
def allowsFlag (c : Config) (name : String) : Bool :=
  !c.exclude.contains name

end Config

end TabCompletion
