import TabCompletion.Config.Basic
import TabCompletion.Document.Fields
import TabCompletion.Json.Fields

/-!
# Reading a configuration

A configuration is a record of named fields. Missing fields have their defaults, unknown ones are
skipped.
-/

namespace TabCompletion

open Document

/-! ## 1. Names of settings -/

namespace OptionCompletion

/-- The name of the setting. -/
def name : OptionCompletion → String
  | .never => "never"
  | .long => "long"
  | .short => "short"
  | .all => "all"

/-- The setting of a name. -/
def ofName? : String → Option OptionCompletion
  | "never" => some .never
  | "long" => some .long
  | "short" => some .short
  | "all" => some .all
  | _ => none

theorem ofName?_name (o : OptionCompletion) : ofName? o.name = some o := by
  cases o <;> rfl

end OptionCompletion

namespace SubcommandPolicy

/-- The name of the policy. -/
def name : SubcommandPolicy → String
  | .union => "union"
  | .preferSubcommands => "prefer_subcommands"

/-- The policy of a name. -/
def ofName? : String → Option SubcommandPolicy
  | "union" => some .union
  | "prefer_subcommands" => some .preferSubcommands
  | _ => none

theorem ofName?_name (p : SubcommandPolicy) : ofName? p.name = some p := by
  cases p <;> rfl

end SubcommandPolicy

namespace CandidateOrder

/-- The name of the order. -/
def name : CandidateOrder → String
  | .declared => "declared"
  | .ranked => "ranked"

/-- The order of a name. -/
def ofName? : String → Option CandidateOrder
  | "declared" => some .declared
  | "ranked" => some .ranked
  | _ => none

theorem ofName?_name (o : CandidateOrder) : ofName? o.name = some o := by
  cases o <;> rfl

end CandidateOrder

namespace LogLevel

/-- The name of the level. -/
def name : LogLevel → String
  | .error => "error"
  | .warn => "warn"
  | .info => "info"
  | .debug => "debug"
  | .trace => "trace"

/-- The level of a name. -/
def ofName? : String → Option LogLevel
  | "error" => some .error
  | "warn" => some .warn
  | "info" => some .info
  | "debug" => some .debug
  | "trace" => some .trace
  | _ => none

theorem ofName?_name (l : LogLevel) : ofName? l.name = some l := by
  cases l <;> rfl

end LogLevel

/-! ## 2. Records -/

variable {α : Type}

/-- The fields of the logging settings in their order. -/
def Logging.fieldNames : List String :=
  ["level", "timestamps"]

/-- The logging settings that a value writes. -/
def Logging.ofForm? (f : Form α) (v : α) : Option Logging := do
  let fs ← f.fields? fieldNames v
  let level ← fs.optional "level" default.level fun v => (f.plainVariant? v).bind LogLevel.ofName?
  let timestamps ← fs.optional "timestamps" default.timestamps f.bool?
  some ⟨level, timestamps⟩

namespace Config

/-- The fields of a configuration in their order. -/
def fieldNames : List String :=
  ["append_space", "always_complete_options", "subcommand_policy", "order", "print_hidden",
    "exclude", "logging"]

/-- The configuration that a value writes, not checked. -/
def ofForm? (f : Form α) (v : α) : Option Config := do
  let fs ← f.fields? fieldNames v
  let appendSpace ← fs.optional "append_space" default.appendSpace f.bool?
  let optionCompletion ← fs.optional "always_complete_options" default.optionCompletion fun v =>
    (f.plainVariant? v).bind OptionCompletion.ofName?
  let subcommandPolicy ← fs.optional "subcommand_policy" default.subcommandPolicy fun v =>
    (f.plainVariant? v).bind SubcommandPolicy.ofName?
  let order ← fs.optional "order" default.order fun v =>
    (f.plainVariant? v).bind CandidateOrder.ofName?
  let printHidden ← fs.optional "print_hidden" default.printHidden f.bool?
  let exclude ← fs.optional "exclude" default.exclude f.texts?
  let logging ← fs.optional "logging" default.logging (Logging.ofForm? f)
  some ⟨appendSpace, optionCompletion, subcommandPolicy, order, printHidden, exclude, logging⟩

/-- The configuration that a JSON value writes, not checked. -/
def ofJson? : Json.Value → Option Config :=
  ofForm? Json.form

end Config

end TabCompletion
