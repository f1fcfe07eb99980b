import TabCompletion.Config.Form
import TabCompletion.Toml.Printer
import TabCompletion.Toml.Reader

/-!
# The TOML form of a configuration

Every setting is written, the logging settings in a table of their own. Reading fills in what is
missing and checks the result.
-/

namespace TabCompletion

namespace Toml

open Document

/-- The entries of a value as fields: a table's own, or the items of a list in the order of the
    fields. A date is a table in which no field is known. -/
def Value.fields? (names : List String) : Value → Option (Fields Value)
  | .table _ es => some ⟨es⟩
  | .list _ items => some ⟨names.zip items⟩
  | .date => some ⟨[]⟩
  | _ => none

/-- A truth value. -/
def Value.bool? : Value → Option Bool
  | .bool b => some b
  | _ => none

/-- A text. -/
def Value.text? : Value → Option String
  | .text s => some s
  | _ => none

/-- A list of texts. -/
def Value.texts? : Value → Option (List String)
  | .list _ items => items.mapM Value.text?
  | _ => none

/-- Whether the value is an empty list or table. -/
def Value.isHollow : Value → Bool
  | .list _ items => items.isEmpty
  | .table _ es => es.isEmpty
  | _ => false

/-- The name of an alternative that holds nothing: a text, or the only key of a table, with an
    empty list or table. -/
def Value.plainVariant? : Value → Option String
  | .text s => some s
  | .table _ [(key, v)] => if v.isHollow then some key else none
  | _ => none

/-- Typed data in TOML values. -/
def form : Form Value where
  fields? := Value.fields?
  bool? := Value.bool?
  texts? := Value.texts?
  plainVariant? := Value.plainVariant?

end Toml

namespace Config

open Toml

/-- The TOML text of a configuration. -/
def toToml (c : Config) : String :=
  String.ofList
    (writeEntry "append_space" (writeBool c.appendSpace)
      ++ writeEntry "always_complete_options" (writeText c.optionCompletion.name)
      ++ writeEntry "subcommand_policy" (writeText c.subcommandPolicy.name)
      ++ writeEntry "order" (writeText c.order.name)
      ++ writeEntry "print_hidden" (writeBool c.printHidden)
      ++ writeEntry "exclude" (writeTexts c.exclude)
      ++ writeHeader "logging"
      ++ writeEntry "level" (writeText c.logging.level.name)
      ++ writeEntry "timestamps" (writeBool c.logging.timestamps))

/-- The configuration that a TOML text writes, checked. -/
def ofToml (text : String) : Except ConfigError Config :=
  match (Toml.parse? text).bind (ofForm? Toml.form) with
  | none => .error (.invalidFormat "")
  | some c => match c.validate with
    | .ok () => .ok c
    | .error e => .error e

end Config

end TabCompletion
