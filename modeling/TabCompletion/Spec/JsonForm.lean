import TabCompletion.Json.Fields
import TabCompletion.Json.Printer
import TabCompletion.Json.Reader
import TabCompletion.Spec.Validation

/-!
# The JSON form of a command

A command is written as an object with its fields in a fixed order; empty lists of aliases and
choices and missing help texts are left out, completers always are. Reading fills in what is left
out and checks the tree.
-/

namespace TabCompletion

open Json

/-- The number of lists and objects that may be open at once in what is read. -/
def maxNesting : Nat := 127

/-! ## 1. Names of alternatives -/

namespace Arity

/-- The JSON form. -/
def toJson : Arity → Value
  | .zero => .str "zero"
  | .one => .str "one"
  | .exactly n => .ofMembers [("exactly", .number (some n))]
  | .optional => .str "optional"
  | .zeroOrMore => .str "zero_or_more"
  | .oneOrMore => .str "one_or_more"

/-- The arity of a name that stands alone. -/
def ofName? : String → Option Arity
  | "zero" => some .zero
  | "one" => some .one
  | "optional" => some .optional
  | "zero_or_more" => some .zeroOrMore
  | "one_or_more" => some .oneOrMore
  | _ => none

/-- The arity that a value writes. -/
def ofJson? (depth : Nat) (v : Value) : Option Arity :=
  match v.variant? depth with
  | some ("exactly", some n) => (n.nat? Text.wordBound).map .exactly
  | _ => (v.plainVariant? depth).bind ofName?

end Arity

namespace ValueHint

/-- The name of the hint. -/
def name : ValueHint → String
  | .any => "any"
  | .filePath => "file_path"
  | .dirPath => "dir_path"
  | .envVar => "env_var"
  | .nothing => "nothing"

/-- The hint of a name. -/
def ofName? : String → Option ValueHint
  | "any" => some .any
  | "file_path" => some .filePath
  | "dir_path" => some .dirPath
  | "env_var" => some .envVar
  | "nothing" => some .nothing
  | _ => none

theorem ofName?_name (h : ValueHint) : ofName? h.name = some h := by
  cases h <;> rfl

end ValueHint

/-! ## 2. Writing -/

/-- A list of texts as a member that is left out if it is empty. -/
def textsMember (key : String) (ss : List String) : List (String × Value) :=
  if ss.isEmpty then [] else [(key, .strs ss)]

/-- A text as a member that is left out if there is none. -/
def textMember (key : String) : Option String → List (String × Value)
  | none => []
  | some s => [(key, .str s)]

/-- The JSON form of an action. -/
def Action.toJson (a : Action) : Value :=
  .ofMembers ([("names", .strs a.names), ("positional", .bool a.positional),
      ("arity", a.arity.toJson)]
    ++ textsMember "choices" a.choices
    ++ [("value_hint", .str a.hint.name), ("terminator", .bool a.terminator),
      ("repeatable", .bool a.repeatable), ("hidden", .bool a.hidden)]
    ++ textMember "help" a.help)

mutual

/-- The JSON form of a command. -/
def Command.toJson : Command → Value
  | ⟨name, aliases, help, flagChars, actions, subcommands⟩ =>
    .ofMembers ([("name", .str name)] ++ textsMember "aliases" aliases ++ textMember "help" help
      ++ [("prefix_chars", .str flagChars), ("actions", .list (actions.map (·.toJson))),
        ("subcommands", .list (Command.allToJson subcommands))])

/-- The JSON forms of commands. -/
def Command.allToJson : List Command → List Value
  | [] => []
  | c :: cs => c.toJson :: Command.allToJson cs

end

/-- The JSON text of a command. -/
def Command.toJsonText (c : Command) : String :=
  c.toJson.pretty

/-! ## 3. Reading -/

/-- The fields of an action in their order. -/
def Action.fieldNames : List String :=
  ["names", "positional", "arity", "choices", "value_hint", "terminator", "repeatable", "hidden",
    "help"]

/-- The action that a value writes. It may open `depth` levels. -/
def Action.ofJson? : Nat → Value → Option Action
  | 0, _ => none
  | depth + 1, v => do
    let fs ← v.fields? Action.fieldNames
    let names ← fs.required "names" (Value.texts? depth)
    let positional ← fs.optional "positional" false Value.bool?
    let arity ← fs.optional "arity" .zero (Arity.ofJson? depth)
    let choices ← fs.optional "choices" [] (Value.texts? depth)
    let hint ← fs.optional "value_hint" .any fun v =>
      (v.plainVariant? depth).bind ValueHint.ofName?
    let terminator ← fs.optional "terminator" false Value.bool?
    let repeatable ← fs.optional "repeatable" false Value.bool?
    let hidden ← fs.optional "hidden" false Value.bool?
    let help ← fs.optional "help" none (Value.nullable? Value.text?)
    some ⟨names, positional, arity, choices, none, hint, terminator, repeatable, hidden, help⟩

namespace Command

/-- The fields of a command in their order. -/
def fieldNames : List String :=
  ["name", "aliases", "help", "prefix_chars", "actions", "subcommands"]

/-- The command that a value writes, given how its sub-commands are read. Its lists may open
    `depth` levels. -/
def ofFields? (depth : Nat) (children : Value → Option (List Command)) (v : Value) :
    Option Command := do
  let fs ← v.fields? fieldNames
  let name ← fs.required "name" Value.text?
  let aliases ← fs.optional "aliases" [] (Value.texts? depth)
  let help ← fs.optional "help" none (Value.nullable? Value.text?)
  let flagChars ← fs.optional "prefix_chars" "-" Value.text?
  let actions ← fs.optional "actions" [] (Value.list? depth Action.ofJson?)
  let subcommands ← fs.optional "subcommands" [] children
  some ⟨name, aliases, help, flagChars, actions, subcommands⟩

/-- The command that a value writes. It may open `depth` levels: one for the command itself and
    one for the list of its sub-commands. -/
def ofJson? : Nat → Value → Option Command
  | 0, _ => none
  | 1, v => ofFields? 0 (fun _ => none) v
  | depth + 2, v => ofFields? (depth + 1) (fun
      | .list items => items.mapM (ofJson? depth)
      | _ => none) v

end Command

/-- Why no command could be read from a text. -/
inductive SpecReadError where
  | json
  | spec (e : SpecError)
deriving DecidableEq, Repr

/-- The command that a JSON text writes, not checked. -/
def Command.parse? (text : String) : Option Command :=
  (Json.parse? text).bind (Command.ofJson? maxNesting)

/-- The well-formed command that a JSON text writes. -/
def Command.ofJsonText (text : String) : Except SpecReadError Command :=
  match Command.parse? text with
  | none => .error .json
  | some c => match c.validate with
    | .ok () => .ok c
    | .error e => .error (.spec e)

end TabCompletion
