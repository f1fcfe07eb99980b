import TabCompletion.Document.Fields
import TabCompletion.Json.Value

/-!
# Reading typed data from JSON values

Data with named fields is written as an object, or as a list of the fields in their order. Unknown
members of an object are skipped, whatever they hold. Lists and objects that are read may nest only
so deep: each reader gets the number of levels that it may still open.
-/

namespace TabCompletion.Json

open Document

/-- The keys of an object, if each of them is a text. -/
def memberNames? (members : List (Option String × Value)) : Option (List (String × Value)) :=
  members.mapM fun (k, v) => k.map (·, v)

/-- The fields `names` of a value: the members of an object with these names, none of them given
    twice, or the items of a list that is no longer than `names`. -/
def Value.fields? (names : List String) : Value → Option (Fields Value)
  | .object members => do
    let members ← memberNames? members
    let found := members.filter (names.contains ·.1)
    if (found.map (·.1)).Nodup then some ⟨found⟩ else none
  | .list items => if items.length ≤ names.length then some ⟨names.zip items⟩ else none
  | _ => none

/-- A text. -/
def Value.text? : Value → Option String
  | .text s => s
  | _ => none

/-- A truth value. -/
def Value.bool? : Value → Option Bool
  | .bool b => some b
  | _ => none

/-- A natural number below a bound. -/
def Value.nat? (bound : Nat) : Value → Option Nat
  | .number n => n.filter (· < bound)
  | _ => none

/-- Nothing, or what `read` finds. -/
def Value.nullable? (read : Value → Option α) : Value → Option (Option α)
  | .null => some none
  | v => (read v).map some

/-- The items of a list, each of them read with one level less. -/
def Value.list? (depth : Nat) (read : Nat → Value → Option α) : Value → Option (List α)
  | .list items => match depth with
    | 0 => none
    | d + 1 => items.mapM (read d)
  | _ => none

/-- A list of texts. -/
def Value.texts? (depth : Nat) : Value → Option (List String) :=
  Value.list? depth fun _ => Value.text?

/-- A named alternative: its name alone, or an object whose only member has the name as its key
    and holds what belongs to the alternative. -/
def Value.variant? (depth : Nat) : Value → Option (String × Option Value)
  | .text (some s) => some (s, none)
  | .object [(some k, v)] => if depth = 0 then none else some (k, some v)
  | _ => none

/-- The name of an alternative that holds nothing. -/
def Value.plainVariant? (depth : Nat) (v : Value) : Option String :=
  match v.variant? depth with
  | some (name, none) => some name
  | some (name, some .null) => some name
  | _ => none

/-- Typed data in JSON values. -/
def form : Form Value where
  fields? := Value.fields?
  bool? := Value.bool?
  texts? := Value.texts? 1
  plainVariant? := Value.plainVariant? 1

end TabCompletion.Json
