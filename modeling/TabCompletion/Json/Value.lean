/-!
# JSON values

A value read from JSON text keeps what a reader of it may need to know: the members of an object
in the order of the text, repeated keys included, and whether a number was written as a natural
number.
-/

namespace TabCompletion.Json

/-- A JSON value. A number is `none` unless it is written as a natural number. A text is `none` if
    an escape in it names half of a surrogate pair: such a text names no characters, and may stand
    only in a part of a document that nobody reads. -/
inductive Value where
  | null
  | bool (b : Bool)
  | number (n : Option Nat)
  | text (s : Option String)
  | list (items : List Value)
  | object (members : List (Option String × Value))
deriving Inhabited, Repr

namespace Value

/-- A text value. -/
def str (s : String) : Value := .text (some s)

/-- A list of texts. -/
def strs (ss : List String) : Value := .list (ss.map str)

/-- An object with the given members. -/
def ofMembers (ms : List (String × Value)) : Value :=
  .object (ms.map fun (k, v) => (some k, v))

end Value

end TabCompletion.Json
