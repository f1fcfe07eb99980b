/-!
# TOML values

A value read from TOML text. Tables remember how they came to be, because that decides what may
still be added to them.
-/

namespace TabCompletion.Toml

/-- How a table came to be: by a header, on the way to a header, by a dotted key, or between
    braces. -/
inductive TableKind where
  | header
  | passed
  | dotted
  | braced
deriving DecidableEq, Repr, Inhabited

/-- A TOML value. The kinds of scalar that nothing reads are told apart no further. A list is one
    `ofTables` if its items come from headers. -/
inductive Value where
  | text (s : String)
  | bool (b : Bool)
  | number
  | date
  | list (ofTables : Bool) (items : List Value)
  | table (kind : TableKind) (entries : List (String × Value))
deriving Inhabited, Repr

/-- The entries of a table in the order in which they were first named. -/
abbrev Entries := List (String × Value)

end TabCompletion.Toml
