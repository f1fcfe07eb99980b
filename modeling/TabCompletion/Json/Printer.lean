import TabCompletion.Json.Value

/-!
# Writing JSON text

Each item of a list and each member of an object stands on a line of its own, two spaces deeper
than what holds it; an empty list or object stays on one line. Only quotes, backslashes and control
characters are escaped.
-/

namespace TabCompletion.Json

/-- One character of a written text. -/
def writeChar (c : Char) : List Char :=
  if c = '"' then ['\\', '"']
  else if c = '\\' then ['\\', '\\']
  else if c = '\x08' then ['\\', 'b']
  else if c = '\x0c' then ['\\', 'f']
  else if c = '\n' then ['\\', 'n']
  else if c = '\r' then ['\\', 'r']
  else if c = '\t' then ['\\', 't']
  else if c.toNat < 0x20 then
    ['\\', 'u', '0', '0', (c.toNat / 16).digitChar, (c.toNat % 16).digitChar]
  else [c]

/-- A written text with its quotes. -/
def writeText (s : String) : List Char :=
  ['"'] ++ s.toList.flatMap writeChar ++ ['"']

/-- A line break and the space before a line at a depth. -/
def lineStart (depth : Nat) : List Char :=
  '\n' :: List.replicate (2 * depth) ' '

mutual

/-- The value as it stands at a depth. -/
def Value.write (depth : Nat) : Value → List Char
  | .null => ['n', 'u', 'l', 'l']
  | .bool true => ['t', 'r', 'u', 'e']
  | .bool false => ['f', 'a', 'l', 's', 'e']
  | .number n => Nat.toDigits 10 (n.getD 0)
  | .text s => writeText (s.getD "")
  | .list vs =>
    if vs.isEmpty then ['[', ']']
    else ['['] ++ (writeItems (depth + 1) vs ++ (lineStart depth ++ [']']))
  | .object ms =>
    if ms.isEmpty then ['{', '}']
    else ['{'] ++ (writeMembers (depth + 1) ms ++ (lineStart depth ++ ['}']))

/-- The items of a list, each on its line. -/
def writeItems (depth : Nat) : List Value → List Char
  | [] => []
  | [v] => lineStart depth ++ v.write depth
  | v :: w :: vs => lineStart depth ++ (v.write depth ++ (',' :: writeItems depth (w :: vs)))

/-- The members of an object, each on its line. -/
def writeMembers (depth : Nat) : List (Option String × Value) → List Char
  | [] => []
  | [(k, v)] => lineStart depth ++ (writeText (k.getD "") ++ (':' :: ' ' :: v.write depth))
  | (k, v) :: m :: ms =>
    lineStart depth ++ (writeText (k.getD "")
      ++ (':' :: ' ' :: (v.write depth ++ (',' :: writeMembers depth (m :: ms)))))

end

/-- The text of a value. -/
def Value.pretty (v : Value) : String :=
  String.ofList (v.write 0)

example : (Value.ofMembers [("a", .list []), ("b", .strs ["x", "y"])]).pretty
    = "\x7b\n  \"a\": [],\n  \"b\": [\n    \"x\",\n    \"y\"\n  ]\n\x7d" := by
  decide

end TabCompletion.Json
