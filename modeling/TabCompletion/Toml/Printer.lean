import TabCompletion.Toml.Value

/-!
# Writing TOML text

A text is written in the plainest form that can hold it: between double quotes if nothing needs an
escape, else between single quotes, else between triple quotes of either kind, and with escapes if
no other form will do. A list of several items has each of them on a line of its own.
-/

namespace TabCompletion.Toml

/-! ## 1. Texts -/

/-- The length of the longest run of `q`, where `run` of them stand just before. -/
def longestRun (q : Char) (run : Nat) : List Char → Nat
  | [] => run
  | c :: cs => if c = q then longestRun q (run + 1) cs else max run (longestRun q 0 cs)

/-- Whether the character is a control character that only an escape can write. -/
def needsEscape (c : Char) : Bool :=
  (c.toNat < 0x20 && c != '\t' && c != '\n') || c.toNat = 0x7F

/-- How a text is written: with which quotes, and whether as a block that may hold line breaks. -/
inductive TextStyle where
  | basic
  | literal
  | basicBlock
  | literalBlock
deriving DecidableEq, Repr

/-- The plainest style that can hold the text. -/
def textStyle (cs : List Char) : TextStyle :=
  let escapes := cs.any needsEscape
  let breaks := cs.contains '\n'
  let backslash := cs.contains '\\'
  let doubles := longestRun '"' 0 cs
  let singles := longestRun '\'' 0 cs
  if !escapes && !backslash && doubles = 0 && !breaks then .basic
  else if !escapes && singles = 0 && !breaks then .literal
  else if !escapes && !backslash && doubles ≤ 2 then .basicBlock
  else if !escapes && singles ≤ 2 then .literalBlock
  else if breaks then .basicBlock
  else .basic

/-- An upper-case hexadecimal digit. -/
def upperHexDigit (n : Nat) : Char :=
  (Nat.digitChar n).toUpper

/-- A character with an escape where it needs one; `quote` says whether a double quote does. -/
def escapeChar (block quote : Bool) (c : Char) : List Char :=
  if c = '"' then if quote then ['\\', '"'] else ['"']
  else if c = '\x08' then ['\\', 'b']
  else if c = '\t' then ['\\', 't']
  else if c = '\n' then if block then ['\n'] else ['\\', 'n']
  else if c = '\x0c' then ['\\', 'f']
  else if c = '\r' then ['\\', 'r']
  else if c = '\\' then ['\\', '\\']
  else if c.toNat < 0x20 || c.toNat = 0x7F then
    ['\\', 'u', '0', '0', upperHexDigit (c.toNat / 16), upperHexDigit (c.toNat % 16)]
  else [c]

/-- The text of a basic style with its escapes. Double quotes stand for themselves up to two in a
    row in a block and not at all elsewhere; `run` of them stand just before, none being counted
    that comes before an escape. -/
def escapeText (block : Bool) (run : Nat) : List Char → List Char
  | [] => []
  | c :: cs =>
    let quote := c = '"' && (if block then 2 else 0) ≤ run
    let written := escapeChar block quote c
    written ++ escapeText block (if c = '"' && !quote then run + 1 else 0) cs

/-- A line break behind the opening quotes of a block, which is not part of its text. -/
def blockStart (cs : List Char) : List Char :=
  if cs.contains '\n' then ['\n'] else []

/-- A text with its quotes. -/
def writeText (s : String) : List Char :=
  let cs := s.toList
  match textStyle cs with
  | .basic => ['"'] ++ escapeText false 0 cs ++ ['"']
  | .literal => ['\''] ++ cs ++ ['\'']
  | .basicBlock => ['"', '"', '"'] ++ blockStart cs ++ escapeText true 0 cs ++ ['"', '"', '"']
  | .literalBlock => ['\'', '\'', '\''] ++ blockStart cs ++ cs ++ ['\'', '\'', '\'']

/-! ## 2. Values -/

/-- A truth value. -/
def writeBool (b : Bool) : List Char :=
  if b then ['t', 'r', 'u', 'e'] else ['f', 'a', 'l', 's', 'e']

/-- A list of texts. -/
def writeTexts : List String → List Char
  | [] => ['[', ']']
  | [s] => ['['] ++ writeText s ++ [']']
  | ss =>
    ['[', '\n'] ++ ss.flatMap (fun s => [' ', ' ', ' ', ' '] ++ writeText s ++ [',', '\n']) ++ [']']

/-- A key with its value, on a line. -/
def writeEntry (key : String) (value : List Char) : List Char :=
  key.toList ++ [' ', '=', ' '] ++ value ++ ['\n']

/-- The header of a table, behind an empty line. -/
def writeHeader (key : String) : List Char :=
  ['\n', '['] ++ key.toList ++ [']', '\n']

end TabCompletion.Toml
