import TabCompletion.Text.Numeral
import TabCompletion.Toml.Value

/-!
# The tokens of a TOML text

A TOML text is read character by character into separators, quoted texts, and runs of other
characters. Blanks are tokens, because a date and a time may be parted by one; comments are none.
-/

namespace TabCompletion.Toml

open Text

/-- A token. A quoted text is `block` if it may run over several lines. -/
inductive Token where
  | dot
  | equals
  | comma
  | openBracket
  | closeBracket
  | openBrace
  | closeBrace
  | space
  | newline
  | text (block : Bool) (s : String)
  | run (s : List Char)
deriving DecidableEq, Repr, Inhabited

/-! ## 1. Quoted texts -/

/-- Whether the character may stand for itself in a quoted text of one line. -/
def isTextChar (c : Char) : Bool :=
  c = '\t' || (0x20 ≤ c.toNat && c.toNat != 0x7F)

/-- Whether all characters may stand for themselves, line breaks too if `block`. A carriage return
    is part of a line break. -/
def isPlainText (block : Bool) : List Char → Bool
  | [] => true
  | '\r' :: '\n' :: cs => block && isPlainText block cs
  | c :: cs => (isTextChar c || (block && c = '\n')) && isPlainText block cs

/-- The text without the line break it starts with. -/
def dropFirstBreak : List Char → List Char
  | '\n' :: cs => cs
  | '\r' :: '\n' :: cs => cs
  | cs => cs

/-- The character that a backslash and one letter stand for. -/
def shortEscape? : Char → Option Char
  | 'b' => some '\x08'
  | 't' => some '\t'
  | 'n' => some '\n'
  | 'f' => some '\x0c'
  | 'r' => some '\r'
  | 'e' => some '\x1b'
  | '"' => some '"'
  | '\\' => some '\\'
  | _ => none

/-- The number of hexadecimal digits that follow a backslash and a letter. -/
def hexDigitCount? : Char → Option Nat
  | 'x' => some 2
  | 'u' => some 4
  | 'U' => some 8
  | _ => none

/-- Where the resolving of escapes stands: in text; behind a backslash; in the number of a
    character, of which so many digits are missing; behind a backslash and blanks, before a line
    break; or in the blanks behind that line break. -/
inductive EscapeMode where
  | text
  | escape
  | number (missing value : Nat)
  | toBreak
  | pastBreak
deriving DecidableEq, Repr

/-- Whether the character is a blank, or the first part of a line break. -/
def isSkipped (c : Char) : Bool :=
  c = ' ' || c = '\t' || c = '\r'

/-- The mode behind a backslash and a character that joins lines, if it does. -/
def EscapeMode.joining? (c : Char) : Option EscapeMode :=
  if c = '\n' then some .pastBreak else if isSkipped c then some .toBreak else none

/-- Resolve the escapes of a text. In a block a backslash at the end of a line joins it with the
    next text. -/
def unescape? (block : Bool) : EscapeMode → List Char → Option (List Char)
  | .text, [] => some []
  | .pastBreak, [] => some []
  | _, [] => none
  | .text, c :: cs =>
    if c = '\\' then unescape? block .escape cs
    else (unescape? block .text cs).map (c :: ·)
  | .escape, c :: cs =>
    match shortEscape? c with
    | some x => (unescape? block .text cs).map (x :: ·)
    | none => match hexDigitCount? c with
      | some n => unescape? block (.number n 0) cs
      | none => match EscapeMode.joining? c with
        | some m => if block then unescape? block m cs else none
        | none => none
  | .number missing n, c :: cs =>
    match hexValue? c with
    | none => none
    | some d =>
      let n := 16 * n + d
      if 1 < missing then unescape? block (.number (missing - 1) n) cs
      else if n.isValidChar then (unescape? block .text cs).map (Char.ofNat n :: ·)
      else none
  | .toBreak, c :: cs =>
    match EscapeMode.joining? c with
    | some m => unescape? block m cs
    | none => none
  | .pastBreak, c :: cs =>
    if c = '\n' || isSkipped c then unescape? block .pastBreak cs
    else if c = '\\' then unescape? block .escape cs
    else (unescape? block .text cs).map (c :: ·)

example : unescape? true .text "a\\ \n b\\u00e9".toList = some "abé".toList
    ∧ unescape? false .text "a\\\nb".toList = none
    ∧ unescape? true .text "\\u00\\\ne9".toList = none := by
  decide

/-- The text between two quotes of one line, or between two triple quotes. -/
def textOf? (quote : Char) (block : Bool) (body : List Char) : Option Token :=
  let body := if block then dropFirstBreak body else body
  if isPlainText block body then
    if quote = '"' then
      (unescape? block .text body).map fun cs => .text block (String.ofList cs)
    else some (.text block (String.ofList body))
  else none

/-! ## 2. Tokens -/

/-- Where the reading stands. Characters that have been read are kept with the last one first.
    `opening` has seen one or two quotes at the start of a text; the number of a block is that of
    the quotes just read in it. -/
inductive LexMode where
  | outside
  | run (cs : List Char)
  | comment
  | carriageReturn
  | opening (quote : Char) (two : Bool)
  | line (quote : Char) (body : List Char)
  | lineEscape (body : List Char)
  | block (quote : Char) (body : List Char) (quotes : Nat)
  | blockEscape (body : List Char)

/-- The tokens read so far, the last one first, and where the reading stands. -/
structure Lexing where
  mode : LexMode
  done : List Token

/-- The token that the character is on its own. -/
def punctuation? : Char → Option Token
  | '.' => some .dot
  | '=' => some .equals
  | ',' => some .comma
  | '[' => some .openBracket
  | ']' => some .closeBracket
  | '{' => some .openBrace
  | '}' => some .closeBrace
  | ' ' => some .space
  | '\t' => some .space
  | '\n' => some .newline
  | _ => none

/-- A character between tokens, or one that may end a run. -/
def stepOutside (run : List Char) (done : List Token) (c : Char) : Lexing :=
  let done' := if run.isEmpty then done else .run run.reverse :: done
  match punctuation? c with
  | some t => ⟨.outside, t :: done'⟩
  | none =>
    if c = '#' then ⟨.comment, done'⟩
    else if c = '\r' then ⟨.carriageReturn, done'⟩
    else if c = '"' || c = '\'' then ⟨.opening c false, done'⟩
    else ⟨.run (c :: run), done⟩

/-- The quotes that belong to a block which ends with `quotes` of them, in front of its text. -/
def blockText? (quote : Char) (body : List Char) (quotes : Nat) : Option Token :=
  textOf? quote true (List.replicate (quotes - 3) quote ++ body).reverse

/-- A character of a block. Three quotes end it; one or two more just behind them belong to its
    text. -/
def stepBlock (quote : Char) (body : List Char) (quotes : Nat) (done : List Token) (c : Char) :
    Option Lexing :=
  if c = quote then
    if quotes = 4 then (blockText? quote body 5).map fun t => ⟨.outside, t :: done⟩
    else some ⟨.block quote body (quotes + 1), done⟩
  else if 3 ≤ quotes then
    (blockText? quote body quotes).map fun t => stepOutside [] (t :: done) c
  else
    let body := List.replicate quotes quote ++ body
    if c = '\\' && quote = '"' then some ⟨.blockEscape (c :: body), done⟩
    else some ⟨.block quote (c :: body) 0, done⟩

/-- A character of a text of one line. -/
def stepLine (quote : Char) (body : List Char) (done : List Token) (c : Char) : Option Lexing :=
  if c = quote then (textOf? quote false body.reverse).map fun t => ⟨.outside, t :: done⟩
  else if c = '\\' && quote = '"' then some ⟨.lineEscape (c :: body), done⟩
  else some ⟨.line quote (c :: body), done⟩

/-- Read one character. -/
def Lexing.step (l : Lexing) (c : Char) : Option Lexing :=
  match l.mode with
  | .outside => some (stepOutside [] l.done c)
  | .run cs => some (stepOutside cs l.done c)
  | .comment =>
    if c = '\n' then some ⟨.outside, .newline :: l.done⟩
    else if c = '\r' then some ⟨.carriageReturn, l.done⟩
    else if isTextChar c then some l
    else none
  | .carriageReturn => if c = '\n' then some ⟨.outside, .newline :: l.done⟩ else none
  | .opening quote false =>
    if c = quote then some ⟨.opening quote true, l.done⟩ else stepLine quote [] l.done c
  | .opening quote true =>
    if c = quote then some ⟨.block quote [] 0, l.done⟩
    else some (stepOutside [] (.text false "" :: l.done) c)
  | .line quote body => stepLine quote body l.done c
  | .lineEscape body => some ⟨.line '"' (c :: body), l.done⟩
  | .block quote body quotes => stepBlock quote body quotes l.done c
  | .blockEscape body => some ⟨.block '"' (c :: body) 0, l.done⟩

/-- The tokens, the last one first, if the text may end here. -/
def Lexing.finish (l : Lexing) : Option (List Token) :=
  match l.mode with
  | .outside | .comment => some l.done
  | .run cs => some (.run cs.reverse :: l.done)
  | .opening _ true => some (.text false "" :: l.done)
  | .block quote body quotes =>
    if 3 ≤ quotes then (blockText? quote body quotes).map (· :: l.done) else none
  | _ => none

/-- The tokens of a text, if it is made of tokens. A byte order mark at the start is skipped. -/
def tokens? (cs : List Char) : Option (List Token) :=
  let cs := match cs with
    | '\uFEFF' :: cs => cs
    | cs => cs
  ((cs.foldlM Lexing.step ⟨.outside, []⟩).bind Lexing.finish).map List.reverse

end TabCompletion.Toml
