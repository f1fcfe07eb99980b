import TabCompletion.Text.Blank

/-!
# Words of a command line

A raw, possibly unfinished line is read as shell words, one character at a time. Nothing is
refused: an open quote runs to the end of the line and a trailing backslash stands for itself.

* `Scan.step` reads one character; `words` folds it over a line and closes the last word.
* A word records every place at which a cursor can stand in it (`Stop`), with the letters before
  that place and the quote open there. The words themselves do not depend on a cursor.

Offsets count bytes of the UTF-8 form.
-/

namespace TabCompletion.Line

open Text

/-- The quote that is open at a place of the line. -/
inductive Quote where
  | none
  | single
  | double
deriving DecidableEq, Repr, Inhabited

/-- The character that closes the quote. -/
def Quote.closing? : Quote → Option Char
  | .none => Option.none
  | .single => some '\''
  | .double => some '"'

/-- A place of a word where a cursor can stand. `before` holds the letters of the word up to
    that place, the last one first. -/
structure Stop where
  offset : Nat
  before : List Char
  quote : Quote
deriving DecidableEq, Repr

/-- A shell word: its text without quotes and escapes, its bytes `start` to `stop` of the line,
    and the quote still open when the word ended. -/
structure Word where
  text : List Char
  start : Nat
  stop : Nat
  openQuote : Quote
  stops : List Stop
deriving DecidableEq, Repr

/-- How the next character is read. The two escape modes follow a backslash that has been seen
    and not yet used. -/
inductive Mode where
  | plain
  | plainEscape
  | single
  | double
  | doubleEscape
deriving DecidableEq, Repr

/-- The quote open in a mode. -/
def Mode.quote : Mode → Quote
  | .plain | .plainEscape => .none
  | .single => .single
  | .double | .doubleEscape => .double

/-- A word in progress. Letters and stops are kept with the last one first. -/
structure Draft where
  start : Nat
  letters : List Char
  stops : List Stop
deriving DecidableEq, Repr

namespace Draft

/-- The word that has just begun at `offset`. -/
def begin (offset : Nat) : Draft := ⟨offset, [], []⟩

/-- Note that a cursor at `offset` stands behind the letters read so far. -/
def mark (d : Draft) (offset : Nat) (quote : Quote) : Draft :=
  { d with stops := ⟨offset, d.letters, quote⟩ :: d.stops }

/-- Add a letter. -/
def push (d : Draft) (c : Char) : Draft :=
  { d with letters := c :: d.letters }

/-- The finished word, which ends at `stop`. -/
def finish (d : Draft) (stop : Nat) (openQuote : Quote) : Word :=
  ⟨d.letters.reverse, d.start, stop, openQuote, d.stops.reverse⟩

end Draft

/-- Where the reading of a line stands: the offset of the next character, how it is read, the
    word in progress and the finished words, the last one first. -/
structure Scan where
  offset : Nat
  mode : Mode
  draft : Option Draft
  done : List Word
deriving DecidableEq, Repr

namespace Scan

/-- The start of a line. -/
def start : Scan := ⟨0, .plain, none, []⟩

/-- The word in progress, begun at `offset` if there is none. -/
def draftFrom (s : Scan) (offset : Nat) : Draft :=
  s.draft.getD (.begin offset)

/-- A character outside quotes. A blank ends the word in progress. -/
def stepPlain (s : Scan) (c : Char) : Scan :=
  let next := s.offset + c.utf8Size
  if isBlank c then
    match s.draft with
    | none => { s with offset := next }
    | some d => ⟨next, .plain, none, (d.mark s.offset .none).finish s.offset .none :: s.done⟩
  else if c = '\\' then
    { s with offset := next, mode := .plainEscape }
  else
    let d := (s.draftFrom s.offset).mark s.offset .none
    if c = '\'' then { s with offset := next, mode := .single, draft := some d }
    else if c = '"' then { s with offset := next, mode := .double, draft := some d }
    else { s with offset := next, draft := some (d.push c) }

/-- The character after a backslash outside quotes. Backslash and line break vanish together;
    any other character stands for itself. -/
def stepPlainEscape (s : Scan) (c : Char) : Scan :=
  let next := s.offset + c.utf8Size
  let backslash := s.offset - 1
  if c = '\n' then
    ⟨next, .plain, s.draft.map (·.mark backslash .none), s.done⟩
  else
    let d := (s.draftFrom backslash).mark backslash .none
    ⟨next, .plain, some ((d.mark s.offset .none).push c), s.done⟩

/-- A character inside single quotes, where only the closing quote is special. -/
def stepSingle (s : Scan) (c : Char) : Scan :=
  let d := (s.draftFrom s.offset).mark s.offset .single
  let next := s.offset + c.utf8Size
  if c = '\'' then { s with offset := next, mode := .plain, draft := some d }
  else { s with offset := next, draft := some (d.push c) }

/-- A character inside double quotes. -/
def stepDouble (s : Scan) (c : Char) : Scan :=
  let d := (s.draftFrom s.offset).mark s.offset .double
  let next := s.offset + c.utf8Size
  if c = '"' then { s with offset := next, mode := .plain, draft := some d }
  else if c = '\\' then { s with offset := next, mode := .doubleEscape, draft := some d }
  else { s with offset := next, draft := some (d.push c) }

/-- The characters that a backslash escapes inside double quotes. -/
def isDoubleEscapable (c : Char) : Bool :=
  c = '"' || c = '\\' || c = '$' || c = '\x60'

/-- The character after a backslash inside double quotes. Backslash and line break vanish
    together; before any other character that needs no escape the backslash is a letter. -/
def stepDoubleEscape (s : Scan) (c : Char) : Scan :=
  let d := s.draftFrom s.offset
  let next := s.offset + c.utf8Size
  if c = '\n' then { s with offset := next, mode := .double }
  else if isDoubleEscapable c then
    { s with offset := next, mode := .double, draft := some ((d.mark s.offset .double).push c) }
  else
    { s with
      offset := next, mode := .double,
      draft := some (((d.push '\\').mark s.offset .double).push c) }

/-- Read one character. -/
def step (s : Scan) (c : Char) : Scan :=
  match s.mode with
  | .plain => s.stepPlain c
  | .plainEscape => s.stepPlainEscape c
  | .single => s.stepSingle c
  | .double => s.stepDouble c
  | .doubleEscape => s.stepDoubleEscape c

/-- The backslash that no character follows is a letter. -/
def settle (s : Scan) : Scan :=
  match s.mode with
  | .plainEscape =>
    let backslash := s.offset - 1
    let d := (s.draftFrom backslash).mark backslash .none
    { s with mode := .plain, draft := some (d.push '\\') }
  | .doubleEscape => { s with mode := .double, draft := s.draft.map (·.push '\\') }
  | _ => s

/-- The words in line order, the one in progress closed by the end of the line. -/
def finish (s : Scan) : List Word :=
  let s := s.settle
  match s.draft with
  | none => s.done.reverse
  | some d =>
    ((d.mark s.offset s.mode.quote).finish s.offset s.mode.quote :: s.done).reverse

end Scan

/-- The words of a line. -/
def words (line : List Char) : List Word :=
  (line.foldl Scan.step Scan.start).finish

end TabCompletion.Line
