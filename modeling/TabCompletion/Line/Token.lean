import TabCompletion.Line.Word
import TabCompletion.Text.Basic

/-!
# Tokens: the words of a line seen from a cursor

A token is a word together with what the cursor makes of it. Exactly one token is active: the
word in which the cursor stands, or an empty one put in where the cursor stands outside of all
words.
-/

namespace TabCompletion.Line

open Text

/-- A word as the cursor sees it. `typed` is the text up to the cursor, and `quote` the quote open
    there; for the other tokens `typed` is empty and `quote` is the one open where the word
    ended. -/
structure Token where
  text : String
  start : Nat
  stop : Nat
  active : Bool
  quote : Quote
  typed : String
deriving DecidableEq, Repr, Inhabited

/-- The place of the word at which the cursor stands. -/
def Word.stopAt? (w : Word) (cursor : Nat) : Option Stop :=
  w.stops.find? (·.offset == cursor)

/-- The word seen from the cursor. -/
def Word.token (w : Word) (cursor : Nat) : Token :=
  match w.stopAt? cursor with
  | some s => ⟨String.ofList w.text, w.start, w.stop, true, s.quote, String.ofList s.before.reverse⟩
  | none => ⟨String.ofList w.text, w.start, w.stop, false, w.openQuote, ""⟩

/-- The empty token of a cursor that stands in no word. -/
def Token.gap (cursor : Nat) : Token :=
  ⟨"", cursor, cursor, true, .none, ""⟩

/-- Put the gap token in front of the first token that starts at or after the cursor. -/
def insertGap (cursor : Nat) : List Token → List Token
  | [] => [.gap cursor]
  | t :: ts => if cursor ≤ t.start then .gap cursor :: t :: ts else t :: insertGap cursor ts

/-- The cursor moved back to the end of the line and to a character boundary. -/
def clampCursor (line : String) (cursor : Nat) : Nat :=
  floorBoundary line.toList cursor

/-- The tokens of a line for a cursor that stands on a character boundary. -/
def tokensAt (line : List Char) (cursor : Nat) : List Token :=
  let tokens := (words line).map (·.token cursor)
  if tokens.any (·.active) then tokens else insertGap cursor tokens

/-- The tokens of a line, one of them active. The cursor is clamped first. -/
def tokens (line : String) (cursor : Nat) : List Token :=
  tokensAt line.toList (clampCursor line cursor)

end TabCompletion.Line
