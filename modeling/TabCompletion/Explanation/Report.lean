import TabCompletion.Explanation.Basic
import TabCompletion.Text.Quoted
import TabCompletion.Text.Table

/-!
# Reports

An explanation as sections of text: tokens and candidates as tables, the payload with everything
that cannot be shown escaped. Colours are optional.
-/

namespace TabCompletion

open Text Line

/-- Whether a report is coloured. -/
inductive Palette where
  | plain
  | coloured
deriving DecidableEq, Repr, Inhabited

namespace Palette

/-- A text between two escape sequences, if there are colours. -/
def between (p : Palette) (before after text : String) : String :=
  match p with
  | .plain => text
  | .coloured => before ++ text ++ after

/-- The title of a section. -/
def title (p : Palette) (text : String) : String :=
  p.between "\x1b[1;36m" "\x1b[0m" text

/-- The heading of a column. -/
def heading (p : Palette) (text : String) : String :=
  p.between "\x1b[36m\x1b[1m" "\x1b[39m\x1b[22m" text

/-- A warning. -/
def warning (p : Palette) (text : String) : String :=
  p.between "\x1b[33m" "\x1b[0m" text

end Palette

/-- The columns that a cell may have. -/
def maxCellWidth : Nat := 48

/-- A mark for what holds. -/
def mark (holds : Bool) : String :=
  if holds then "yes" else ""

/-- The character that opened a quote. -/
def Line.Quote.sign : Quote → String
  | .none => ""
  | .single => "'"
  | .double => "\""

/-- The name of a kind of candidates. -/
def CandidateKind.label : CandidateKind → String
  | .value => "value"
  | .file => "file"
  | .directory => "dir"

/-- The row of a token. -/
def Line.Token.row (t : Token) (index : Nat) : List String :=
  [toString index, quoted t.text, toString t.start ++ ".." ++ toString t.stop, mark t.active,
    t.quote.sign, if t.active then quoted t.typed else ""]

/-- The row of a candidate. -/
def Candidate.row (c : Candidate) : List String :=
  [c.value, c.kind.label, mark c.finished, c.description.getD ""]

namespace Explanation

/-- The table of tokens. -/
def tokenTable (e : Explanation) : Table :=
  ⟨["#", "text", "span", "active", "quote", "prefix"],
    e.tokens.zipIdx.map fun (t, i) => t.row i⟩

/-- The table of candidates. -/
def candidateTable (e : Explanation) : Table :=
  ⟨["value", "kind", "finished", "description"], e.outcome.candidates.map (·.row)⟩

/-- The section of warnings, which is left out if there are none. -/
def warningSection (p : Palette) (warnings : List String) : String :=
  if warnings.isEmpty then ""
  else p.title "Warnings" ++ "\n" ++ String.join (warnings.map fun w => p.warning w ++ "\n") ++ "\n"

/-- The sections of a report. -/
def report (p : Palette) (e : Explanation) : String :=
  let table (t : Table) := t.text maxCellWidth p.heading
  p.title "Tokens" ++ "\n" ++ table e.tokenTable ++ "\n\n"
    ++ p.title "Context" ++ "\n"
    ++ "scope:   " ++ joinWith " " e.commandPath ++ "\n"
    ++ "context: " ++ e.context ++ "\n"
    ++ "prefix:  " ++ quoted e.outcome.wordPrefix ++ "\n\n"
    ++ p.title "Candidates" ++ "\n"
    ++ (if e.outcome.candidates.isEmpty then "(no candidates)" else table e.candidateTable)
    ++ "\n\n" ++ warningSection p e.outcome.warnings
    ++ p.title "Payload" ++ "\n" ++ escaped e.payload ++ "\n"

end Explanation

end TabCompletion
