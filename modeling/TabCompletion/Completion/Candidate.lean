import TabCompletion.Text.Basic

/-!
# Candidates

A candidate is one suggestion for the word under the cursor.
-/

namespace TabCompletion

open Text

/-- What a candidate refers to. -/
inductive CandidateKind where
  | value
  | file
  | directory
deriving DecidableEq, Repr, Inhabited

/-- One suggestion: the text that is inserted, the text shown in a menu if it differs, a help
    text, and whether nothing can follow it in its word. -/
structure Candidate where
  value : String
  display : Option String
  description : Option String
  kind : CandidateKind
  finished : Bool
deriving DecidableEq, Repr, Inhabited

namespace Candidate

/-- A plain suggestion. -/
def plain (value : String) : Candidate :=
  ⟨value, none, none, .value, false⟩

/-- A plain suggestion with an optional help text. -/
def described (value : String) (description : Option String) : Candidate :=
  { plain value with description }

/-- A file, shown by its name. -/
def file (path name : String) : Candidate :=
  ⟨path, some name, none, .file, false⟩

/-- A directory, shown by its name. -/
def directory (path name : String) : Candidate :=
  ⟨path, some name, none, .directory, false⟩

/-- Whether more input is expected in the same word. -/
def continues (c : Candidate) : Bool :=
  c.kind = .directory || endsInAny c.value ['=', '/', ':']

/-- Candidates that insert the same text are the same suggestion. -/
def same (c d : Candidate) : Bool :=
  c.value = d.value

end Candidate

end TabCompletion
