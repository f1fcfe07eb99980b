import TabCompletion.Completion.Candidate
import TabCompletion.Completion.ParsedValues
import TabCompletion.Spec.Command

/-!
# Requests to completers

What a completer is told when it is asked for values, and how it may answer. A failure is an answer
too, and ends nothing.
-/

namespace TabCompletion

/-- Everything that a completer may look at: the text typed so far for this value, the action whose
    value it is, the command that the action belongs to, and the values of earlier words. Both have
    their completers, so that one completer can see the others of its command and of the
    sub-commands. -/
structure CompletionRequest where
  typed : String
  action : Action
  command : Command
  parsed : ParsedValues
deriving Inhabited

/-- The request as a completer sees it that does not look at completers. -/
def CompletionRequest.withoutCompleters (request : CompletionRequest) : CompletionRequest :=
  { request with
    action := request.action.withoutCompleter
    command := request.command.withoutCompleters }

/-- Why a completer gave no candidates. -/
inductive CompleterError where
  | failed (completer message : String)
  | panicked (completer message : String)
deriving DecidableEq, Repr

/-- The wording of a completer's error. -/
def CompleterError.message : CompleterError → String
  | .failed completer message => s!"Completer '{completer}' failed: {message}"
  | .panicked completer message => s!"Completer '{completer}' panicked: {message}"

/-- How a completer ends: with candidates, with an error of its own, or broken off, perhaps with a
    last message. -/
inductive CompleterResult where
  | candidates (cs : List Candidate)
  | failed (e : CompleterError)
  | brokenOff (message : Option String)
deriving Inhabited

end TabCompletion
