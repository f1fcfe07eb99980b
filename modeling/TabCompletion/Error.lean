import TabCompletion.Config.Basic
import TabCompletion.Completion.Request
import TabCompletion.Shell.Answer
import TabCompletion.Spec.Validation

/-!
# Errors

Everything that can go wrong outside of answering a request. While a request is answered, no error
reaches the shell.
-/

namespace TabCompletion

/-- An error and where it comes from. Files and JSON texts may give a reason of their own. -/
inductive Error where
  | config (e : ConfigError)
  | spec (e : SpecError)
  | completer (e : CompleterError)
  | protocol (e : ProtocolError)
  | file (reason : String)
  | json (reason : String)
  | other (message : String)
deriving DecidableEq, Repr

namespace Error

/-- The wording of an error. -/
def message : Error → String
  | .config e => s!"Configuration error: {e.message}"
  | .spec e => s!"Spec error: {e.message}"
  | .completer e => e.message
  | .protocol e => s!"Protocol error: {e.message}"
  | .file reason => s!"I/O error: {reason}"
  | .json reason => s!"JSON error: {reason}"
  | .other message => message

/-- Whether another error is the cause of this one. -/
def hasSource : Error → Bool
  | .file _ | .json _ => true
  | _ => false

end Error

end TabCompletion
