import TabCompletion.Error
import TabCompletion.Host.Basic
import TabCompletion.Spec.JsonForm

/-!
# Commands in files
-/

namespace TabCompletion

/-- The error for a text from which no command could be read. -/
def SpecReadError.toError : SpecReadError → Error
  | .json => .json ""
  | .spec e => .spec e

/-- The well-formed command in a JSON file. -/
def Command.ofFile (host : Host) (path : String) : Except Error Command :=
  if host.files.has path then
    match host.files.read path with
    | .error fault => .error (.file fault.message)
    | .ok text => (Command.ofJsonText text).mapError SpecReadError.toError
  else .error (.spec (.fileNotFound path))

end TabCompletion
