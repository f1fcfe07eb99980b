import TabCompletion.Shell.Answer

/-!
# Explanations

What completion makes of one line, stage by stage: the tokens, what the word under the cursor is,
the candidates, and the text that the shell would read.
-/

namespace TabCompletion

open Line

/-- The stages of the completion of one line. `commandPath` names the commands that the words led
    through, and `context` describes the word under the cursor. -/
structure Explanation where
  tokens : List Token
  commandPath : List String
  context : String
  outcome : Outcome
  payload : String
deriving Inhabited

/-- Explain what a request is answered. -/
def Engine.explain (e : Engine) (host : Host) (root : Command) (r : ShellRequest) : Explanation :=
  let tokens := Line.tokens r.line r.cursor
  let walk := Walk.ofTokens root tokens
  let outcome := e.complete host walk
  ⟨tokens, walk.state.commandPath, walk.word.context.label, outcome, r.encode outcome⟩

end TabCompletion
