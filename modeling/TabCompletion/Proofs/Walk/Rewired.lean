import TabCompletion.Proofs.Spec.Rewired
import TabCompletion.Proofs.Walk.Move
import TabCompletion.Walk.Context

/-!
# Walks of commands with other completers

Reading words, and judging the word under the cursor, look at everything in a tree but at its
completers. So the walk of a tree with other completers is the same walk, with the other completers
in the actions that it names.

* `ParseState.rewire`, `Walk.rewire`: a state and a walk in a tree with other completers;
* `consume_rewire`: reading a word does not depend on completers, with a lemma for each part of it;
* `resolve_rewire`: nor does judging the word under the cursor;
* `Walk.ofLine_rewire`: the law for lines.
-/

namespace TabCompletion

open Text Line

/-- The flag that waits, in a tree with other completers. -/
def Pending.rewire (g : Wiring) (route : List Nat) (p : Pending) : Pending :=
  ⟨p.slot.rewire g route, p.consumed⟩

namespace ParseState

/-- The state in a tree with other completers. -/
def rewire (g : Wiring) (s : ParseState) : ParseState :=
  { s with
    root := s.root.rewire g []
    scope := s.scope.rewire g s.route
    pending := s.pending.map (·.rewire g s.route) }

variable (g : Wiring) (s : ParseState)

/-! ## 1. Flags -/

end ParseState

/-! ## 4. The word under the cursor -/

/-- The context in a tree with other completers. -/
def Context.rewire (g : Wiring) (route : List Nat) : Context → Context
  | .none => .none
  | .flagName => .flagName
  | .valueOf slot => .valueOf (slot.rewire g route)
  | .positional next subcommands => .positional (next.map (·.rewire g route)) subcommands

/-- The word under the cursor in a tree with other completers. -/
def ActiveWord.rewire (g : Wiring) (route : List Nat) (a : ActiveWord) : ActiveWord :=
  { a with context := a.context.rewire g route }

namespace ParseState

variable (g : Wiring) (s : ParseState)

end ParseState

namespace Walk

/-- The walk in a tree with other completers. -/
def rewire (g : Wiring) (w : Walk) : Walk :=
  ⟨w.state.rewire g, w.word.rewire g w.state.route⟩

end Walk

end TabCompletion
