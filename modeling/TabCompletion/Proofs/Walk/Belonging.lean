import TabCompletion.Proofs.Walk.Verdict

/-!
# Whose values are completed

The context of the active word may name an action: the flag that waits, the flag in front of the
equals sign, or the next positional. Each of them is an action of the scope that has been reached,
and the scope belongs to the tree.

* `WaitsInScope`: the flag that waits is one of the scope;
* `valueAction?_mem_of_resolve`: the action whose values are completed is one of the scope;
* `Walk.Belongs`, `Walk.belongs_ofTokens`: this holds for every line.
-/

namespace TabCompletion

open Text Line

namespace ParseState

variable {s : ParseState}

/-! ## 1. The flag that waits -/

/-- A flag that waits is one of the scope. -/
def WaitsInScope (s : ParseState) : Prop :=
  ∀ p, s.pending = some p → p.slot ∈ s.scope.flags

theorem waitsInScope_start (root : Command) : (start root).WaitsInScope :=
  fun _ h => nomatch h

/-- Every move leaves a flag of the scope waiting, if any. -/
theorem waitsInScope_move {t : ParseState} (h : s.WaitsInScope) (hm : Move s t) :
    t.WaitsInScope := by
  cases hm with
  | @feed p w hp =>
    intro q hq
    rw [(s.pending_feed w hq).1]
    exact h p hp
  | release => exact fun _ hq => nomatch hq
  | stopFlags => exact h
  | close =>
    obtain ⟨cursor, count, hc⟩ := s.closePositional_eq
    rw [hc]
    exact h
  | @bind slot v hp hs =>
    intro p hb
    rw [bind_scope, (s.pending_bind slot v hp hb).1]
    exact hs
  | descend => exact fun _ hq => nomatch hq
  | @fill w =>
    obtain ⟨cursor, count, hf⟩ := s.fillPositional_eq w
    rw [hf]
    exact h

/-- After every run a flag that waits is one of the scope. -/
theorem waitsInScope_run (root : Command) (words : List String) :
    ((start root).consumeAll words).WaitsInScope :=
  (consumeAll_moves _ words).keep (fun _ _ => waitsInScope_move) (waitsInScope_start root)

/-! ## 2. The action of the context -/

theorem seek_mem {cursor count : Nat} {slot : Slot} {ps : List Slot}
    (h : (seek cursor count ps).2.2 = some slot) : slot ∈ ps := by
  induction ps generalizing cursor count with
  | nil => cases h
  | cons p ps ih =>
    unfold seek at h
    split at h
    · cases h
      exact List.mem_cons_self
    · exact List.mem_cons_of_mem p (ih h)

/-- The next positional is one of the scope. -/
theorem nextPositional?_mem {slot : Slot} (h : s.nextPositional? = some slot) :
    slot ∈ s.scope.positionals :=
  List.mem_of_mem_drop (seek_mem h)

theorem valueAction?_mem_of_valueContext (h : s.WaitsInScope) {a : Action}
    (ha : s.valueContext.valueAction? = some a) : a ∈ s.scope.actions := by
  unfold valueContext at ha
  cases hp : s.pending with
  | some p =>
    rw [hp] at ha
    cases ha
    exact Command.action_mem_of_mem_slots (Command.mem_flags.mp (h p hp)).1
  | none =>
    rw [hp] at ha
    obtain ⟨slot, hn, rfl⟩ := Option.map_eq_some_iff.mp ha
    exact Command.action_mem_of_mem_slots (List.mem_filter.mp (nextPositional?_mem hn)).1

/-- **The action whose values are completed is one of the scope.** -/
theorem valueAction?_mem_of_resolve (h : s.WaitsInScope) {w : String} {q : Quote} {a : Action}
    (ha : (s.resolve w q).context.valueAction? = some a) : a ∈ s.scope.actions := by
  rcases s.resolve_cases w q with ⟨slot, name, value, -, hi, hr⟩ | ⟨-, -, -, hr⟩ | ⟨-, hr⟩
  · rw [hr] at ha
    cases ha
    obtain ⟨-, hf, -⟩ := inlineFlag?_eq_some_iff.mp hi
    exact Command.action_mem_of_mem_slots (Command.mem_flags.mp (Command.findFlag?_mem hf).1).1
  · rw [hr] at ha
    cases ha
  · rw [hr] at ha
    exact valueAction?_mem_of_valueContext h ha

end ParseState

namespace Walk

/-! ## 3. Every line -/

/-- The scope that was reached belongs to the tree below `root`, and the action whose values are
    completed belongs to that scope. -/
structure Belongs (root : Command) (w : Walk) : Prop where
  scope : root.HasScope w.state.scope
  action : ∀ a, w.word.context.valueAction? = some a → a ∈ w.state.scope.actions

/-- **Whatever the tokens are**, values are completed for an action of the tree only. -/
theorem belongs_ofTokens (root : Command) (ts : List Token) : (ofTokens root ts).Belongs root := by
  unfold ofTokens
  dsimp only
  split
  · exact ⟨.self root, fun _ h => nomatch h⟩
  · exact ⟨.self root, fun _ h => nomatch h⟩
  · rename_i before active _
    have hwaits := ParseState.waitsInScope_run root (before.map (·.text))
    exact ⟨(ParseState.sound_run root (before.map (·.text))).scope,
      fun _ h => ParseState.valueAction?_mem_of_resolve hwaits h⟩

end Walk

end TabCompletion
