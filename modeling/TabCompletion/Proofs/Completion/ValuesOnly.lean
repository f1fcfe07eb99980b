import TabCompletion.Proofs.Completion.Values
import TabCompletion.Proofs.Walk.Terminator

/-!
# Completion behind the terminator

Once the matching of flags has stopped, every word is a value, the one under the cursor too. No
configuration brings back the names of flags or of sub-commands.

* `NamesValue`, `namesValue_of_afterTerminator`: what the word under the cursor can be there;
* `Engine.valueSource`, `Engine.OffersValues`: candidates from the source of one action only;
* `only_values_behind_terminator`: all of it, for every run and whatever follows.
-/

namespace TabCompletion

open Text Line

/-! ## 1. The verdict -/

/-- The word under the cursor is no flag, assigns no value to one, and names no sub-command. -/
structure ActiveWord.NamesValue (a : ActiveWord) : Prop where
  noFlag : a.context ≠ .flagName
  unassigned : a.assignment = none
  noSubcommands : ∀ next subcommands, a.context = .positional next subcommands →
    subcommands = false

namespace ParseState

variable {s : ParseState}

theorem namesValue_of_afterTerminator (ha : s.afterTerminator = true) (w : String) (q : Quote) :
    (s.resolve w q).NamesValue := by
  have hr : s.resolve w q = ⟨w, none, q, s.valueContext⟩ :=
    resolve_impossible (by simp [flagPossible, ha])
  rw [hr]
  refine ⟨s.valueContext_ne_flagName, rfl, fun next subcommands hc => ?_⟩
  obtain ⟨-, -, hsub⟩ := valueContext_eq_positional hc
  rw [hsub, ha]
  rfl

end ParseState

/-! ## 2. The candidates -/

namespace Engine

variable {e : Engine} {host : Host} {w : Walk}

/-- The candidates from the source of the action that the context names, if any. -/
def valueSource (host : Host) (w : Walk) : List Candidate :=
  match w.word.context.valueAction? with
  | none => []
  | some a => (valueCandidates host w a).1

/-- The engine adds no name of a flag or a sub-command: what it offers are the values that match,
    from the source of one action. -/
structure OffersValues (e : Engine) (host : Host) (w : Walk) : Prop where
  sources : (e.sourceCandidates host w).1 = valueSource host w
  values : ∀ v, v ∈ (e.complete host w).values ↔
    ∃ c ∈ valueSource host w, c.value = v ∧ e.accepts v w.word.typed = true

/-- Without sub-commands and flags only the values of the next positional are left. -/
theorem positionalCandidates_behind (ha : w.state.afterTerminator = true) (next : Option Slot) :
    (e.positionalCandidates host w next false).1 = match next with
      | some slot => (valueCandidates host w slot.action).1
      | none => [] := by
  unfold positionalCandidates
  cases next <;> simp [ha]

theorem sourceCandidates_behind (ha : w.state.afterTerminator = true) (hw : w.word.NamesValue) :
    (e.sourceCandidates host w).1 = valueSource host w := by
  unfold sourceCandidates valueSource
  cases hc : w.word.context with
  | none => rfl
  | flagName => exact absurd hc hw.noFlag
  | valueOf slot => rfl
  | positional next subcommands =>
    obtain rfl := hw.noSubcommands next subcommands hc
    refine (positionalCandidates_behind ha next).trans ?_
    cases next <;> rfl

/-- **Behind the terminator only values are offered**, whatever the configuration. -/
theorem offersValues_behind (ha : w.state.afterTerminator = true) (hw : w.word.NamesValue) :
    e.OffersValues host w := by
  have hsources : (e.sourceCandidates host w).1 = valueSource host w :=
    sourceCandidates_behind ha hw
  refine ⟨hsources, fun v => ?_⟩
  have hfront : ∀ c : Candidate, w.word.assignment.getD "" ++ c.value = c.value := fun c => by
    rw [hw.unassigned]
    exact String.empty_append
  rw [mem_values_complete_iff, hsources]
  constructor
  · intro h
    obtain ⟨c, hc, haccepts, hv⟩ := h
    rw [hfront] at hv
    exact ⟨c, hc, hv, hv ▸ haccepts⟩
  · intro h
    obtain ⟨c, hc, hv, haccepts⟩ := h
    exact ⟨c, hc, hv ▸ haccepts, (hfront c).trans hv⟩

end Engine

/-! ## 3. Every run -/

namespace ParseState

/-- **Behind the terminator nothing but values happens.** Whatever words follow, the scope, the path
    and the flags given stay, each word goes to the flag that waits or else to the next positional,
    and neither names of flags nor names of sub-commands are completed. -/
theorem only_values_behind_terminator (root : Command) (words : List String)
    (ha : ((start root).consumeAll words).afterTerminator = true) (more : List String) :
    let s := (start root).consumeAll words
    let t := s.consumeAll more
    Settled s t ∧ (∀ w, t.Absorbs w)
      ∧ ∀ p q, (t.resolve p q).NamesValue
        ∧ ∀ (e : Engine) (host : Host), e.OffersValues host ⟨t, t.resolve p q⟩ := by
  intro s t
  have hs : Sound root s := sound_run root words
  have hsettled : Settled s t := settled_run hs ha more
  have ht : Sound root t := sound_consumeAll hs more
  have hafter := hsettled.afterTerminator
  refine ⟨hsettled, fun w => absorbs_of_afterTerminator ht hafter w, fun p q => ?_⟩
  have hnames := namesValue_of_afterTerminator hafter p q
  exact ⟨hnames, fun e host => Engine.offersValues_behind hafter hnames⟩

/-- A program with a flag that takes all words behind it, another flag, and a sub-command. -/
def delegating : Command :=
  { Command.empty "task" with
    actions := [{ Action.flag ["--exec"] with arity := .zeroOrMore, terminator := true },
      Action.flag ["--quiet"]]
    subcommands := [Command.empty "push"] }

/-- Behind `--exec` the words `--quiet` and `push` are its values, and a hyphen completes no flag. -/
theorem only_values_delegating :
    ((start delegating).consumeAll ["--exec"]).afterTerminator = true
      ∧ ((start delegating).consumeAll ["--exec", "--quiet", "push"]).parsed.get? "exec"
        = some ["--quiet", "push"]
      ∧ ((start delegating).consumeAll ["--exec", "--quiet", "push"]).satisfied = [0]
      ∧ (((start delegating).consumeAll ["--exec", "--quiet", "push"]).resolve "-" .none).context
        ≠ .flagName := by
  have hstops : ((start delegating).consumeAll ["--exec"]).afterTerminator = true := rfl
  have hfirst := only_values_behind_terminator delegating ["--exec"] hstops ["--quiet"]
  have hboth := only_values_behind_terminator delegating ["--exec"] hstops ["--quiet", "push"]
  have hgains := (hfirst.2.1 "push").waiting _ rfl "exec"
  exact ⟨hstops, hgains, hboth.1.satisfied, (hboth.2.2 "-" .none).1.noFlag⟩

end ParseState

end TabCompletion
