import TabCompletion.Completion.Engine
import TabCompletion.Proofs.Spec.Scope

/-!
# The values that the sources name

Depending on the context of the word, candidates come from the sub-commands, from the source of an
action, and from the flags. This module lists their values, source after source.

* `Walk.commandNames`, `Engine.actionValues`, `Engine.flagNames`: what each source names;
* `Engine.consulted?`: the action whose source is asked for values, if one is;
* `sourceCandidates_eq`: the candidates of all sources, one source after the other;
* `map_value_sourceCandidates`: the candidates of all sources have these values, in this order.
-/

namespace TabCompletion

/-- Choices and hints are answered by what has been typed alone. -/
theorem Action.complete_source?_congr {a : Action} (h : a.completer = none) {source : Completer}
    (hs : a.source? = some source) {host : Host} {request request' : CompletionRequest}
    (ht : request'.typed = request.typed) :
    source.complete host request' = source.complete host request := by
  unfold Action.source? at hs
  rw [h] at hs
  dsimp only at hs
  split at hs
  · cases hs
    rfl
  · split at hs <;> cases hs <;> simp only [Completer.complete, Completer.files,
      Completer.directories, ht]

/-! ## 1. What each source names -/

/-- The names and aliases of the sub-commands, where one may come. -/
def Walk.commandNames (w : Walk) : List String :=
  match w.word.context with
  | .positional _ true => w.state.scope.childNames
  | _ => []

namespace Engine

variable {e : Engine} {host : Host} {w : Walk}

/-- The values of the action that is completed. The configuration may prefer the sub-commands, as
    soon as the name of one matches. -/
def actionValues (e : Engine) (host : Host) (w : Walk) : List String :=
  match w.word.context.valueAction? with
  | none => []
  | some a =>
    if e.config.subcommandPolicy = .preferSubcommands
        ∧ ∃ n ∈ w.commandNames, e.accepts n w.word.typed = true then []
    else (valueCandidates host w a).1.map (·.value)

/-- Whether the context and the configuration admit the name of a flag. -/
def admitsFlag (e : Engine) (w : Walk) (name : String) : Bool :=
  e.config.allowsFlag name && match w.word.context with
    | .flagName => true
    | .positional _ _ => !w.state.afterTerminator && e.config.optionCompletion.admits name
    | _ => false

/-- The names that are admitted of the flags that are still to be offered. -/
def flagNames (e : Engine) (w : Walk) : List String :=
  (w.state.scope.flags.filter (e.offersFlag w.state)).flatMap fun slot =>
    slot.action.names.filter (e.admitsFlag w)

/-- The values of all sources: sub-commands, the values of an action, flags. -/
def sourceValues (e : Engine) (host : Host) (w : Walk) : List String :=
  w.commandNames ++ e.actionValues host w ++ e.flagNames w

/-! ## 2. The candidates of each source -/

section

variable (e : Engine) (host : Host) (w : Walk)

/-- The action whose source is asked for values. None is, where names of flags are completed or
    nothing is, where all positionals have their values, and where the name of a sub-command matches
    and is preferred to values. -/
def consulted? : Option Slot :=
  match w.word.context with
  | .valueOf slot => some slot
  | .positional next _ =>
    if e.config.subcommandPolicy = .preferSubcommands
      ∧ ∃ n ∈ w.commandNames, e.accepts n w.word.typed = true then none else next
  | _ => none

/-- The values of that action, and the warning of its source. -/
def consultedValues : List Candidate × List String :=
  match e.consulted? w with
  | some slot => valueCandidates host w slot.action
  | none => ([], [])

/-- The sub-commands that may come. -/
def commandCandidates : List Candidate :=
  match w.word.context with
  | .positional _ true => subcommandCandidates w.state
  | _ => []

/-- The names of flags that may come. -/
def optionCandidates : List Candidate :=
  match w.word.context with
  | .flagName => e.flagCandidates w.state fun _ => true
  | .positional _ _ =>
    if e.config.optionCompletion != .never && !w.state.afterTerminator then
      e.flagCandidates w.state e.config.optionCompletion.admits
    else []
  | _ => []

end

theorem map_value_subcommandCandidates (s : ParseState) :
    (subcommandCandidates s).map (·.value) = s.scope.childNames := by
  unfold subcommandCandidates Command.childNames
  rw [List.map_flatMap]
  refine List.flatMap_congr fun c _ => ?_
  rw [List.map_map]
  exact List.map_id _

theorem map_value_flagCandidates (e : Engine) (s : ParseState) (admits : String → Bool) :
    (e.flagCandidates s admits).map (·.value)
      = (s.scope.flags.filter (e.offersFlag s)).flatMap fun slot =>
        slot.action.names.filter fun n => e.config.allowsFlag n && admits n := by
  unfold flagCandidates
  rw [List.map_flatMap]
  refine List.flatMap_congr fun slot _ => ?_
  rw [List.map_map]
  exact List.map_id _

theorem commandCandidates_of_positional {next : Option Slot} {subcommands : Bool}
    (hc : w.word.context = .positional next subcommands) :
    commandCandidates w = if subcommands then subcommandCandidates w.state else [] := by
  unfold commandCandidates
  rw [hc]
  cases subcommands <;> rfl

theorem map_value_commandCandidates (w : Walk) :
    (commandCandidates w).map (·.value) = w.commandNames := by
  unfold Walk.commandNames
  cases hc : w.word.context with
  | positional next subcommands =>
    rw [commandCandidates_of_positional hc]
    cases subcommands with
    | true => exact map_value_subcommandCandidates w.state
    | false => rfl
  | _ => simp [commandCandidates, hc]

/-- Without an admitted name no flag is named. -/
theorem flagNames_eq_nil (h : ∀ n, e.admitsFlag w n = false) : e.flagNames w = [] := by
  unfold flagNames
  rw [List.flatMap_eq_nil_iff]
  intro slot _
  rw [List.filter_eq_nil_iff]
  intro n _
  rw [h n]
  exact Bool.false_ne_true

/-- Where a positional may come, flags are named as far as the configuration asks for them. -/
theorem flagNames_eq_of_positional {next : Option Slot} {subcommands : Bool}
    (hc : w.word.context = .positional next subcommands) :
    e.flagNames w = (if e.config.optionCompletion != .never && !w.state.afterTerminator then
      e.flagCandidates w.state e.config.optionCompletion.admits else []).map (·.value) := by
  cases hopen : e.config.optionCompletion != .never && !w.state.afterTerminator with
  | true =>
    obtain ⟨-, ha⟩ := Bool.and_eq_true_iff.mp hopen
    rw [if_pos rfl, map_value_flagCandidates]
    unfold flagNames admitsFlag
    simp only [hc, ha, Bool.true_and]
  | false =>
    rw [if_neg Bool.false_ne_true, List.map_nil]
    refine flagNames_eq_nil fun n => ?_
    unfold admitsFlag
    rw [hc]
    dsimp only
    rcases Bool.and_eq_false_iff.mp hopen with hnever | hafter
    · have ho : e.config.optionCompletion = .never := by simpa using hnever
      rw [ho]
      simp [OptionCompletion.admits]
    · simp [hafter]

theorem map_value_optionCandidates (e : Engine) (w : Walk) :
    (e.optionCandidates w).map (·.value) = e.flagNames w := by
  unfold optionCandidates
  cases hc : w.word.context with
  | none => exact (flagNames_eq_nil fun n => by simp [admitsFlag, hc]).symm
  | flagName =>
    dsimp only
    rw [map_value_flagCandidates]
    unfold flagNames admitsFlag
    rw [hc]
  | valueOf slot => exact (flagNames_eq_nil fun n => by simp [admitsFlag, hc]).symm
  | positional next subcommands => exact (flagNames_eq_of_positional hc).symm

theorem map_value_consultedValues (e : Engine) (host : Host) (w : Walk) :
    (e.consultedValues host w).1.map (·.value) = e.actionValues host w := by
  unfold consultedValues consulted? actionValues
  cases hc : w.word.context with
  | none => rfl
  | flagName => rfl
  | valueOf slot =>
    have hnames : w.commandNames = [] := by simp [Walk.commandNames, hc]
    simp [Context.valueAction?, hnames]
  | positional next subcommands =>
    cases next with
    | none => simp [Context.valueAction?]
    | some slot =>
      dsimp only [Context.valueAction?, Option.map_some]
      by_cases hs : e.config.subcommandPolicy = .preferSubcommands
          ∧ ∃ n ∈ w.commandNames, e.accepts n w.word.typed = true
      · rw [if_pos hs, if_pos hs]
        exact List.map_nil
      · rw [if_neg hs, if_neg hs]

/-! ## 3. All candidates -/

/-- **Sub-commands, the values of one action, flags**: only these values come from a source that may
    fail. -/
theorem sourceCandidates_eq (e : Engine) (host : Host) (w : Walk) : e.sourceCandidates host w
    = (commandCandidates w ++ (e.consultedValues host w).1 ++ e.optionCandidates w,
      (e.consultedValues host w).2) := by
  have hmatched : ((commandCandidates w).any fun c => e.accepts c.value w.word.typed) = true
      ↔ ∃ n ∈ w.commandNames, e.accepts n w.word.typed = true := by
    rw [← map_value_commandCandidates]
    simp
  unfold sourceCandidates consultedValues consulted? optionCandidates
  cases hc : w.word.context with
  | none => simp [commandCandidates, hc]
  | flagName => simp [commandCandidates, hc]
  | valueOf slot => simp [commandCandidates, hc]
  | positional next subcommands =>
    have hskip : (((commandCandidates w).any fun c => e.accepts c.value w.word.typed)
        && decide (e.config.subcommandPolicy = .preferSubcommands)) = true
        ↔ e.config.subcommandPolicy = .preferSubcommands
          ∧ ∃ n ∈ w.commandNames, e.accepts n w.word.typed = true := by
      rw [Bool.and_eq_true, hmatched, decide_eq_true_eq, and_comm]
    dsimp only
    unfold positionalCandidates
    rw [← commandCandidates_of_positional hc]
    cases next with
    | none => simp
    | some slot =>
      by_cases hs : e.config.subcommandPolicy = .preferSubcommands
          ∧ ∃ n ∈ w.commandNames, e.accepts n w.word.typed = true
      · dsimp only
        rw [if_pos hs, if_pos (hskip.mpr hs)]
      · dsimp only
        rw [if_neg hs, if_neg (mt hskip.mp hs)]

/-- **The sources name their values in this order.** -/
theorem map_value_sourceCandidates (e : Engine) (host : Host) (w : Walk) :
    (e.sourceCandidates host w).1.map (·.value) = e.sourceValues host w := by
  unfold sourceValues
  rw [sourceCandidates_eq, List.map_append, List.map_append, map_value_commandCandidates,
    map_value_consultedValues, map_value_optionCandidates]

end Engine

end TabCompletion
