import TabCompletion.Proofs.Spec.Scope
import TabCompletion.Spec.Validation

/-!
# Commands without their completers

Completers are not written into files, and whether a command is well formed depends on everything but
its completers. This module says how the parts of a command look once they are left out.

* `Command.treeInduction`: a property of all commands, from their direct sub-commands upwards;
* `withoutCompleters_eq`: what is left of a command;
* `validate_withoutCompleters`: the same trees are well-formed.
-/

namespace TabCompletion

namespace Command

/-- A property that every command has as soon as its direct sub-commands have it. -/
theorem treeInduction {P : Command → Prop}
    (step : ∀ c, (∀ child ∈ c.subcommands, P child) → P c) : ∀ c, P c
  | ⟨name, aliases, help, flagChars, actions, subcommands⟩ =>
    step ⟨name, aliases, help, flagChars, actions, subcommands⟩ fun child hc =>
      have := List.sizeOf_lt_of_mem hc
      treeInduction step child

/-! ## 1. The parts of a command -/

theorem withoutCompletersAll_eq_map (cs : List Command) :
    withoutCompletersAll cs = cs.map withoutCompleters := by
  induction cs with
  | nil => rfl
  | cons c cs ih => rw [withoutCompletersAll, ih, List.map_cons]

theorem withoutCompleters_eq (c : Command) : c.withoutCompleters =
    { c with
      actions := c.actions.map (·.withoutCompleter)
      subcommands := c.subcommands.map withoutCompleters } := by
  cases c
  rw [withoutCompleters, withoutCompletersAll_eq_map]

variable (c : Command)

@[simp] theorem name_withoutCompleters : c.withoutCompleters.name = c.name := by
  rw [withoutCompleters_eq]

@[simp] theorem flagChars_withoutCompleters : c.withoutCompleters.flagChars = c.flagChars := by
  rw [withoutCompleters_eq]

@[simp] theorem actions_withoutCompleters :
    c.withoutCompleters.actions = c.actions.map (·.withoutCompleter) := by
  rw [withoutCompleters_eq]

@[simp] theorem subcommands_withoutCompleters :
    c.withoutCompleters.subcommands = c.subcommands.map withoutCompleters := by
  rw [withoutCompleters_eq]

@[simp] theorem allNames_withoutCompleters : c.withoutCompleters.allNames = c.allNames := by
  rw [withoutCompleters_eq]
  rfl

/-! ## 2. Validation -/

theorem startsLikeFlag_withoutCompleters (w : String) :
    c.withoutCompleters.startsLikeFlag w = c.startsLikeFlag w := by
  unfold startsLikeFlag
  rw [flagChars_withoutCompleters]

theorem checkFlagNames_withoutCompleters (seen ns : List String) :
    c.withoutCompleters.checkFlagNames seen ns = c.checkFlagNames seen ns := by
  induction ns generalizing seen with
  | nil => rfl
  | cons n ns ih =>
    unfold checkFlagNames
    rw [startsLikeFlag_withoutCompleters, name_withoutCompleters, ih]

theorem checkActions_withoutCompleters (seen : List String) (as : List Action) :
    c.withoutCompleters.checkActions seen (as.map (·.withoutCompleter))
      = c.checkActions seen as := by
  have hstarts : c.withoutCompleters.startsLikeFlag = c.startsLikeFlag :=
    funext c.startsLikeFlag_withoutCompleters
  induction as generalizing seen with
  | nil => rfl
  | cons a as ih =>
    have ha : c.withoutCompleters.checkAction seen a.withoutCompleter = c.checkAction seen a := by
      unfold checkAction
      rw [hstarts, name_withoutCompleters, checkFlagNames_withoutCompleters]
      rfl
    rw [List.map_cons, checkActions, checkActions, ha]
    exact congrArg _ (funext fun seen => ih seen)

theorem validateAll_withoutCompleters {cs : List Command}
    (h : ∀ c ∈ cs, c.withoutCompleters.validate = c.validate) (parent : String)
    (seen : List String) :
    validateAll parent seen (cs.map withoutCompleters) = validateAll parent seen cs := by
  induction cs generalizing seen with
  | nil => rfl
  | cons c cs ih =>
    obtain ⟨hc, hcs⟩ := List.forall_mem_cons.mp h
    rw [List.map_cons, validateAll, validateAll, allNames_withoutCompleters, hc]
    exact congrArg _ (funext fun seen => congrArg _ (funext fun _ => ih hcs seen))

theorem validate_eq : c.validate = (do
    c.checkActions [] c.actions
    validateAll c.name [] c.subcommands) := by
  cases c
  rw [validate]

/-- **Completers do not matter to validation.** -/
theorem validate_withoutCompleters : ∀ c : Command, c.withoutCompleters.validate = c.validate :=
  treeInduction fun c ih => by
    rw [validate_eq, validate_eq, actions_withoutCompleters, subcommands_withoutCompleters,
      name_withoutCompleters, checkActions_withoutCompleters, validateAll_withoutCompleters ih]

end Command

end TabCompletion
