import TabCompletion.Proofs.Walk.Verdict

/-!
# Declared names are reached

A scope that has just been entered reads the next word as it reads any other: first as a flag, then
as a sub-command, then as a value. Validation takes care that every name has one meaning only. It
does not take care that the name can be told from a value: a single character never is a flag.

* `Entered`, `entered_start`, `entered_descend`: the states just after a scope was entered;
* `Entered.consume_flagName`: a name of at least two characters gives its flag;
* `Entered.satisfied_consume_of_short`: a single character gives none;
* `Entered.consume_childName`: a name that does not look like a flag enters its sub-command;
* `declared_names_reached`: the law for well-formed trees.
-/

namespace TabCompletion

namespace ParseState

/-! ## 1. Entering a scope -/

/-- The scope `c` has just been entered: no flag waits or has been given in it, no positional has a
    value, and flags are matched. -/
structure Entered (c : Command) (s : ParseState) : Prop where
  scope : s.scope = c
  free : s.pending = none
  matching : s.afterTerminator = false
  ungiven : s.satisfied = []
  unfilled : s.positionalCursor = 0 ∧ s.positionalCount = 0

theorem entered_start (root : Command) : Entered root (start root) :=
  ⟨rfl, rfl, rfl, rfl, rfl, rfl⟩

/-- A sub-command has just been entered after its name, as long as flags are matched. -/
theorem entered_descend {s : ParseState} (ha : s.afterTerminator = false) (place : Nat)
    (child : Command) : Entered child (s.descend place child) :=
  ⟨rfl, rfl, ha, rfl, rfl, rfl⟩

namespace Entered

variable {c : Command} {s : ParseState} {w : String}

/-- A word that does not look like a flag, and is no bare `--`, is a sub-command or a value. -/
theorem consume_eq (h : Entered c s) (hl : c.isFlagLike w = false) (hd : w ≠ "--") :
    s.consume w = match c.findChild? w with
      | some (place, child) => s.descend place child
      | none => s.fillPositional w := by
  rw [consume_of_pending_none h.free]
  unfold consumeFree
  rw [if_neg (by simp [h.matching]), if_neg fun hw => hd hw.1, h.scope]
  exact if_neg (by simp [hl])

/-! ## 2. Flags -/

/-- **A declared name of at least two characters gives the flag that declares it.** -/
theorem consume_flagName (h : Entered c s) (hw : c.WellFormed) {slot : Slot} (hs : slot ∈ c.flags)
    (hn : w ∈ slot.action.names) (hl : 2 ≤ w.length) : s.consume w = s.bind slot none := by
  have hclose : s.closePositional = s := if_pos h.unfilled.2
  rw [← h.scope] at hw hs
  rw [consume_declared h.matching (mustTakeValue_of_none h.free) hw hs hn hl,
    beforeFlag_eq_self h.free hclose]

/-- A word of one character gives no flag, whatever is declared. -/
theorem satisfied_consume_of_short (h : Entered c s) (hl : w.length < 2) :
    (s.consume w).satisfied = [] := by
  have hlike : c.isFlagLike w = false :=
    Bool.eq_false_iff.mpr fun hf => Nat.not_le_of_lt hl (Command.isFlagLike_iff.mp hf).1
  have hdashes : w ≠ "--" := by
    intro he
    rw [he] at hl
    exact absurd hl (by decide)
  rw [h.consume_eq hlike hdashes]
  split
  · rfl
  · obtain ⟨cursor, count, hf⟩ := s.fillPositional_eq w
    rw [hf]
    exact h.ungiven

/-- A declared name gives the flag that declares it exactly if it has at least two characters. -/
theorem consume_flagName_iff (h : Entered c s) (hw : c.WellFormed) {slot : Slot}
    (hs : slot ∈ c.flags) (hn : w ∈ slot.action.names) :
    s.consume w = s.bind slot none ↔ 2 ≤ w.length := by
  refine ⟨fun hbind => ?_, h.consume_flagName hw hs hn⟩
  by_contra hshort
  have hgiven := h.satisfied_consume_of_short (Nat.lt_of_not_le hshort)
  rw [hbind, bind_satisfied, h.ungiven] at hgiven
  exact absurd hgiven (List.cons_ne_nil _ _)

/-! ## 3. Sub-commands -/

/-- **A name of a sub-command that does not look like a flag, and is no bare `--`, enters it.** -/
theorem consume_childName (h : Entered c s) (hw : c.WellFormed) {place : Nat} {child : Command}
    (hc : c.subcommands[place]? = some child) (hn : w ∈ child.allNames)
    (hl : c.isFlagLike w = false) (hd : w ≠ "--") : s.consume w = s.descend place child := by
  rw [h.consume_eq hl hd, hw.findChild?_eq hc hn]

end Entered

/-! ## 4. The law -/

/-- **Declared names are reached** in every scope of a well-formed tree that has just been entered:
    the name of a flag gives that flag exactly if it has at least two characters, and the name of a
    direct sub-command that can be told from a flag and from a bare `--` enters that sub-command. -/
theorem declared_names_reached (root : Command) (hv : root.validate = .ok ()) (c : Command)
    (hc : root.HasScope c) (s : ParseState) (hs : Entered c s) :
    (∀ slot ∈ c.flags, ∀ n ∈ slot.action.names, s.consume n = s.bind slot none ↔ 2 ≤ n.length)
      ∧ ∀ place child, c.subcommands[place]? = some child → ∀ n ∈ child.allNames,
        c.isFlagLike n = false → n ≠ "--" → s.consume n = s.descend place child := by
  have hw : c.WellFormed := (Command.validate_eq_ok_iff root).mp hv c hc
  exact ⟨fun slot hslot n hn => hs.consume_flagName_iff hw hslot hn,
    fun place child hchild n hn hl hd => hs.consume_childName hw hchild hn hl hd⟩

/-- The sub-command of a program for archives that packs files, with a flag that looks like a number
    and a sub-command of its own. -/
def packing : Command :=
  { Command.empty "pack" with
    aliases := ["p"], actions := [Action.flag ["-9", "--best"]],
    subcommands := [(Command.empty "list").addAlias "ls"] }

/-- A program for archives. -/
def archiving : Command :=
  { Command.empty "archive" with subcommands := [packing] }

/-- Behind the alias `p` the word `-9` gives the flag of packing, and the alias `ls` enters its
    sub-command. -/
theorem declared_names_reached_packing : archiving.validate = .ok ()
    ∧ archiving.HasScope packing ∧ Entered packing ((start archiving).consume "p")
    ∧ ((start archiving).consume "p").consume "-9"
        = ((start archiving).consume "p").bind ⟨0, Action.flag ["-9", "--best"]⟩ none
    ∧ ((start archiving).consume "p").consume "ls"
        = ((start archiving).consume "p").descend 0 ((Command.empty "list").addAlias "ls") := by
  have hv : archiving.validate = .ok () := by decide
  have hc : archiving.HasScope packing := .under List.mem_cons_self (.self packing)
  have hs : Entered packing ((start archiving).consume "p") := entered_descend rfl 0 packing
  obtain ⟨hflags, hchildren⟩ := declared_names_reached archiving hv packing hc _ hs
  refine ⟨hv, hc, hs, ?_, ?_⟩
  · exact (hflags ⟨0, Action.flag ["-9", "--best"]⟩ (List.mem_singleton_self _) "-9"
      (by decide)).mpr (by decide)
  · exact hchildren 0 _ rfl "ls" (by decide) (by decide) (by decide)

/-- A program that prints files, with a flag of one character and a sub-command that looks like a
    flag. -/
def printing : Command :=
  { Command.empty "cat" with
    actions := [Action.flag ["-"]], subcommands := [Command.empty "-x"] }

/-- **Not every declared name is reached**: the flag `-` is not given by its name, and a sub-command
    `-x` is not entered by its own. -/
theorem not_every_declared_name_reached :
    (¬ ∀ (root : Command), root.validate = .ok () → ∀ c, root.HasScope c → ∀ s, Entered c s →
        ∀ slot ∈ c.flags, ∀ n ∈ slot.action.names, s.consume n = s.bind slot none)
      ∧ ¬ ∀ (root : Command), root.validate = .ok () → ∀ c, root.HasScope c → ∀ s, Entered c s →
        ∀ place child, c.subcommands[place]? = some child → ∀ n ∈ child.allNames,
          s.consume n = s.descend place child := by
  have hv : printing.validate = .ok () := by decide
  constructor
  · intro h
    have hbind := h printing hv printing (.self _) _ (entered_start printing)
      ⟨0, Action.flag ["-"]⟩ (List.mem_singleton_self _) "-" (by decide)
    exact absurd (congrArg ParseState.satisfied hbind) (by decide)
  · intro h
    have hdescend := h printing hv printing (.self _) _ (entered_start printing)
      0 (Command.empty "-x") rfl "-x" (by decide)
    exact absurd (congrArg ParseState.route hdescend) (by decide)

end ParseState

end TabCompletion
