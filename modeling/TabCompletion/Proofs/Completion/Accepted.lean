import TabCompletion.Proofs.Completion.Values
import TabCompletion.Proofs.Walk.Prediction

/-!
# An accepted name is understood

The engine lists names, and the walk recognises words. This module ties the two together: a name
that was offered, once it stands on the line as a finished word, means what it was offered for.

* `GivesOnly`: exactly one flag of the scope has been given;
* `Exhausted`: a flag is not offered any more while its scope lasts;
* `accepted_names_understood`: the names of flags and of sub-commands, after every run.
-/

namespace TabCompletion

open Text Line

namespace ParseState

/-- The flag in `slot` declares `name`, and no other flag of the scope does. -/
def DeclaredBy (c : Command) (slot : Slot) (name : String) : Prop :=
  slot ∈ c.flags ∧ name ∈ slot.action.names
    ∧ ∀ other ∈ c.flags, name ∈ other.action.names → other = slot

/-- From `s` to `t` the flag in `slot` has been given, no other flag has, and no sub-command was
    entered. -/
structure GivesOnly (s t : ParseState) (slot : Slot) : Prop where
  route : t.route = s.route
  scope : t.scope = s.scope
  satisfied : t.satisfied = s.satisfied.insert slot.index
  seen : (t.parsed.get? slot.action.dest).isSome = true

/-- Whatever words follow `s`, as long as no sub-command is entered no completion of a flag's name
    offers a name of the flag in `slot`. -/
def Exhausted (s : ParseState) (slot : Slot) : Prop :=
  ∀ words : List String, (s.consumeAll words).route = s.route →
    ∀ (e : Engine) (host : Host) (p : String) (q : Quote),
      ((s.consumeAll words).resolve p q).context = .flagName →
        ∀ c ∈ (e.complete host ⟨s.consumeAll words, (s.consumeAll words).resolve p q⟩).candidates,
          c.value ∉ slot.action.names

variable {root : Command} {s : ParseState} {p : String} {q : Quote}

/-! ## 1. Flags -/

/-- Where names of flags are completed, every candidate is a name of a flag that is still to be
    offered. -/
theorem exists_flag_of_mem_candidates {e : Engine} {host : Host} {c : Candidate}
    (h : (s.resolve p q).context = .flagName)
    (hc : c ∈ (e.complete host ⟨s, s.resolve p q⟩).candidates) :
    ∃ slot ∈ s.scope.flags, e.offersFlag s slot = true ∧ c.value ∈ slot.action.names := by
  rw [resolve_of_flagName h] at hc
  have hv : c.value ∈ (e.complete host ⟨s, ⟨p, none, q, .flagName⟩⟩).values :=
    List.mem_map.mpr ⟨c, hc, rfl⟩
  obtain ⟨slot, hs, ho, hn, -, -⟩ := Engine.mem_values_flagName_iff.mp hv
  exact ⟨slot, hs, ho, hn⟩

theorem declaredBy_of_mem (hw : s.scope.WellFormed) {slot : Slot} {name : String}
    (hs : slot ∈ s.scope.flags) (hn : name ∈ slot.action.names) :
    DeclaredBy s.scope slot name := by
  refine ⟨hs, hn, fun other ho hno => ?_⟩
  have h := hw.findFlag?_eq ho hno
  rw [hw.findFlag?_eq hs hn] at h
  exact (Option.some.inj h).symm

/-- Reading the name of a flag gives that flag and no other. -/
theorem givesOnly_of_declared (hw : s.scope.WellFormed) {slot : Slot} {name : String}
    (ha : s.afterTerminator = false) (hm : s.mustTakeValue = false) (hs : slot ∈ s.scope.flags)
    (hn : name ∈ slot.action.names) (hl : 2 ≤ name.length) :
    GivesOnly s (s.consume name) slot := by
  obtain ⟨cursor, count, hc⟩ := s.beforeFlag_eq
  rw [consume_declared ha hm hw hs hn hl, hc]
  refine ⟨bind_route .., bind_scope .., bind_satisfied .., ?_⟩
  cases ht : slot.action.arity.takesValue with
  | false =>
    rw [bind_of_switch _ _ _ ht]
    simp [given, ParsedValues.get?_touch]
  | true =>
    rw [bind_none _ _ ht]
    simp [given, ParsedValues.get?_touch]

/-- A flag that has been given and may not be repeated is never offered again in its scope. -/
theorem exhausted_of_satisfied (hw : s.scope.WellFormed) {slot : Slot} (hs : slot ∈ s.scope.flags)
    (hg : slot.index ∈ s.satisfied) (hr : slot.action.repeatable = false) : Exhausted s slot := by
  intro words hroute e host p q hc c hm hn
  have hext := s.extends_run words
  have hscope := hext.scope hroute
  obtain ⟨other, ho, hoff, hno⟩ := exists_flag_of_mem_candidates hc hm
  rw [hscope] at ho
  -- the flag that is offered under this name is the one that has been given
  obtain rfl : other = slot := (declaredBy_of_mem hw hs hn).2.2 other ho hno
  have hsat : (s.consumeAll words).isSatisfied other.index = true := by
    simpa [isSatisfied] using hext.satisfied hroute _ hg
  simp [Engine.offersFlag, hsat, hr] at hoff

theorem accepted_flag (hw : s.scope.WellFormed) (h : (s.resolve p q).context = .flagName)
    {e : Engine} {host : Host} {c : Candidate}
    (hc : c ∈ (e.complete host ⟨s, s.resolve p q⟩).candidates) (hl : 2 ≤ c.value.length) :
    ∃ slot, DeclaredBy s.scope slot c.value ∧ GivesOnly s (s.consume c.value) slot
      ∧ (slot.action.repeatable = false → Exhausted (s.consume c.value) slot) := by
  obtain ⟨slot, hs, -, hn⟩ := exists_flag_of_mem_candidates h hc
  obtain ⟨ha, hm, -⟩ := flagPossible_iff.mp (resolve_eq_flagName_iff.mp h).1
  have hg := givesOnly_of_declared hw ha hm hs hn hl
  refine ⟨slot, declaredBy_of_mem hw hs hn, hg, fun hr => ?_⟩
  refine exhausted_of_satisfied (hg.scope ▸ hw) (hg.scope ▸ hs) ?_ hr
  rw [hg.satisfied]
  exact List.mem_insert_self

/-! ## 2. Sub-commands -/

theorem accepted_subcommand (hs : Sound root s) (hw : s.scope.WellFormed) (hd : root.HyphenLeads)
    {next : Option Slot} (h : (s.resolve p q).context = .positional next true) {place : Nat}
    {child : Command} {name : String} (hc : s.scope.subcommands[place]? = some child)
    (hn : name ∈ child.allNames) (hl : s.scope.startsLikeFlag name = false) :
    s.consume name = s.descend place child := by
  obtain ⟨hp, -, hsub, -⟩ := resolve_eq_positional h
  have ha : s.afterTerminator = false := by
    cases ha : s.afterTerminator with
    | false => rfl
    | true => simp [ha] at hsub
  rw [consume_of_pending_none hp]
  exact consumeFree_of_findChild? ha hl (hd.startsLikeFlag_dashes hs.scope)
    (hw.findChild?_eq hc hn)

/-! ## 3. Every run -/

/-- **After every sequence of words, an offered name is understood as what it was offered for.** A
    name of a flag gives exactly the flag that declares it, which is not offered again in its scope
    unless it may be repeated; a name of a sub-command that starts like no flag enters it. -/
theorem accepted_names_understood (root : Command) (hv : root.validate = .ok ())
    (hd : root.HyphenLeads) (words : List String) (p : String) (q : Quote) :
    let s := (start root).consumeAll words
    (∀ (e : Engine) (host : Host), (s.resolve p q).context = .flagName →
      ∀ c ∈ (e.complete host ⟨s, s.resolve p q⟩).candidates, 2 ≤ c.value.length →
        ∃ slot, DeclaredBy s.scope slot c.value ∧ GivesOnly s (s.consume c.value) slot
          ∧ (slot.action.repeatable = false → Exhausted (s.consume c.value) slot))
      ∧ ∀ next, (s.resolve p q).context = .positional next true →
        ∀ place child, s.scope.subcommands[place]? = some child →
          ∀ name ∈ child.allNames, s.scope.startsLikeFlag name = false →
            (s.consume name).scope = child ∧ (s.consume name).route = s.route ++ [place]
              ∧ (s.consume name).commandPath = s.commandPath ++ [child.name] := by
  intro s
  have hs : Sound root s := sound_run root words
  have hw : s.scope.WellFormed := (Command.validate_eq_ok_iff root).mp hv _ hs.scope
  refine ⟨fun e host h c hc hl => accepted_flag hw h hc hl,
    fun next h place child hc name hn hl => ?_⟩
  rw [accepted_subcommand hs hw hd h hc hn hl]
  exact ⟨rfl, rfl, rfl⟩

/-- Behind `--tags a` a hyphen makes `--output` be offered, which then gives that flag once and for
    all; at the start of the line `push` is offered, and enters that sub-command. -/
theorem accepted_names_of_labelled :
    labelled.validate = .ok () ∧ labelled.HyphenLeads
      ∧ (∃ slot, slot.action.repeatable = false
        ∧ GivesOnly ((start labelled).consumeAll ["--tags", "a"])
          (((start labelled).consumeAll ["--tags", "a"]).consume "--output") slot
        ∧ Exhausted (((start labelled).consumeAll ["--tags", "a"]).consume "--output") slot)
      ∧ ((start labelled).consume "push").commandPath = ["label", "push"] := by
  have hflag := (accepted_names_understood labelled labelled_validate labelled_hyphenLeads
    ["--tags", "a"] "-" .none).1 ⟨.default, none⟩ .bare rfl
    (.described "--output" none) (by decide) (by decide)
  have hchild := (accepted_names_understood labelled labelled_validate labelled_hyphenLeads
    [] "" .none).2 none rfl 0 (Command.empty "push") rfl "push" (by decide) rfl
  obtain ⟨slot, hd, hg, hx⟩ := hflag
  have hr : slot.action.repeatable = false := by
    have hall : ∀ other ∈ labelled.flags, other.action.repeatable = false := by decide
    exact hall slot hd.1
  exact ⟨labelled_validate, labelled_hyphenLeads, ⟨slot, hr, hg, hx hr⟩, hchild.2.2⟩

end ParseState

end TabCompletion
