import TabCompletion.Proofs.Walk.Verdict

/-!
# The verdict on a word foretells how it is read

While a word is being typed, `resolve` says what it is; once it is finished, `consume` reads it.
The two agree on every run through a well-formed tree:

* `Foretold`: what each verdict on a word promises about reading it;
* `foretold_of_run`: every promise is kept after every sequence of words.

The one fact about runs that is needed is that a flag that waits can always take another value
(`Sound.pending`).
-/

namespace TabCompletion

open Text Line

namespace ParseState

/-! ## 1. Values gained -/

/-- From `s` to `t` the destination `dest` gained `value` behind its values, and no other
    destination changed. -/
def Gains (s t : ParseState) (dest value : String) : Prop :=
  ∀ d, t.parsed.get? d =
    if d = dest then some ((s.parsed.get? d).getD [] ++ [value]) else s.parsed.get? d

theorem gains_of_record {s t : ParseState} {dest value : String}
    (h : t.parsed = s.parsed.record dest value) : Gains s t dest value := by
  intro d
  rw [h, ParsedValues.get?_record]

theorem gains_of_touch_record {s t : ParseState} {dest value : String}
    (h : t.parsed = (s.parsed.touch dest).record dest value) : Gains s t dest value := by
  intro d
  rw [h, ParsedValues.get?_record, ParsedValues.get?_touch]
  split <;> rfl

/-! ## 2. The promises of a verdict -/

/-- What the verdict on the active word `w` promises about reading the finished word `w`. -/
structure Foretold (s : ParseState) (w : String) (q : Quote) : Prop where
  /-- The value of a flag that waits is recorded for it, and nothing else happens. -/
  value : ∀ slot, (s.resolve w q).context = .valueOf slot → (s.resolve w q).assignment = none →
    Gains s (s.consume w) slot.action.dest w ∧ (s.consume w).scope = s.scope
      ∧ (s.consume w).commandPath = s.commandPath ∧ (s.consume w).satisfied = s.satisfied
  /-- The value behind the first equals sign is recorded for the flag in front of it, which has
      then been given. -/
  assigned : ∀ slot front, (s.resolve w q).context = .valueOf slot →
    (s.resolve w q).assignment = some front →
      (∃ name, front = name ++ "=" ∧ '=' ∉ name.toList ∧ w = front ++ (s.resolve w q).typed
        ∧ slot ∈ s.scope.flags ∧ name ∈ slot.action.names)
      ∧ (s.consume w).satisfied = s.satisfied.insert slot.index
      ∧ Gains s (s.consume w) slot.action.dest (s.resolve w q).typed
  /-- The name of a sub-command enters it, and it was offered. -/
  subcommand : ∀ next subcommands, (s.resolve w q).context = .positional next subcommands →
    s.afterTerminator = false → ∀ place child, s.scope.findChild? w = some (place, child) →
      subcommands = true ∧ s.consume w = s.descend place child
  /-- Any other word is recorded for the positional that was announced. -/
  operand : ∀ next subcommands, (s.resolve w q).context = .positional next subcommands →
    (s.afterTerminator = true ∨ s.scope.findChild? w = none) →
      ∀ slot, next = some slot → Gains s (s.consume w) slot.action.dest w

section Promises

variable {root : Command} {s : ParseState} {w : String} {q : Quote}

theorem valueContext_eq_valueOf {slot : Slot} (h : s.valueContext = .valueOf slot) :
    ∃ p, s.pending = some p ∧ p.slot = slot := by
  unfold valueContext at h
  split at h
  · rename_i p hp
    cases h
    exact ⟨p, hp, rfl⟩
  · cases h

theorem valueContext_eq_positional {next : Option Slot} {subcommands : Bool}
    (h : s.valueContext = .positional next subcommands) :
    s.pending = none ∧ next = s.nextPositional?
      ∧ subcommands = (!s.afterTerminator && !s.scope.subcommands.isEmpty) := by
  unfold valueContext at h
  split at h
  · cases h
  · cases h
    exact ⟨‹_›, rfl, rfl⟩

/-- A flag that waits takes every word that is not judged to be a flag. -/
theorem takes_of_not_namesFlag (hs : Sound root s) {p : Pending} (hp : s.pending = some p)
    (h : s.flagPossible w = true → s.namesFlag w = false) : s.takes p w = true := by
  rw [takes_iff]
  have hmust := mustTakeValue_of_pending hp
  cases hn : p.needsValue with
  | true => exact .inl rfl
  | false =>
    refine .inr ⟨?_, hs.pending p hp⟩
    cases ha : s.afterTerminator with
    | true => exact .inl rfl
    | false =>
      right
      cases hl : s.scope.startsLikeFlag w with
      | false => exact Command.isFlagLike_eq_false hl
      | true =>
        have hf := h (flagPossible_iff.mpr ⟨ha, hmust.trans hn, hl⟩)
        unfold namesFlag at hf
        exact (Bool.or_eq_false_iff.mp (Bool.or_eq_false_iff.mp hf).1).2

theorem foretold_value (hs : Sound root s) {slot : Slot}
    (hc : (s.resolve w q).context = .valueOf slot) (ha : (s.resolve w q).assignment = none) :
    Gains s (s.consume w) slot.action.dest w ∧ (s.consume w).scope = s.scope
      ∧ (s.consume w).commandPath = s.commandPath ∧ (s.consume w).satisfied = s.satisfied := by
  rcases s.resolve_cases w q with ⟨_, _, _, -, -, hr⟩ | ⟨-, -, -, hr⟩ | ⟨hn, hr⟩
  · rw [hr] at ha
    cases ha
  · rw [hr] at hc
    cases hc
  · rw [hr] at hc
    obtain ⟨p, hp, rfl⟩ := valueContext_eq_valueOf hc
    rw [consume_of_takes hp (takes_of_not_namesFlag hs hp hn)]
    exact ⟨gains_of_record rfl, rfl, rfl, rfl⟩

/-- The word `name=value` of a declared flag looks like a flag. -/
theorem isFlagLike_of_inlineFlag? {name value : String} {slot : Slot}
    (hl : s.scope.startsLikeFlag w = true) (hw : s.scope.WellFormed)
    (hi : inlineFlag? s.scope w = some (slot, name, value)) : s.scope.isFlagLike w = true := by
  obtain ⟨hsplit, hf, -⟩ := inlineFlag?_eq_some_iff.mp hi
  obtain ⟨hcut, -⟩ := splitOnce_eq_some_iff.mp hsplit
  obtain ⟨hm, hname⟩ := Command.findFlag?_mem hf
  have hpos := Command.length_pos_of_startsLikeFlag (hw.startsLikeFlag_of_mem hm hname)
  have hlen : 2 ≤ w.length := by
    rw [← String.length_toList, hcut, List.length_append, List.length_cons]
    omega
  exact Command.isFlagLike_of_equals_mem hlen hl (by rw [hcut]; simp)

theorem foretold_assigned (hs : Sound root s) (hw : s.scope.WellFormed)
    (he : root.PlainFlagNames) {slot : Slot} {front : String}
    (hc : (s.resolve w q).context = .valueOf slot)
    (ha : (s.resolve w q).assignment = some front) :
    (∃ name, front = name ++ "=" ∧ '=' ∉ name.toList ∧ w = front ++ (s.resolve w q).typed
        ∧ slot ∈ s.scope.flags ∧ name ∈ slot.action.names)
      ∧ (s.consume w).satisfied = s.satisfied.insert slot.index
      ∧ Gains s (s.consume w) slot.action.dest (s.resolve w q).typed := by
  rcases s.resolve_cases w q with ⟨slot', name, value, hp, hi, hr⟩ | ⟨-, -, -, hr⟩ | ⟨-, hr⟩
  · rw [hr] at hc ha ⊢
    cases hc
    cases ha
    obtain ⟨hsplit, hf, hv⟩ := inlineFlag?_eq_some_iff.mp hi
    obtain ⟨hcut, hname⟩ := splitOnce_eq_some_iff.mp hsplit
    obtain ⟨hopen, hmust, hlead⟩ := flagPossible_iff.mp hp
    have hmem : '=' ∈ w.toList := by rw [hcut]; simp
    have hflag : s.scope.isFlagLike w = true := isFlagLike_of_inlineFlag? hlead hw hi
    have hconsume := consume_assigned hopen hmust hflag (he.findFlag?_eq_none hs.scope hmem) hi
    obtain ⟨cursor, count, hb⟩ := s.beforeFlag_eq
    rw [hb] at hconsume
    refine ⟨⟨name, rfl, hname, ?_, (Command.findFlag?_mem hf).1, (Command.findFlag?_mem hf).2⟩,
      ?_, ?_⟩
    · apply String.ext
      rw [hcut]
      simp
    · rw [hconsume, bind_satisfied]
    · rw [hconsume, bind_some _ _ hv]
      exact gains_of_touch_record rfl
  · rw [hr] at hc
    cases hc
  · rw [hr] at ha
    cases ha

/-- A word that is judged to be for a positional or a sub-command waits for no flag, and cannot
    be a flag. -/
theorem resolve_eq_positional {next : Option Slot} {subcommands : Bool}
    (hc : (s.resolve w q).context = .positional next subcommands) :
    s.pending = none ∧ next = s.nextPositional?
      ∧ subcommands = (!s.afterTerminator && !s.scope.subcommands.isEmpty)
      ∧ (s.afterTerminator = true ∨ s.scope.startsLikeFlag w = false) := by
  rcases s.resolve_cases w q with ⟨_, _, _, -, -, hr⟩ | ⟨-, -, -, hr⟩ | ⟨hn, hr⟩
  · rw [hr] at hc
    cases hc
  · rw [hr] at hc
    cases hc
  · rw [hr] at hc
    obtain ⟨hp, hnext, hsub⟩ := valueContext_eq_positional hc
    refine ⟨hp, hnext, hsub, ?_⟩
    -- without a flag that waits every possible flag names one
    have hnames : s.namesFlag w = true := by simp [namesFlag, hp]
    have hpossible : s.flagPossible w = false := by
      by_contra h
      rw [hn (by simpa using h)] at hnames
      cases hnames
    have hmust := mustTakeValue_of_none hp
    cases ha : s.afterTerminator with
    | true => exact .inl rfl
    | false => exact .inr (by simpa [flagPossible, hmust, ha] using hpossible)

theorem foretold_subcommand (hs : Sound root s) (hd : root.HyphenLeads) {next : Option Slot}
    {subcommands : Bool} (hc : (s.resolve w q).context = .positional next subcommands)
    (ha : s.afterTerminator = false) {place : Nat} {child : Command}
    (hf : s.scope.findChild? w = some (place, child)) :
    subcommands = true ∧ s.consume w = s.descend place child := by
  obtain ⟨hp, -, hsub, hlead⟩ := resolve_eq_positional hc
  have hne : s.scope.subcommands ≠ [] := by
    intro hnil
    have hm := (Command.findChild?_mem hf).1
    rw [hnil] at hm
    cases hm
  refine ⟨by simp [hsub, ha, hne], ?_⟩
  rw [consume_of_pending_none hp]
  exact consumeFree_of_findChild? ha (hlead.resolve_left (by simp [ha]))
    (hd.startsLikeFlag_dashes hs.scope) hf

theorem foretold_operand (hs : Sound root s) (hd : root.HyphenLeads) {next : Option Slot}
    {subcommands : Bool} (hc : (s.resolve w q).context = .positional next subcommands)
    (hv : s.afterTerminator = true ∨ s.scope.findChild? w = none) {slot : Slot}
    (hn : next = some slot) : Gains s (s.consume w) slot.action.dest w := by
  obtain ⟨hp, hnext, -, hlead⟩ := resolve_eq_positional hc
  have hvalue : s.afterTerminator = true
      ∨ s.scope.startsLikeFlag w = false ∧ s.scope.findChild? w = none := by
    cases ha : s.afterTerminator with
    | true => exact .inl rfl
    | false => exact .inr ⟨hlead.resolve_left (by simp [ha]), hv.resolve_left (by simp [ha])⟩
  rw [consume_of_pending_none hp, consumeFree_of_value hvalue (hd.startsLikeFlag_dashes hs.scope)]
  obtain ⟨cursor, count, hfill⟩ := s.fillPositional_eq w
  rw [hfill]
  refine gains_of_record ?_
  rw [← hnext, hn]

end Promises

/-! ## 3. Every run -/

/-- **After every sequence of words the verdict on the next word foretells how it is read.** -/
theorem foretold_of_run (root : Command) (hv : root.validate = .ok ()) (hd : root.HyphenLeads)
    (he : root.PlainFlagNames) (words : List String) (w : String) (q : Quote) :
    Foretold ((start root).consumeAll words) w q := by
  have hs : Sound root ((start root).consumeAll words) := sound_run root words
  have hw := (Command.validate_eq_ok_iff root).mp hv _ hs.scope
  exact {
    value := fun _ hc ha => foretold_value hs hc ha
    assigned := fun _ _ hc ha => foretold_assigned hs hw he hc ha
    subcommand := fun _ _ hc ha _ _ hf => foretold_subcommand hs hd hc ha hf
    operand := fun _ _ hc hf _ hn => foretold_operand hs hd hc hf hn }

/-- A program with a flag for any number of values, a flag for one value, and a sub-command. -/
def labelled : Command :=
  { Command.empty "label" with
    actions := [{ Action.flag ["--tags"] with arity := .oneOrMore },
      { Action.flag ["-o", "--output"] with arity := .one }]
    subcommands := [Command.empty "push"] }

theorem labelled_validate : labelled.validate = .ok () := rfl

theorem hasScope_labelled {c : Command} (h : labelled.HasScope c) :
    c = labelled ∨ c = Command.empty "push" := by
  cases h with
  | self => exact .inl rfl
  | under hc hd =>
    rw [List.mem_singleton.mp hc] at hd
    cases hd with
    | self => exact .inr rfl
    | under hc _ => cases hc

theorem labelled_hyphenLeads : labelled.HyphenLeads := by
  intro c h
  rcases hasScope_labelled h with rfl | rfl <;> rfl

theorem labelled_plainFlagNames : labelled.PlainFlagNames := by
  intro c h
  rcases hasScope_labelled h with rfl | rfl <;> decide

/-- Behind `--tags a` the word `-1` is announced as a value of that flag, and read as one. -/
theorem foretold_of_labelled :
    labelled.validate = .ok () ∧ labelled.HyphenLeads ∧ labelled.PlainFlagNames
      ∧ Foretold ((start labelled).consumeAll ["--tags", "a"]) "-1" .none
      ∧ (((start labelled).consumeAll ["--tags", "a"]).consume "-1").parsed.get? "tags"
        = some ["a", "-1"] := by
  have h := foretold_of_run labelled labelled_validate labelled_hyphenLeads
    labelled_plainFlagNames ["--tags", "a"] "-1" .none
  have hgains := (h.value ⟨0, { Action.flag ["--tags"] with arity := .oneOrMore }⟩ rfl rfl).1
  exact ⟨labelled_validate, labelled_hyphenLeads, labelled_plainFlagNames, h, hgains "tags"⟩

end ParseState

end TabCompletion
