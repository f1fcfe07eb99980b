import TabCompletion.Proofs.Walk.History
import TabCompletion.Proofs.Walk.Belonging
import TabCompletion.Proofs.Walk.Prediction

/-!
# Behind the terminator

A bare `--` stops the matching of flags, and so does an action that is marked as a terminator. From
then on every word is a value. The mark is honoured where a flag is given; a positional may carry it
too, but its words are recorded without a look at it.

* `Settled`, `settled_run`: behind the terminator nothing but values happens;
* `Absorbs`, `absorbs_of_afterTerminator`: where each of these values goes;
* `Event.target?`, `Reaches`: the action that an event gives or records a value for;
* `Stopped`, `stopped_run`: what has stopped the matching of flags, kept by every event;
* `terminates_iff`: reaching a terminator settles the run exactly unless only positionals were marked;
* `not_always_terminates`: a marked positional alone does not.
-/

namespace TabCompletion

namespace ParseState

variable {root : Command} {s t : ParseState} {w : String}

/-! ## 1. Only values -/

/-- From `s` to `t` flags are not matched, no sub-command was entered and no flag was given. -/
structure Settled (s t : ParseState) : Prop where
  afterTerminator : t.afterTerminator = true
  scope : t.scope = s.scope
  commandPath : t.commandPath = s.commandPath
  satisfied : t.satisfied = s.satisfied

theorem Settled.trans {u : ParseState} (hst : Settled s t) (htu : Settled t u) : Settled s u where
  afterTerminator := htu.afterTerminator
  scope := htu.scope.trans hst.scope
  commandPath := htu.commandPath.trans hst.commandPath
  satisfied := htu.satisfied.trans hst.satisfied

/-- The word `w` is a value: for the flag that waits, or else for the next positional. It is dropped
    only if there is neither. -/
structure Absorbs (s : ParseState) (w : String) : Prop where
  waiting : ∀ p, s.pending = some p → Gains s (s.consume w) p.slot.action.dest w
  operand : s.pending = none → ∀ slot, s.nextPositional? = some slot →
    Gains s (s.consume w) slot.action.dest w
  dropped : s.pending = none → s.nextPositional? = none → (s.consume w).parsed = s.parsed

/-- Behind the terminator the flag that waits takes every word. -/
theorem consume_behind_of_pending (hs : Sound root s) (ha : s.afterTerminator = true) {p : Pending}
    (hp : s.pending = some p) (w : String) : s.consume w = s.feed p w :=
  consume_of_takes hp (takes_iff.mpr (.inr ⟨.inl ha, hs.pending p hp⟩))

/-- Behind the terminator every other word is left to the positionals. -/
theorem consume_behind_of_none (ha : s.afterTerminator = true) (hp : s.pending = none)
    (w : String) : s.consume w = s.fillPositional w := by
  rw [consume_of_pending_none hp]
  unfold consumeFree
  rw [if_pos ha]

theorem settled_consume (hs : Sound root s) (ha : s.afterTerminator = true) (w : String) :
    Settled s (s.consume w) := by
  cases hp : s.pending with
  | some p =>
    rw [consume_behind_of_pending hs ha hp]
    exact ⟨ha, rfl, rfl, rfl⟩
  | none =>
    rw [consume_behind_of_none ha hp]
    obtain ⟨cursor, count, hf⟩ := s.fillPositional_eq w
    rw [hf]
    exact ⟨ha, rfl, rfl, rfl⟩

/-- **Behind the terminator every word is a value.** -/
theorem absorbs_of_afterTerminator (hs : Sound root s) (ha : s.afterTerminator = true)
    (w : String) : s.Absorbs w where
  waiting p hp := by
    rw [consume_behind_of_pending hs ha hp]
    exact gains_of_record rfl
  operand hp slot hn := by
    obtain ⟨cursor, count, hf⟩ := s.fillPositional_eq w
    rw [consume_behind_of_none ha hp, hf]
    refine gains_of_record ?_
    rw [hn]
  dropped hp hn := by
    obtain ⟨cursor, count, hf⟩ := s.fillPositional_eq w
    rw [consume_behind_of_none ha hp, hf, hn]

/-- **Behind the terminator the scope, the path and the flags given never change again.** -/
theorem settled_run (hs : Sound root s) (ha : s.afterTerminator = true) (words : List String) :
    Settled s (s.consumeAll words) := by
  induction words generalizing s with
  | nil => exact ⟨ha, rfl, rfl, rfl⟩
  | cons w ws ih =>
    have hfirst := settled_consume hs ha w
    rw [consumeAll_cons]
    exact hfirst.trans (ih (sound_consumeAll hs [w]) hfirst.afterTerminator)

end ParseState

/-! ## 2. Terminators that have been reached -/

/-- The action that an event gives, or records a value for. -/
def Event.target? : Event → Option Slot
  | .feed p _ => some p.slot
  | .bind slot _ => some slot
  | .fill target _ => target
  | _ => none

/-- One of the events gives the action in `slot`, or records a value for it. -/
def Reaches (past : List Event) (slot : Slot) : Prop :=
  ∃ e ∈ past, e.target? = some slot

theorem reaches_concat {past : List Event} {e : Event} {slot : Slot} :
    Reaches (past ++ [e]) slot ↔ Reaches past slot ∨ e.target? = some slot := by
  simp [Reaches, or_and_right, exists_or]

namespace ParseState

variable {root : Command} {s : ParseState} {past : List Event}

/-- **What has stopped the matching of flags**: a bare `--`, or a flag that is marked as a terminator,
    and nothing else. A flag that waits has been reached before. -/
structure Stopped (past : List Event) (s : ParseState) : Prop where
  stops : s.afterTerminator = true ↔ Event.stopFlags ∈ past
    ∨ ∃ slot, Reaches past slot ∧ slot.action.terminator = true ∧ slot.action.positional = false
  waits : ∀ p, s.pending = some p → Reaches past p.slot

theorem stopped_start (root : Command) : Stopped [] (start root) := by
  refine ⟨⟨fun h => (nomatch h), fun h => ?_⟩, fun _ h => (nomatch h)⟩
  rcases h with h | ⟨slot, ⟨e, he, -⟩, -⟩
  · cases h
  · cases he

/-- An event that gives no flag, and records values only for a positional or for an action reached
    before, leaves the matching of flags as it is. -/
theorem Stopped.of_same {t : ParseState} {e : Event} (h : Stopped past s)
    (ha : t.afterTerminator = s.afterTerminator) (hs : e ≠ .stopFlags)
    (ht : ∀ slot, e.target? = some slot → slot.action.positional = true ∨ Reaches past slot)
    (hw : ∀ p, t.pending = some p → Reaches past p.slot) : Stopped (past ++ [e]) t := by
  refine ⟨?_, fun p hp => reaches_concat.mpr (.inl (hw p hp))⟩
  have hdashes : Event.stopFlags ∈ past ++ [e] ↔ Event.stopFlags ∈ past := by
    simp [hs.symm]
  rw [ha, h.stops, hdashes]
  refine or_congr_right ⟨fun hmark => ?_, fun hmark => ?_⟩
  · obtain ⟨slot, hreach, hmark⟩ := hmark
    exact ⟨slot, reaches_concat.mpr (.inl hreach), hmark⟩
  · obtain ⟨slot, hreach, hterm, hflag⟩ := hmark
    rcases reaches_concat.mp hreach with hreach | htarget
    · exact ⟨slot, hreach, hterm, hflag⟩
    · rcases ht slot htarget with hpos | hreach
      · exact nomatch hpos.symm.trans hflag
      · exact ⟨slot, hreach, hterm, hflag⟩

/-- A flag that is given stops the matching of flags exactly if it is marked. -/
theorem Stopped.bind (h : Stopped past s) {slot : Slot} {v : Option String}
    (hp : s.pending = none) (hs : slot ∈ s.scope.flags) :
    Stopped (past ++ [.bind slot v]) (s.bind slot v) := by
  have hflag : slot.action.positional = false := (Command.mem_flags.mp hs).2
  have hafter : (s.bind slot v).afterTerminator = (s.afterTerminator || slot.action.terminator) := by
    obtain ⟨pending, parsed, hb⟩ := s.bind_eq slot v
    rw [hb]
    rfl
  refine ⟨?_, fun p hb => ?_⟩
  · rw [hafter, Bool.or_eq_true, h.stops, or_assoc, List.mem_append]
    refine or_congr (by simp) ⟨fun hmark => ?_, fun hmark => ?_⟩
    · rcases hmark with ⟨other, hreach, hmark⟩ | hterm
      · exact ⟨other, reaches_concat.mpr (.inl hreach), hmark⟩
      · exact ⟨slot, reaches_concat.mpr (.inr rfl), hterm, hflag⟩
    · obtain ⟨other, hreach, hterm, hother⟩ := hmark
      rcases reaches_concat.mp hreach with hreach | htarget
      · exact .inl ⟨other, hreach, hterm, hother⟩
      · cases htarget
        exact .inr hterm
  · rw [(s.pending_bind slot v hp hb).1]
    exact reaches_concat.mpr (.inr rfl)

/-- **Every event keeps the account of what has stopped the matching of flags.** -/
theorem stopped_after {e : Event} (h : Stopped past s) (he : s.Happens e) :
    Stopped (past ++ [e]) (s.after e) := by
  cases he with
  | @feed p w hp =>
    refine h.of_same rfl (fun hs => nomatch hs) (fun slot ht => ?_) fun q hq => ?_
    · cases ht
      exact .inr (h.waits p hp)
    · rw [(s.pending_feed w hq).1]
      exact h.waits p hp
  | release =>
    exact h.of_same rfl (fun hs => nomatch hs) (fun _ ht => nomatch ht) fun _ hq => nomatch hq
  | stopFlags =>
    refine ⟨⟨fun _ => .inl (by simp), fun _ => rfl⟩, fun p hp => ?_⟩
    exact reaches_concat.mpr (.inl (h.waits p hp))
  | close =>
    obtain ⟨cursor, count, hc⟩ := s.closePositional_eq
    show Stopped _ s.closePositional
    rw [hc]
    exact h.of_same rfl (fun hs => nomatch hs) (fun _ ht => nomatch ht) h.waits
  | bind hp hs => exact h.bind hp hs
  | enter =>
    exact h.of_same rfl (fun hs => nomatch hs) (fun _ ht => nomatch ht) fun _ hq => nomatch hq
  | @fill w hp =>
    obtain ⟨cursor, count, hf⟩ := s.fillPositional_eq w
    show Stopped _ (s.fillPositional w)
    rw [hf]
    refine h.of_same rfl (fun hs => nomatch hs) (fun slot ht => ?_) h.waits
    exact .inl (List.mem_filter.mp (nextPositional?_mem ht)).2

/-- After every run the account is right. -/
theorem stopped_run (root : Command) (words : List String) :
    Stopped ((start root).history words) ((start root).consumeAll words) :=
  keep_run (P := Stopped) root (stopped_start root) (fun _ _ _ => stopped_after) words

/-! ## 3. The law -/

/-- Flags are not matched any more: no later word changes the scope, the path or the flags given, and
    each of them is a value. -/
structure FlagsOver (s : ParseState) : Prop where
  afterTerminator : s.afterTerminator = true
  settled : ∀ more, Settled s (s.consumeAll more)
  values : ∀ more w, (s.consumeAll more).Absorbs w

theorem flagsOver_iff (hs : Sound root s) : s.FlagsOver ↔ s.afterTerminator = true := by
  refine ⟨fun h => h.afterTerminator, fun ha => ⟨ha, settled_run hs ha, fun more w => ?_⟩⟩
  have hafter := (settled_run hs ha more).afterTerminator
  exact absorbs_of_afterTerminator (sound_consumeAll hs more) hafter w

/-- Terminators have been reached, but all of them are positionals, and there was no bare `--`. -/
structure OnlyOperandsMarked (past : List Event) : Prop where
  reached : ∃ slot, Reaches past slot ∧ slot.action.terminator = true
  operands : ∀ slot, Reaches past slot → slot.action.terminator = true →
    slot.action.positional = true
  undashed : Event.stopFlags ∉ past

/-- **Reaching a terminator ends the matching of flags for good**, for every command and every
    sequence of words, exactly unless all terminators reached are positionals. -/
theorem terminates_iff (root : Command) (words : List String) :
    ((∃ slot, Reaches ((start root).history words) slot ∧ slot.action.terminator = true) →
        ((start root).consumeAll words).FlagsOver)
      ↔ ¬ OnlyOperandsMarked ((start root).history words) := by
  have hstopped := (stopped_run root words).stops
  rw [flagsOver_iff (sound_run root words), hstopped]
  constructor
  · intro hlaw honly
    rcases hlaw honly.reached with hdashes | ⟨slot, hreach, hterm, hflag⟩
    · exact honly.undashed hdashes
    · exact nomatch (honly.operands slot hreach hterm).symm.trans hflag
  · intro hnot hreached
    by_contra hopen
    obtain ⟨hdashes, hflags⟩ := not_or.mp hopen
    refine hnot ⟨hreached, fun slot hreach hterm => ?_, hdashes⟩
    refine Bool.of_not_eq_false fun hflag => ?_
    exact hflags ⟨slot, hreach, hterm, hflag⟩

/-- A program that runs a command with its arguments, which are marked as a terminator, and a flag.
    -/
def running : Command :=
  { Command.empty "run" with
    actions := [{ Action.operand "command" with
        arity := .oneOrMore, hint := .nothing, terminator := true },
      Action.flag ["-v"]] }

/-- **A marked positional alone does not end the matching of flags.** -/
theorem not_always_terminates :
    ¬ ∀ (root : Command), root.validate = .ok () → ∀ (words : List String) (slot : Slot),
      Reaches ((start root).history words) slot → slot.action.terminator = true →
        ((start root).consumeAll words).afterTerminator = true := by
  intro h
  have hreach : Reaches ((start running).history ["make"])
      ⟨0, { Action.operand "command" with
        arity := .oneOrMore, hint := .nothing, terminator := true }⟩ :=
    ⟨_, List.mem_singleton_self _, rfl⟩
  exact absurd (h running rfl ["make"] _ hreach rfl) (by decide)

end ParseState

end TabCompletion
