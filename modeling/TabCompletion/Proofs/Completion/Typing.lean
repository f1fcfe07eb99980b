import TabCompletion.Proofs.Completion.Values
import TabCompletion.Proofs.Walk.Verdict

/-!
# Typing further into an offered flag

A flag that was offered stays offered while its name is typed on, unless what has been typed looks
like a negative number that a waiting flag takes as its value.

* `TakenAsNumber`: that exception;
* `resolve_typed_on_iff`: without it, and only without it, the longer word is still completed as the
  name of a flag;
* `offered_while_typing`: the law, after every sequence of words;
* `not_always_offered_while_typing`: the exception does happen, on the way to a flag such as `-2x`.
-/

namespace TabCompletion

open Text Line

namespace ParseState

/-- The word looks like a negative number, the scope has no flag that does, and a flag that waits
    takes it as a value. -/
def TakenAsNumber (s : ParseState) (w : String) : Prop :=
  s.pending.isSome = true ∧ looksNegative w = true ∧ s.scope.hasNumericFlag = false

variable {root : Command} {s : ParseState} {p p' n : String} {q q' : Quote}

/-- A negative number has at least two characters. -/
theorem two_le_length_of_looksNegative (h : looksNegative p = true) : 2 ≤ p.length := by
  rw [← String.length_toList]
  unfold looksNegative at h
  split at h
  · rename_i rest heq
    rw [heq]
    cases rest with
    | nil => cases h
    | cons c cs => simp
  · cases h

/-- A word of at least two characters that starts like a flag names one, unless it is taken as a
    number. -/
theorem namesFlag_iff_of_two_le (hl : s.scope.startsLikeFlag p = true) (h2 : 2 ≤ p.length) :
    s.namesFlag p = true ↔ ¬ s.TakenAsNumber p := by
  have hbytes := length_le_utf8ByteSize p
  have hone : ¬ p.utf8ByteSize = 1 := by omega
  unfold namesFlag TakenAsNumber
  simp only [Bool.or_eq_true, decide_eq_true_eq, hone, or_false, Command.isFlagLike_iff, h2, hl,
    true_and]
  cases s.pending <;> cases looksNegative p <;> cases s.scope.hasNumericFlag <;> simp

/-- No word that was completed as the name of a flag is taken as a number. -/
theorem not_takenAsNumber_of_flagName (h : (s.resolve p q).context = .flagName) :
    ¬ s.TakenAsNumber p := by
  obtain ⟨hp, -, hn⟩ := resolve_eq_flagName_iff.mp h
  obtain ⟨-, -, hl⟩ := flagPossible_iff.mp hp
  intro ht
  exact (namesFlag_iff_of_two_le hl (two_le_length_of_looksNegative ht.2.1)).mp hn ht

/-- A proper continuation of a word that starts like a flag has at least two characters. -/
theorem two_le_length_of_continued (hl : s.scope.startsLikeFlag p = true)
    (hp : p.toList <+: p'.toList) (hne : p ≠ p') : 2 ≤ p'.length := by
  have hpos := Command.length_pos_of_startsLikeFlag hl
  have hlt : p.toList.length < p'.toList.length := by
    refine Nat.lt_of_le_of_ne hp.length_le fun he => hne ?_
    exact String.ext (hp.eq_of_length he)
  rw [← String.length_toList]
  omega

/-- **A word that continues one completed as the name of a flag is completed as one too, unless it
    is taken as a number.** -/
theorem resolve_typed_on_iff (h : (s.resolve p q).context = .flagName)
    (hp : p.toList <+: p'.toList) (he : '=' ∉ p'.toList) :
    (s.resolve p' q').context = .flagName ↔ ¬ s.TakenAsNumber p' := by
  refine ⟨not_takenAsNumber_of_flagName, fun hnot => ?_⟩
  obtain ⟨hpos, -, hn⟩ := resolve_eq_flagName_iff.mp h
  obtain ⟨ha, hm, hl⟩ := flagPossible_iff.mp hpos
  have hl' : s.scope.startsLikeFlag p' = true := Command.startsLikeFlag_of_prefix hl hp
  have hi : inlineFlag? s.scope p' = none := by
    unfold inlineFlag?
    rw [splitOnce_eq_none_iff.mpr he]
  have hn' : s.namesFlag p' = true := by
    by_cases hpp : p = p'
    · rw [← hpp]
      exact hn
    · exact (namesFlag_iff_of_two_le hl' (two_le_length_of_continued hl hp hpp)).mpr hnot
  exact resolve_eq_flagName_iff.mpr ⟨flagPossible_iff.mpr ⟨ha, hm, hl'⟩, hi, hn'⟩

/-- Without a check of its own the engine offers a flag's name to every beginning of it. -/
theorem mem_values_typed_on {e : Engine} {host : Host} (he : e.validator = none)
    (h : (s.resolve p q).context = .flagName) (h' : (s.resolve p' q').context = .flagName)
    (hn : p'.toList <+: n.toList) (ho : n ∈ (e.complete host ⟨s, s.resolve p q⟩).values) :
    n ∈ (e.complete host ⟨s, s.resolve p' q'⟩).values := by
  rw [resolve_of_flagName h] at ho
  rw [resolve_of_flagName h']
  obtain ⟨slot, hs, hoff, hmem, hallow, -⟩ := Engine.mem_values_flagName_iff.mp ho
  refine Engine.mem_values_flagName_iff.mpr ⟨slot, hs, hoff, hmem, hallow, ?_⟩
  unfold Engine.accepts
  rw [he]
  exact startsWith_iff.mpr hn

/-- **After every sequence of words a flag that is offered stays offered while its name is typed
    on**, unless a flag that waits takes what has been typed as a negative number. -/
theorem offered_while_typing (root : Command) (hr : root.PlainFlagNames) (e : Engine)
    (he : e.validator = none) (host : Host) (words : List String) (p p' n : String) (q q' : Quote)
    (hp : p.toList <+: p'.toList) (hn : p'.toList <+: n.toList)
    (h : (((start root).consumeAll words).resolve p q).context = .flagName)
    (ho : n ∈ (e.complete host
      ⟨(start root).consumeAll words, ((start root).consumeAll words).resolve p q⟩).values)
    (hnot : ¬ ((start root).consumeAll words).TakenAsNumber p') :
    (((start root).consumeAll words).resolve p' q').context = .flagName
      ∧ n ∈ (e.complete host
        ⟨(start root).consumeAll words, ((start root).consumeAll words).resolve p' q'⟩).values := by
  have hflag : n ∈ ((start root).consumeAll words).scope.flagNames := by
    rw [resolve_of_flagName h] at ho
    obtain ⟨slot, hs, -, hmem, -⟩ := Engine.mem_values_flagName_iff.mp ho
    exact Command.mem_flagNames.mpr ⟨slot, hs, hmem⟩
  have hplain : '=' ∉ p'.toList := fun hm =>
    hr _ (sound_run root words).scope n hflag (hn.subset hm)
  have h' : (((start root).consumeAll words).resolve p' q').context = .flagName :=
    (resolve_typed_on_iff h hp hplain).mpr hnot
  exact ⟨h', mem_values_typed_on he h h' hn ho⟩

/-- A program with a flag for any number of values and a flag whose name begins like a number. -/
def scaling : Command :=
  { Command.empty "scale" with
    actions := [{ Action.flag ["--by"] with arity := .oneOrMore, hint := .nothing },
      Action.flag ["-2x"]] }

theorem scaling_plainFlagNames : scaling.PlainFlagNames := by
  intro c h
  cases h with
  | self => decide
  | under hc _ => cases hc

/-- Behind `--by 3` the flag `-2x` is offered for a hyphen, and again for its whole name. -/
theorem offered_while_typing_scaling :
    scaling.PlainFlagNames
      ∧ (((start scaling).consumeAll ["--by", "3"]).resolve "-2x" .none).context = .flagName := by
  have h := offered_while_typing scaling scaling_plainFlagNames ⟨.default, none⟩ rfl
    .bare ["--by", "3"] "-" "-2x" "-2x" .none .none (by decide) (by decide)
    rfl (by decide) fun ht => absurd ht.2.1 (by decide)
  exact ⟨scaling_plainFlagNames, h.1⟩

/-- **The exception does happen**: behind `--by 3` a hyphen offers `-2x`, but `-2` is a value of
    `--by`. -/
theorem not_always_offered_while_typing :
    ¬ ∀ (root : Command), root.validate = .ok () → root.PlainFlagNames →
      ∀ (e : Engine), e.validator = none → ∀ (host : Host) (words : List String)
        (p p' n : String) (q q' : Quote), p.toList <+: p'.toList → p'.toList <+: n.toList →
          (((start root).consumeAll words).resolve p q).context = .flagName →
            n ∈ (e.complete host ⟨(start root).consumeAll words,
              ((start root).consumeAll words).resolve p q⟩).values →
              (((start root).consumeAll words).resolve p' q').context = .flagName
                ∧ n ∈ (e.complete host ⟨(start root).consumeAll words,
                  ((start root).consumeAll words).resolve p' q'⟩).values := by
  intro h
  have hlost := h scaling rfl scaling_plainFlagNames ⟨.default, none⟩ rfl
    .bare ["--by", "3"] "-" "-2" "-2x" .none .none (by decide) (by decide)
    rfl (by decide)
  have hvalue : (((start scaling).consumeAll ["--by", "3"]).resolve "-2" .none).context =
      .valueOf ⟨0, { Action.flag ["--by"] with arity := .oneOrMore, hint := .nothing }⟩ := rfl
  rw [hvalue] at hlost
  cases hlost.1

end ParseState

end TabCompletion
