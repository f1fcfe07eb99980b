import TabCompletion.Proofs.Walk.Verdict

/-!
# The flag test, for the active word and for the finished one

A finished word is read as a flag only if it passes `isFlagLike`. The active word is asked the same
question only while a flag waits, so the two judge one kind of word differently: a negative number
that no flag waits for.

* `FreeNumber`: that kind of word;
* `resolve_flagName_cases`: whatever is completed as the name of a flag passes the test, or is such a
  number;
* `consume_of_freeNumber`: finished, such a number enters a sub-command or is left to a positional;
* `flagTest_agrees_iff`: the two judgements agree on all other words, and on these they never do;
* `flagTest_not_always_agrees`: there are such words.
-/

namespace TabCompletion

open Text Line

namespace ParseState

variable {s : ParseState} {w : String} {q : Quote}

/-- A negative number that no flag waits for, in a scope without a flag that looks like one, while
    flags are still matched. -/
structure FreeNumber (s : ParseState) (w : String) : Prop where
  unclaimed : s.pending = none
  matching : s.afterTerminator = false
  leads : s.scope.startsLikeFlag w = true
  negative : looksNegative w = true
  numberless : s.scope.hasNumericFlag = false

theorem FreeNumber.not_isFlagLike (h : s.FreeNumber w) : s.scope.isFlagLike w = false := by
  refine Bool.eq_false_iff.mpr fun hf => ?_
  have hnumeric := (Command.isFlagLike_iff.mp hf).2.2 h.negative
  exact Bool.eq_false_iff.mp h.numberless hnumeric

/-- No value is assigned in a number, and nothing keeps it from being completed as a flag. -/
theorem FreeNumber.resolve_eq_flagName (h : s.FreeNumber w) :
    (s.resolve w q).context = .flagName := by
  refine resolve_eq_flagName_iff.mpr ⟨?_, ?_, ?_⟩
  · exact flagPossible_iff.mpr ⟨h.matching, mustTakeValue_of_none h.unclaimed, h.leads⟩
  · have hplain : '=' ∉ w.toList := fun he =>
      Bool.eq_false_iff.mp (looksNegative_eq_false_of_equals_mem he) h.negative
    unfold inlineFlag?
    rw [splitOnce_eq_none_iff.mpr hplain]
  · simp [namesFlag, h.unclaimed]

/-- **A word of at least two characters that is completed as the name of a flag passes the flag test,
    or is a negative number that no flag waits for.** -/
theorem resolve_flagName_cases (h2 : 2 ≤ w.length) (h : (s.resolve w q).context = .flagName) :
    s.scope.isFlagLike w = true ∨ s.FreeNumber w := by
  obtain ⟨hp, -, hn⟩ := resolve_eq_flagName_iff.mp h
  obtain ⟨ha, -, hl⟩ := flagPossible_iff.mp hp
  cases hf : s.scope.isFlagLike w with
  | true => exact .inl rfl
  | false =>
    right
    -- the length and the first character are right, so that the number must be to blame
    have hnumber : looksNegative w = true ∧ s.scope.hasNumericFlag = false := by
      have hnot := mt Command.isFlagLike_iff.mpr (Bool.eq_false_iff.mp hf)
      simpa [h2, hl] using hnot
    have hbytes := length_le_utf8ByteSize w
    have hone : ¬ w.utf8ByteSize = 1 := by omega
    have hfree : s.pending = none := by
      simpa [namesFlag, hf, hone] using hn
    exact ⟨hfree, ha, hl, hnumber.1, hnumber.2⟩

/-- Finished, a negative number that no flag waits for is a value: the name of a sub-command, or a
    word for a positional. -/
theorem consume_of_freeNumber (h : s.FreeNumber w) :
    (∃ place child, s.scope.findChild? w = some (place, child)
        ∧ s.consume w = s.descend place child)
      ∨ s.consume w = s.fillPositional w := by
  have hdashes : w ≠ "--" := by
    intro he
    subst he
    exact absurd h.negative (by decide)
  have hclosed : ¬ s.afterTerminator = true := by simp [h.matching]
  rw [consume_of_pending_none h.unclaimed]
  unfold consumeFree
  rw [if_neg hclosed, if_neg fun hd => hdashes hd.1, if_neg (by simp [h.not_isFlagLike])]
  cases s.scope.findChild? w with
  | some found =>
    obtain ⟨place, child⟩ := found
    exact .inl ⟨place, child, rfl, rfl⟩
  | none => exact .inr rfl

/-- **The active word and the finished one are judged by the same flag test**, in every state,
    exactly unless the word is a negative number that no flag waits for. Such a number is completed
    as the name of a flag, but read as a value; what a flag that waits takes as a value is never
    completed as the name of a flag. -/
theorem flagTest_agrees_iff (s : ParseState) (w : String) (q : Quote) (h2 : 2 ≤ w.length) :
    (((s.resolve w q).context = .flagName → s.scope.isFlagLike w = true) ↔ ¬ s.FreeNumber w)
      ∧ (s.FreeNumber w → (s.resolve w q).context = .flagName
        ∧ ((∃ place child, s.scope.findChild? w = some (place, child)
            ∧ s.consume w = s.descend place child)
          ∨ s.consume w = s.fillPositional w))
      ∧ ∀ p, s.pending = some p → s.takes p w = true → (s.resolve w q).context ≠ .flagName := by
  refine ⟨⟨fun hagrees hfree => ?_, fun hnot h => ?_⟩, fun hfree => ?_, fun p hp ht h => ?_⟩
  · have hlike := hagrees hfree.resolve_eq_flagName
    exact Bool.eq_false_iff.mp hfree.not_isFlagLike hlike
  · exact (resolve_flagName_cases h2 h).resolve_right hnot
  · exact ⟨hfree.resolve_eq_flagName, consume_of_freeNumber hfree⟩
  · rcases resolve_flagName_cases h2 h with hlike | hfree
    · obtain ⟨ha, hm, -⟩ := flagPossible_iff.mp (resolve_eq_flagName_iff.mp h).1
      have hneeds : p.needsValue = false := (mustTakeValue_of_pending hp).symm.trans hm
      simp [takes, hneeds, ha, hlike] at ht
    · exact Option.some_ne_none p (hp.symm.trans hfree.unclaimed)

/-- A program with one number as its argument, and no flags. -/
def negating : Command :=
  { Command.empty "negate" with actions := [{ Action.operand "number" with hint := .nothing }] }

/-- At the start of a line `-1` is completed as the name of a flag, but read as the number. -/
theorem flagTest_agrees_negating :
    2 ≤ "-1".length ∧ ((start negating).resolve "-1" .none).context = .flagName
      ∧ (start negating).consume "-1" = (start negating).fillPositional "-1" := by
  have hfree : (start negating).FreeNumber "-1" := ⟨rfl, rfl, rfl, rfl, rfl⟩
  obtain ⟨hcontext, hread⟩ :=
    (flagTest_agrees_iff (start negating) "-1" .none (by decide)).2.1 hfree
  refine ⟨by decide, hcontext, hread.resolve_left fun ⟨place, child, hc, _⟩ => ?_⟩
  exact nomatch hc

/-- **The two judgements do differ**: where a number is expected, `-1` is completed as the name of a
    flag. -/
theorem flagTest_not_always_agrees :
    ¬ ∀ (root : Command), root.validate = .ok () → ∀ (words : List String) (w : String) (q : Quote),
      2 ≤ w.length → (((start root).consumeAll words).resolve w q).context = .flagName →
        ((start root).consumeAll words).scope.isFlagLike w = true := by
  intro h
  have hlike := h negating rfl [] "-1" .none (by decide) rfl
  exact absurd hlike (by decide)

end ParseState

end TabCompletion
