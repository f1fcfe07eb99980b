import TabCompletion.Proofs.Spec.WellFormed
import TabCompletion.Proofs.Text.Cuts

/-!
# Which words look like flags

* A word that does not start like a flag is none (`isFlagLike_eq_false`).
* The declared names of at least two characters look like flags, the numeric ones too
  (`WellFormed.isFlagLike_of_mem`).
* A word with an assigned value is never a negative number (`isFlagLike_of_equals_mem`).
-/

namespace TabCompletion

open Text

/-- A word with an equals sign is no number. -/
theorem looksNegative_eq_false_of_equals_mem {w : String} (h : '=' ∈ w.toList) :
    looksNegative w = false := by
  unfold looksNegative
  split
  · rename_i rest heq
    rw [heq] at h
    have hr : '=' ∈ rest := (List.mem_cons.mp h).resolve_left (by decide)
    exact Bool.eq_false_iff.mpr fun hf => equals_not_mem_of_isFloatLiteral hf hr
  · rfl

namespace Command

variable {c : Command} {w : String}

/-- The first character decides whether a word starts like a flag. -/
theorem startsLikeFlag_of_prefix {p q : String} (h : c.startsLikeFlag p = true)
    (hpq : p.toList <+: q.toList) : c.startsLikeFlag q = true := by
  obtain ⟨r, hr⟩ := hpq
  unfold startsLikeFlag at h ⊢
  cases hp : p.toList with
  | nil =>
    rw [hp] at h
    cases h
  | cons ch cs =>
    rw [hp] at h hr
    rw [← hr]
    exact h

/-- No word that starts like a flag is empty. -/
theorem length_pos_of_startsLikeFlag (h : c.startsLikeFlag w = true) : 0 < w.toList.length := by
  unfold startsLikeFlag at h
  cases hw : w.toList with
  | nil =>
    rw [hw] at h
    cases h
  | cons ch cs => exact Nat.succ_pos cs.length

theorem isFlagLike_eq_false (h : c.startsLikeFlag w = false) : c.isFlagLike w = false := by
  simp [isFlagLike, h]

/-- The three conditions on a word that looks like a flag. -/
theorem isFlagLike_iff :
    c.isFlagLike w = true ↔ 2 ≤ w.length ∧ c.startsLikeFlag w = true
      ∧ (looksNegative w = true → c.hasNumericFlag = true) := by
  unfold isFlagLike
  rw [Bool.and_eq_true, Bool.and_eq_true, decide_eq_true_eq, and_assoc]
  cases looksNegative w <;> simp

/-- A word with an assigned value that starts like a flag looks like one. -/
theorem isFlagLike_of_equals_mem (hl : 2 ≤ w.length) (hs : c.startsLikeFlag w = true)
    (he : '=' ∈ w.toList) : c.isFlagLike w = true := by
  refine isFlagLike_iff.mpr ⟨hl, hs, fun hn => ?_⟩
  rw [looksNegative_eq_false_of_equals_mem he] at hn
  cases hn

/-- The declared names of at least two characters look like flags. -/
theorem WellFormed.isFlagLike_of_mem (h : c.WellFormed) {slot : Slot} (hs : slot ∈ c.flags)
    (hw : w ∈ slot.action.names) (hl : 2 ≤ w.length) : c.isFlagLike w = true := by
  refine isFlagLike_iff.mpr ⟨hl, h.startsLikeFlag_of_mem hs hw, fun hn => ?_⟩
  unfold hasNumericFlag
  exact List.any_eq_true.mpr ⟨slot, hs, List.any_eq_true.mpr ⟨w, hw, hn⟩⟩

/-! ## Conditions on all scopes of a tree -/

/-- The hyphen introduces flags in every scope. -/
def HyphenLeads (root : Command) : Prop :=
  ∀ c, root.HasScope c → Text.contains c.flagChars '-' = true

/-- No flag of any scope has an equals sign in its name. -/
def PlainFlagNames (root : Command) : Prop :=
  ∀ c, root.HasScope c → ∀ n ∈ c.flagNames, '=' ∉ n.toList

/-- Where the hyphen introduces flags, the bare `--` starts like one. -/
theorem HyphenLeads.startsLikeFlag_dashes {root : Command} (h : root.HyphenLeads)
    (hc : root.HasScope c) : c.startsLikeFlag "--" = true :=
  h c hc

/-- A name with an assigned value is no declared flag name. -/
theorem PlainFlagNames.findFlag?_eq_none {root : Command} (h : root.PlainFlagNames)
    (hc : root.HasScope c) (he : '=' ∈ w.toList) : c.findFlag? w = none :=
  findFlag?_eq_none_iff.mpr fun hw => h c hc w hw he

end Command

end TabCompletion
