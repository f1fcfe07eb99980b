import TabCompletion.Proofs.Spec.FlagLike
import TabCompletion.Proofs.Walk.Move
import TabCompletion.Walk.Context

/-!
# The verdict on the active word, and the fate of a finished one

The active word and a finished word are judged by two procedures that ask their questions in
different orders. This module states each of them by its cases:

* `resolve_cases`: the three verdicts, each with the condition under which it is given;
* `resolve_whole`: what is completed, with the assignment in front of it, is the word;
* `resolve_eq_flagName_iff`: when the names of flags are offered;
* `takes_iff`, `consume_of_takes`, `consume_flagLike`, `consume_of_pending_none`: when the flag that
  waits takes a finished word, and which other word is read as a flag;
* `consume_declared`, `consume_assigned`: the flags that such words give.
-/

namespace TabCompletion

open Text Line

namespace ParseState

variable {s : ParseState} {w : String} {q : Quote}

/-! ## 1. The active word -/

/-- Whether the active word can still become a flag: flags are matched, no flag needs a value, and
    the word starts like a flag. -/
def flagPossible (s : ParseState) (w : String) : Bool :=
  !s.afterTerminator && !s.mustTakeValue && s.scope.startsLikeFlag w

theorem flagPossible_iff : s.flagPossible w = true ↔
    s.afterTerminator = false ∧ s.mustTakeValue = false ∧ s.scope.startsLikeFlag w = true := by
  simp [flagPossible, and_assoc]

theorem mustTakeValue_of_pending {p : Pending} (hp : s.pending = some p) :
    s.mustTakeValue = p.needsValue := by
  simp [mustTakeValue, hp]

theorem mustTakeValue_of_none (hp : s.pending = none) : s.mustTakeValue = false := by
  simp [mustTakeValue, hp]

theorem resolve_eq : s.resolve w q =
    if s.flagPossible w = true then
      match inlineFlag? s.scope w with
      | some (slot, name, value) => ⟨value, some (name ++ "="), q, .valueOf slot⟩
      | none => ⟨w, none, q, if s.namesFlag w then .flagName else s.valueContext⟩
    else ⟨w, none, q, s.valueContext⟩ := rfl

/-- The value of a flag is being typed behind an equals sign. -/
theorem resolve_inline {slot : Slot} {name value : String} (hp : s.flagPossible w = true)
    (hi : inlineFlag? s.scope w = some (slot, name, value)) :
    s.resolve w q = ⟨value, some (name ++ "="), q, .valueOf slot⟩ := by
  rw [resolve_eq, if_pos hp, hi]

/-- Without an assigned value the word is a flag if the state lets it name one. -/
theorem resolve_possible (hp : s.flagPossible w = true) (hi : inlineFlag? s.scope w = none) :
    s.resolve w q = ⟨w, none, q, if s.namesFlag w then .flagName else s.valueContext⟩ := by
  rw [resolve_eq, if_pos hp, hi]

/-- A word that cannot become a flag is a value. -/
theorem resolve_impossible (hp : s.flagPossible w = false) :
    s.resolve w q = ⟨w, none, q, s.valueContext⟩ := by
  rw [resolve_eq, if_neg (by simp [hp])]

/-- **The three verdicts on the active word**: the value of a flag behind an equals sign, the name
    of a flag, or a value. -/
theorem resolve_cases (s : ParseState) (w : String) (q : Quote) :
    (∃ slot name value, s.flagPossible w = true
        ∧ inlineFlag? s.scope w = some (slot, name, value)
        ∧ s.resolve w q = ⟨value, some (name ++ "="), q, .valueOf slot⟩)
      ∨ (s.flagPossible w = true ∧ inlineFlag? s.scope w = none ∧ s.namesFlag w = true
        ∧ s.resolve w q = ⟨w, none, q, .flagName⟩)
      ∨ ((s.flagPossible w = true → s.namesFlag w = false)
        ∧ s.resolve w q = ⟨w, none, q, s.valueContext⟩) := by
  cases hp : s.flagPossible w with
  | false => exact .inr (.inr ⟨fun h => (nomatch h), resolve_impossible hp⟩)
  | true =>
    cases hi : inlineFlag? s.scope w with
    | some found =>
      obtain ⟨slot, name, value⟩ := found
      exact .inl ⟨slot, name, value, rfl, rfl, resolve_inline hp hi⟩
    | none =>
      have hr := resolve_possible (q := q) hp hi
      cases hn : s.namesFlag w with
      | false =>
        rw [hn, if_neg Bool.false_ne_true] at hr
        exact .inr (.inr ⟨fun _ => rfl, hr⟩)
      | true =>
        rw [hn, if_pos rfl] at hr
        exact .inr (.inl ⟨rfl, rfl, rfl, hr⟩)

/-- The assignment and the text that is completed make up the word. -/
theorem resolve_whole (s : ParseState) (w : String) (q : Quote) :
    (s.resolve w q).assignment.getD "" ++ (s.resolve w q).typed = w := by
  rcases s.resolve_cases w q with ⟨slot, name, value, -, hi, hr⟩ | ⟨-, -, -, hr⟩ | ⟨-, hr⟩
  · obtain ⟨hsplit, -, -⟩ := inlineFlag?_eq_some_iff.mp hi
    obtain ⟨hw, -⟩ := splitOnce_eq_some_iff.mp hsplit
    have he : "=".toList = ['='] := rfl
    refine String.ext ?_
    rw [hr, Option.getD_some, String.toList_append, String.toList_append, he, hw,
      List.append_assoc, List.singleton_append]
  · rw [hr]
    exact String.empty_append
  · rw [hr]
    exact String.empty_append

theorem valueContext_ne_flagName (s : ParseState) : s.valueContext ≠ .flagName := by
  unfold valueContext
  split <;> exact fun h => nomatch h

/-- The names of flags are offered iff the word can be a flag, has no value assigned to a declared
    flag, and is not left to a flag that waits. -/
theorem resolve_eq_flagName_iff : (s.resolve w q).context = .flagName ↔
    s.flagPossible w = true ∧ inlineFlag? s.scope w = none ∧ s.namesFlag w = true := by
  constructor
  · intro h
    rcases s.resolve_cases w q with ⟨slot, name, value, -, -, hr⟩ | ⟨hp, hi, hn, -⟩ | ⟨-, hr⟩
    · rw [hr] at h
      cases h
    · exact ⟨hp, hi, hn⟩
    · rw [hr] at h
      exact absurd h s.valueContext_ne_flagName
  · intro h
    obtain ⟨hp, hi, hn⟩ := h
    rw [resolve_possible hp hi, hn]
    rfl

/-- Where names of flags are offered, they are matched against the whole word. -/
theorem resolve_of_flagName (h : (s.resolve w q).context = .flagName) :
    s.resolve w q = ⟨w, none, q, .flagName⟩ := by
  obtain ⟨hp, hi, hn⟩ := resolve_eq_flagName_iff.mp h
  rw [resolve_possible hp hi, hn]
  rfl

/-! ## 2. The finished word -/

theorem takes_iff {p : Pending} : s.takes p w = true ↔ p.needsValue = true
    ∨ (s.afterTerminator = true ∨ s.scope.isFlagLike w = false) ∧ p.acceptsMore = true := by
  unfold takes
  cases s.afterTerminator <;> cases s.scope.isFlagLike w <;> simp

theorem consume_of_takes {p : Pending} (hp : s.pending = some p) (ht : s.takes p w = true) :
    s.consume w = s.feed p w := by
  simp [consume, hp, ht]

/-- A flag that does not take the word waits no longer. -/
theorem consume_of_not_takes {p : Pending} (hp : s.pending = some p) (ht : s.takes p w = false) :
    s.consume w = { s with pending := none }.consumeFree w := by
  simp [consume, hp, ht]

theorem consume_of_pending_none (hp : s.pending = none) : s.consume w = s.consumeFree w := by
  simp [consume, hp]

/-- No flag that waits above its least number of values takes a word that looks like a flag. -/
theorem consume_of_isFlagLike (ha : s.afterTerminator = false) (hm : s.mustTakeValue = false)
    (hf : s.scope.isFlagLike w = true) :
    s.consume w = { s with pending := none }.consumeFree w := by
  cases hp : s.pending with
  | none =>
    rw [consume_of_pending_none hp]
    cases s
    cases hp
    rfl
  | some p =>
    have hn : p.needsValue = false := (mustTakeValue_of_pending hp).symm.trans hm
    have ht : s.takes p w = false := by simp [takes, hn, ha, hf]
    exact consume_of_not_takes hp ht

/-- The state in which a word that looks like a flag is read: the flag that waited is released, and
    the current positional closed if it can be. -/
def beforeFlag (s : ParseState) : ParseState :=
  { s with pending := none }.closePositional

theorem beforeFlag_eq (s : ParseState) : ∃ cursor count, s.beforeFlag =
    { s with pending := none, positionalCursor := cursor, positionalCount := count } :=
  closePositional_eq _

@[simp] theorem beforeFlag_scope (s : ParseState) : s.beforeFlag.scope = s.scope := by
  obtain ⟨cursor, count, hc⟩ := s.beforeFlag_eq
  rw [hc]

theorem beforeFlag_eq_self (hp : s.pending = none) (hc : s.closePositional = s) :
    s.beforeFlag = s := by
  have hfree : { s with pending := none } = s := by
    cases s
    cases hp
    rfl
  unfold beforeFlag
  rw [hfree, hc]

/-- **A word that looks like a flag is read as one**, unless it is a bare `--` that nothing
    declares. -/
theorem consume_flagLike (ha : s.afterTerminator = false) (hm : s.mustTakeValue = false)
    (hf : s.scope.isFlagLike w = true)
    (hd : w = "--" → (s.scope.findFlag? "--").isNone = false) :
    s.consume w = s.beforeFlag.consumeFlag w := by
  have hd' : ¬(w = "--" ∧ (s.scope.findFlag? "--").isNone = true) := fun ⟨hw, hi⟩ => by
    rw [hd hw] at hi
    cases hi
  rw [consume_of_isFlagLike ha hm hf]
  unfold consumeFree
  dsimp only
  rw [if_neg (by simp [ha]), if_neg hd', if_pos hf]
  rfl

/-- A declared name of at least two characters gives its flag, without a value. -/
theorem consume_declared {slot : Slot} (ha : s.afterTerminator = false)
    (hm : s.mustTakeValue = false) (hw : s.scope.WellFormed) (hs : slot ∈ s.scope.flags)
    (hn : w ∈ slot.action.names) (hl : 2 ≤ w.length) :
    s.consume w = s.beforeFlag.bind slot none := by
  have hf : s.scope.findFlag? w = some slot := hw.findFlag?_eq hs hn
  have hd : w = "--" → (s.scope.findFlag? "--").isNone = false := by
    intro he
    rw [← he, hf]
    rfl
  rw [consume_flagLike ha hm (hw.isFlagLike_of_mem hs hn hl) hd]
  unfold consumeFlag
  rw [beforeFlag_scope, hf]

/-- A word `name=value` that no flag declares as a whole gives the flag `name`, with its value. -/
theorem consume_assigned {slot : Slot} {name value : String} (ha : s.afterTerminator = false)
    (hm : s.mustTakeValue = false) (hl : s.scope.isFlagLike w = true)
    (hf : s.scope.findFlag? w = none)
    (hi : inlineFlag? s.scope w = some (slot, name, value)) :
    s.consume w = s.beforeFlag.bind slot (some value) := by
  have hcut := (splitOnce_eq_some_iff.mp (inlineFlag?_eq_some_iff.mp hi).1).1
  have hd : w = "--" → (s.scope.findFlag? "--").isNone = false := by
    intro he
    subst he
    have he : '=' ∈ "--".toList := by rw [hcut]; simp
    exact absurd he (by decide)
  rw [consume_flagLike ha hm hl hd]
  unfold consumeFlag
  rw [beforeFlag_scope, hf, hi]

/-- A word that starts like no flag enters the sub-command it means. -/
theorem consumeFree_of_findChild? {place : Nat} {child : Command}
    (ha : s.afterTerminator = false) (hs : s.scope.startsLikeFlag w = false)
    (hd : s.scope.startsLikeFlag "--" = true)
    (hc : s.scope.findChild? w = some (place, child)) :
    s.consumeFree w = s.descend place child := by
  have hne : w ≠ "--" := by
    intro he
    subst he
    rw [hd] at hs
    cases hs
  unfold consumeFree
  rw [if_neg (by simp [ha]), if_neg fun h => hne h.1,
    if_neg (by simp [Command.isFlagLike_eq_false hs]), hc]

/-- Every other word that starts like no flag is given to a positional. -/
theorem consumeFree_of_value
    (h : s.afterTerminator = true ∨ s.scope.startsLikeFlag w = false ∧ s.scope.findChild? w = none)
    (hd : s.scope.startsLikeFlag "--" = true) :
    s.consumeFree w = s.fillPositional w := by
  unfold consumeFree
  rcases h with ha | ⟨hs, hc⟩
  · rw [if_pos ha]
  · have hne : w ≠ "--" := by
      intro he
      subst he
      rw [hd] at hs
      cases hs
    split
    · rfl
    · rw [if_neg fun h => hne h.1, if_neg (by simp [Command.isFlagLike_eq_false hs]), hc]

end ParseState

end TabCompletion
