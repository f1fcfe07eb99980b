import Mathlib.Data.List.Nodup
import TabCompletion.Completion.Engine

/-!
# Ranked order

Candidates are ranked by comparing two of them at a time. The comparison looks at their values only,
and puts different values in a strict order: the value that has been typed first, then shorter ones,
then by the alphabet.

* `Candidate.rankLe_iff`: the comparison, said once;
* `Ranked`: values in ranked order;
* `ranked_of_pairwise`: different values that are sorted by the comparison are in ranked order;
* `map_value_mergeSort_eq`: the sorted values do not depend on the order in which they were found;
* `Ranked.prepend`: a text put in front of all values keeps their order.
-/

namespace TabCompletion

namespace Candidate

/-! ## 1. The comparison of two candidates -/

/-- Whether a value is exactly what has been typed; nothing is, if nothing was typed. -/
def isExact (typed value : String) : Bool :=
  !typed.isEmpty && value == typed

variable {typed : String} {a b c : Candidate}

theorem rankLe_iff : rankLe typed a b = true ↔
    (isExact typed a.value = true ∧ isExact typed b.value = false)
      ∨ (isExact typed a.value = isExact typed b.value
        ∧ (a.value.utf8ByteSize < b.value.utf8ByteSize
          ∨ a.value.utf8ByteSize = b.value.utf8ByteSize ∧ a.value ≤ b.value)) := by
  have hdef : rankLe typed a b =
      if isExact typed a.value != isExact typed b.value then isExact typed a.value
      else if a.value.utf8ByteSize != b.value.utf8ByteSize then
        decide (a.value.utf8ByteSize < b.value.utf8ByteSize)
      else Completer.textLe a.value b.value := rfl
  have htext : Completer.textLe a.value b.value = true ↔ a.value ≤ b.value := by
    unfold Completer.textLe
    rw [Bool.not_eq_true', decide_eq_false_iff_not, String.not_lt]
  have hsize : (if a.value.utf8ByteSize != b.value.utf8ByteSize then
        decide (a.value.utf8ByteSize < b.value.utf8ByteSize)
      else Completer.textLe a.value b.value) = true
        ↔ a.value.utf8ByteSize < b.value.utf8ByteSize
          ∨ a.value.utf8ByteSize = b.value.utf8ByteSize ∧ a.value ≤ b.value := by
    by_cases hs : a.value.utf8ByteSize = b.value.utf8ByteSize
    · simp [hs, htext]
    · simp [hs]
  rw [hdef]
  cases isExact typed a.value <;> cases isExact typed b.value <;> simp_all

theorem rankLe_trans (typed : String) (a b c : Candidate) (hab : rankLe typed a b = true)
    (hbc : rankLe typed b c = true) : rankLe typed a c = true := by
  rw [rankLe_iff] at hab hbc ⊢
  rcases hab with ⟨ha, hb⟩ | ⟨hexact, hab⟩
  · rcases hbc with ⟨hb', -⟩ | ⟨hexact, -⟩
    · exact nomatch hb.symm.trans hb'
    · exact .inl ⟨ha, hexact.symm.trans hb⟩
  · rcases hbc with ⟨hb, hc⟩ | ⟨hexact', hbc⟩
    · exact .inl ⟨hexact.trans hb, hc⟩
    · refine .inr ⟨hexact.trans hexact', ?_⟩
      rcases hab with hlt | ⟨heq, hle⟩
      · left
        rcases hbc with hlt' | ⟨heq', -⟩ <;> omega
      · rcases hbc with hlt' | ⟨heq', hle'⟩
        · left
          omega
        · exact .inr ⟨heq.trans heq', String.le_trans hle hle'⟩

theorem rankLe_total (typed : String) (a b : Candidate) :
    (rankLe typed a b || rankLe typed b a) = true := by
  have hsizes : (a.value.utf8ByteSize < b.value.utf8ByteSize
      ∨ a.value.utf8ByteSize = b.value.utf8ByteSize ∧ a.value ≤ b.value)
      ∨ (b.value.utf8ByteSize < a.value.utf8ByteSize
      ∨ b.value.utf8ByteSize = a.value.utf8ByteSize ∧ b.value ≤ a.value) := by
    rcases Nat.lt_trichotomy a.value.utf8ByteSize b.value.utf8ByteSize with hlt | heq | hgt
    · exact .inl (.inl hlt)
    · rcases String.le_total a.value b.value with hle | hle
      · exact .inl (.inr ⟨heq, hle⟩)
      · exact .inr (.inr ⟨heq.symm, hle⟩)
    · exact .inr (.inl hgt)
  rw [Bool.or_eq_true, rankLe_iff, rankLe_iff]
  by_cases he : isExact typed a.value = isExact typed b.value
  · rcases hsizes with h | h
    · exact .inl (.inr ⟨he, h⟩)
    · exact .inr (.inr ⟨he.symm, h⟩)
  · -- exactly one of the two is exact
    cases ha : isExact typed a.value with
    | true => exact .inl (.inl ⟨rfl, by simpa [ha] using he⟩)
    | false => exact .inr (.inl ⟨by simpa [ha] using he, rfl⟩)

end Candidate

/-! ## 2. Values in ranked order -/

/-- `a` comes in front of `b`: it is shorter in bytes, or as long and earlier by code points. -/
def Precedes (a b : String) : Prop :=
  a.utf8ByteSize < b.utf8ByteSize ∨ a.utf8ByteSize = b.utf8ByteSize ∧ a < b

/-- **Values in ranked order**: the exact one, if there is one, comes first, and the others stand by
    their length and then by the alphabet. -/
structure Ranked (lead? : Option String) (vs : List String) : Prop where
  first : ∀ v, lead? = some v → v ∈ vs → vs.head? = some v
  sorted : (vs.filter fun v => some v != lead?).Pairwise Precedes

/-- What has been typed, as the value that is to come first. -/
def exactMatch? (typed : String) : Option String :=
  if typed.isEmpty then none else some typed

section Ranking

variable {typed : String} {vs : List String}

theorem isExact_iff {v : String} :
    Candidate.isExact typed v = true ↔ exactMatch? typed = some v := by
  unfold Candidate.isExact exactMatch?
  cases typed.isEmpty with
  | true => simp
  | false =>
    rw [if_neg Bool.false_ne_true, Bool.not_false, Bool.true_and, beq_iff_eq, Option.some.injEq]
    exact eq_comm

/-- `v` is not ranked behind `w`. -/
def Outranks (typed v w : String) : Prop :=
  Candidate.rankLe typed (.plain v) (.plain w) = true

theorem pairwise_outranks (typed : String) (cs : List Candidate) :
    ((cs.mergeSort (Candidate.rankLe typed)).map (·.value)).Pairwise (Outranks typed) := by
  have hsorted :=
    List.pairwise_mergeSort (Candidate.rankLe_trans typed) (Candidate.rankLe_total typed) cs
  exact List.pairwise_map.mpr hsorted

/-- Two values are never ranked in front of each other. -/
theorem Outranks.antisymm {v w : String} (h : Outranks typed v w) (h' : Outranks typed w v) :
    v = w := by
  unfold Outranks at h h'
  rw [Candidate.rankLe_iff] at h h'
  rcases h with ⟨hv, hw⟩ | ⟨he, h⟩
  · rcases h' with ⟨hw', -⟩ | ⟨he, -⟩
    · exact nomatch hw.symm.trans hw'
    · exact nomatch hw.symm.trans (he.trans hv)
  · rcases h' with ⟨hw, hv⟩ | ⟨-, h'⟩
    · exact nomatch hv.symm.trans (he.trans hw)
    · rcases h with hlt | ⟨heq, hle⟩
      · rcases h' with hlt' | ⟨heq', -⟩ <;> omega
      · rcases h' with hlt' | ⟨-, hle'⟩
        · omega
        · exact String.le_antisymm hle hle'

/-- Of two values that are not exact the one ranked first precedes. -/
theorem Outranks.precedes {v w : String} (h : Outranks typed v w) (hne : v ≠ w)
    (hv : Candidate.isExact typed v = false) : Precedes v w := by
  unfold Outranks at h
  rw [Candidate.rankLe_iff] at h
  rcases h with ⟨hv', -⟩ | ⟨-, hlt | ⟨heq, hle⟩⟩
  · exact nomatch hv.symm.trans hv'
  · exact .inl hlt
  · refine .inr ⟨heq, ?_⟩
    by_contra hnot
    exact hne (String.le_antisymm hle (String.not_lt.mp hnot))

/-- Different values, sorted by rank, are in ranked order. -/
theorem ranked_of_pairwise (h : vs.Pairwise (Outranks typed)) (hd : vs.Nodup) :
    Ranked (exactMatch? typed) vs := by
  constructor
  · intro v hv hm
    have hexact : Candidate.isExact typed v = true := isExact_iff.mpr hv
    cases vs with
    | nil => cases hm
    | cons w rest =>
      rcases List.mem_cons.mp hm with rfl | hm
      · rfl
      · -- the value in front must be exact as well
        have hwv := (List.pairwise_cons.mp h).1 v hm
        unfold Outranks at hwv
        rw [Candidate.rankLe_iff] at hwv
        have hw : Candidate.isExact typed w = true := by
          rcases hwv with ⟨hw, -⟩ | ⟨he, -⟩
          · exact hw
          · exact he.trans hexact
        have hsame := (isExact_iff.mp hw).symm.trans hv
        rw [List.head?_cons]
        exact hsame
  · have hboth : vs.Pairwise fun v w => Outranks typed v w ∧ v ≠ w := h.and hd
    refine (hboth.filter _).imp_of_mem fun {v w} hv _ ⟨hvw, hne⟩ => ?_
    have hnot : Candidate.isExact typed v = false := by
      have hne' := (List.mem_filter.mp hv).2
      refine Bool.eq_false_iff.mpr fun he => ?_
      rw [isExact_iff.mp he] at hne'
      simp at hne'
    exact hvw.precedes hne hnot

/-- Sorting by rank depends on the values only, not on their order. -/
theorem map_value_mergeSort_eq {cs ds : List Candidate}
    (hc : (cs.map (·.value)).Nodup) (hd : (ds.map (·.value)).Nodup)
    (h : ∀ v, v ∈ cs.map (·.value) ↔ v ∈ ds.map (·.value)) :
    (cs.mergeSort (Candidate.rankLe typed)).map (·.value)
      = (ds.mergeSort (Candidate.rankLe typed)).map (·.value) := by
  have hcs := (List.mergeSort_perm cs (Candidate.rankLe typed)).map (·.value)
  have hds := (List.mergeSort_perm ds (Candidate.rankLe typed)).map (·.value)
  have hsame : (cs.map (·.value)).Perm (ds.map (·.value)) :=
    (List.perm_ext_iff_of_nodup hc hd).mpr h
  exact List.Perm.eq_of_pairwise (fun _ _ _ _ => Outranks.antisymm)
    (pairwise_outranks typed cs) (pairwise_outranks typed ds) (hcs.trans (hsame.trans hds.symm))

/-! ## 3. With a text in front -/

theorem precedes_append_iff (front a b : String) :
    Precedes (front ++ a) (front ++ b) ↔ Precedes a b := by
  have hsize : ∀ v : String, (front ++ v).utf8ByteSize = front.utf8ByteSize + v.utf8ByteSize :=
    fun v => String.utf8ByteSize_append
  have hlt : front ++ a < front ++ b ↔ a < b := by
    show (front ++ a).toList < (front ++ b).toList ↔ a.toList < b.toList
    rw [String.toList_append, String.toList_append]
    induction front.toList with
    | nil => rfl
    | cons c cs ih =>
      rw [List.cons_append, List.cons_append, List.cons_lt_cons_iff, ih]
      simp
  unfold Precedes
  rw [hsize, hsize, hlt]
  constructor
  · rintro (h | ⟨h, h'⟩)
    · exact .inl (Nat.lt_of_add_lt_add_left h)
    · exact .inr ⟨Nat.add_left_cancel h, h'⟩
  · rintro (h | ⟨h, h'⟩)
    · exact .inl (Nat.add_lt_add_left h _)
    · exact .inr ⟨congrArg _ h, h'⟩

theorem append_left_injective (front : String) : Function.Injective (front ++ ·) := by
  intro a b h
  have hchars := congrArg String.toList h
  simp only [String.toList_append, List.append_cancel_left_eq] at hchars
  exact String.ext hchars

/-- A text put in front of all values changes nothing in their order. -/
theorem Ranked.prepend {lead? : Option String} (h : Ranked lead? vs) (front : String) :
    Ranked (lead?.map (front ++ ·)) (vs.map (front ++ ·)) := by
  have hinj := append_left_injective front
  constructor
  · intro v hv hm
    obtain ⟨u, hu, rfl⟩ := Option.map_eq_some_iff.mp hv
    have hmem : u ∈ vs := (List.mem_map_of_injective hinj).mp hm
    rw [List.head?_map, h.first u hu hmem]
    rfl
  · have hsame : ∀ v, (some (front ++ v) != lead?.map (front ++ ·)) = (some v != lead?) := by
      intro v
      have hmap : (some v).map (front ++ ·) = lead?.map (front ++ ·) ↔ some v = lead? :=
        (Option.map_injective hinj).eq_iff
      rw [Bool.eq_iff_iff, bne_iff_ne, bne_iff_ne]
      exact not_congr hmap
    rw [List.filter_map]
    refine List.pairwise_map.mpr ?_
    simp only [precedes_append_iff, Function.comp_def, hsame]
    exact h.sorted

end Ranking

end TabCompletion
