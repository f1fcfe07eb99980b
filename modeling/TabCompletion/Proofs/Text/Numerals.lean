import Mathlib.Data.List.TakeWhile
import Mathlib.Data.Nat.Digits.Defs
import Mathlib.Tactic.IntervalCases
import TabCompletion.Text.Blank
import TabCompletion.Text.Numeral

/-!
# Numbers with blanks around them

Numbers are read from the environment with the blanks around them trimmed away. What is read is the
number that the text writes in decimal, behind a sign that is allowed there.

* `Padded`: a text with blanks around it, and what trimming leaves of it;
* `Decimal`: the digits of a number;
* `Numeral`: a number with one of certain signs and blanks around it;
* `nat?_trim_eq_some_iff`, `int?_trim_eq_some_iff`: which numbers are read.
-/

namespace TabCompletion.Text

variable {s : String} {core cs : List Char} {n m bound : Nat}

/-! ## 1. Blanks around a text -/

/-- The text is `core` with blanks around it. -/
def Padded (s : String) (core : List Char) : Prop :=
  ∃ front back, s.toList = front ++ core ++ back ∧ ∀ c ∈ front ++ back, isBlank c = true

theorem padded_trim (s : String) : Padded s (trim s).toList := by
  refine ⟨s.toList.takeWhile isBlank,
    ((s.toList.dropWhile isBlank).reverse.takeWhile isBlank).reverse, ?_, ?_⟩
  · unfold trim
    rw [String.toList_ofList, List.append_assoc, ← List.reverse_append,
      List.takeWhile_append_dropWhile, List.reverse_reverse, List.takeWhile_append_dropWhile]
  · intro c hc
    rcases List.mem_append.mp hc with hc | hc
    · exact List.all_eq_true.mp List.all_takeWhile c hc
    · exact List.all_eq_true.mp List.all_takeWhile c (List.mem_reverse.mp hc)

theorem dropWhile_append_of_forall {front cs : List Char} (hf : ∀ c ∈ front, isBlank c = true)
    (hcs : ∀ c ∈ cs.head?, isBlank c = false) : (front ++ cs).dropWhile isBlank = cs := by
  rw [List.dropWhile_append_of_pos hf]
  cases cs with
  | nil => rfl
  | cons c cs => exact List.dropWhile_cons_of_neg (by simpa using hcs c rfl)

/-- Trimming leaves what has no blanks of its own. -/
theorem Padded.toList_trim (h : Padded s core) (hc : ∀ c ∈ core, isBlank c = false) :
    (trim s).toList = core := by
  obtain ⟨front, back, hs, hb⟩ := h
  obtain ⟨hfront, hback⟩ := List.forall_mem_append.mp hb
  unfold trim
  rw [String.toList_ofList, hs]
  cases core with
  | nil =>
    have hall : ∀ c ∈ front ++ [] ++ back, isBlank c = true := by simpa using hb
    rw [List.dropWhile_eq_nil_iff.mpr hall]
    rfl
  | cons c core =>
    have hhead : ∀ d ∈ (c :: core ++ back).head?, isBlank d = false := by
      intro d hd
      cases hd
      exact hc c List.mem_cons_self
    have hlast : ∀ d ∈ (c :: core).reverse.head?, isBlank d = false := fun d hd =>
      hc d (List.mem_reverse.mp (List.mem_of_mem_head? hd))
    rw [List.append_assoc, dropWhile_append_of_forall hfront hhead, List.reverse_append,
      dropWhile_append_of_forall (fun d hd => hback d (List.mem_reverse.mp hd)) hlast,
      List.reverse_reverse]

/-! ## 2. Digits -/

/-- The characters are the decimal digits of `n`, at least one, the highest first. -/
def Decimal (cs : List Char) (n : Nat) : Prop :=
  ∃ ds : List Nat, ds ≠ [] ∧ (∀ d ∈ ds, d < 10) ∧ cs = ds.map Nat.digitChar
    ∧ n = Nat.ofDigits 10 ds.reverse

theorem isDigit_digitChar {d : Nat} (h : d < 10) : (Nat.digitChar d).isDigit = true := by
  interval_cases d <;> rfl

theorem toNat_digitChar {d : Nat} (h : d < 10) : (Nat.digitChar d).toNat - '0'.toNat = d := by
  interval_cases d <;> rfl

/-- A digit is written for the number it is read as. -/
theorem exists_digitChar {c : Char} (h : c.isDigit = true) :
    ∃ d < 10, c = Nat.digitChar d := by
  obtain ⟨hlow, hhigh⟩ : 48 ≤ c.toNat ∧ c.toNat ≤ 57 := by
    simpa [Char.isDigit, UInt32.le_iff_toNat_le] using h
  refine ⟨c.toNat - 48, by omega, Char.toNat_inj.mp ?_⟩
  rw [Nat.toNat_digitChar_of_lt_ten (by omega)]
  omega

theorem isBlank_eq_false_of_isDigit {c : Char} (h : c.isDigit = true) : isBlank c = false := by
  obtain ⟨d, hd, rfl⟩ := exists_digitChar h
  interval_cases d <;> rfl

/-- Digits are read onto what has been read before. -/
theorem digits?_eq_some_iff : digits? m cs = some n ↔
    ∃ ds : List Nat, (∀ d ∈ ds, d < 10) ∧ cs = ds.map Nat.digitChar
      ∧ n = Nat.ofDigits 10 (ds.reverse ++ [m]) := by
  induction cs generalizing m with
  | nil =>
    constructor
    · intro h
      exact ⟨[], by simp, rfl, by simpa [digits?] using h.symm⟩
    · intro h
      obtain ⟨ds, -, hds, rfl⟩ := h
      rw [List.map_eq_nil_iff.mp hds.symm]
      simp [digits?]
  | cons c cs ih =>
    unfold digits?
    constructor
    · intro h
      split at h
      · rename_i hc
        obtain ⟨d, hd, rfl⟩ := exists_digitChar hc
        rw [toNat_digitChar hd] at h
        obtain ⟨ds, hds, rfl, rfl⟩ := ih.mp h
        refine ⟨d :: ds, List.forall_mem_cons.mpr ⟨hd, hds⟩, rfl, ?_⟩
        simp [Nat.ofDigits_append, Nat.ofDigits_cons]
        ring
      · cases h
    · intro h
      obtain ⟨ds, hds, hcs, rfl⟩ := h
      cases ds with
      | nil => cases hcs
      | cons d ds =>
        obtain ⟨hd, hds⟩ := List.forall_mem_cons.mp hds
        obtain ⟨rfl, rfl⟩ := List.cons.inj hcs
        rw [if_pos (isDigit_digitChar hd), toNat_digitChar hd]
        refine ih.mpr ⟨ds, hds, rfl, ?_⟩
        simp [Nat.ofDigits_append, Nat.ofDigits_cons]
        ring

theorem someDigits?_eq_some_iff : someDigits? cs = some n ↔ Decimal cs n := by
  have hread : digits? 0 cs = some n ↔ ∃ ds : List Nat, (∀ d ∈ ds, d < 10)
      ∧ cs = ds.map Nat.digitChar ∧ n = Nat.ofDigits 10 ds.reverse := by
    rw [digits?_eq_some_iff]
    simp [Nat.ofDigits_append]
  unfold Decimal
  cases cs with
  | nil => simp [someDigits?]
  | cons c cs =>
    unfold someDigits?
    rw [hread]
    refine exists_congr fun ds => (and_iff_right_of_imp fun h => ?_).symm
    obtain ⟨-, hcs, -⟩ := h
    intro he
    rw [he] at hcs
    cases hcs

theorem Decimal.isDigit (h : Decimal cs n) : ∀ c ∈ cs, c.isDigit = true := by
  obtain ⟨ds, -, hds, rfl, -⟩ := h
  exact List.forall_mem_map.mpr fun d hd => isDigit_digitChar (hds d hd)

/-! ## 3. Signed numbers -/

/-- The text is the number `n` in decimal behind one of the signs, with blanks around it. -/
def Numeral (signs : List (List Char)) (s : String) (n : Nat) : Prop :=
  ∃ sign ∈ signs, ∃ cs, Padded s (sign ++ cs) ∧ Decimal cs n

/-- No sign, or a plus sign. -/
def plusSigns : List (List Char) := [[], ['+']]

/-- A minus sign. -/
def minusSigns : List (List Char) := [['-']]

/-- Where no sign is a blank, a number with blanks around it is what trimming leaves. -/
theorem numeral_iff (signs : List (List Char))
    (hsigns : ∀ sign ∈ signs, sign.any isBlank = false) :
    Numeral signs s n ↔ ∃ sign ∈ signs, ∃ cs, (trim s).toList = sign ++ cs ∧ Decimal cs n := by
  refine exists_congr fun sign => and_congr_right fun hsign => exists_congr fun cs =>
    and_congr_left fun hn => ⟨fun h => ?_, fun h => h ▸ padded_trim s⟩
  have hletters : ∀ c ∈ sign, isBlank c = false := fun c hc =>
    Bool.eq_false_iff.mpr (List.any_eq_false.mp (hsigns sign hsign) c hc)
  refine h.toList_trim (List.forall_mem_append.mpr ⟨hletters, fun c hc => ?_⟩)
  exact isBlank_eq_false_of_isDigit (hn.isDigit c hc)

/-- Digits do not begin with a sign. -/
theorem Decimal.ne_cons {c : Char} (h : Decimal cs n) (hc : c.isDigit = false) (rest : List Char) :
    cs ≠ c :: rest := by
  intro he
  have hd := h.isDigit c (he ▸ List.mem_cons_self)
  rw [hc] at hd
  cases hd

theorem exists_plusSigns_iff : (∃ sign ∈ plusSigns, ∃ ds, cs = sign ++ ds ∧ Decimal ds n) ↔
    Decimal cs n ∨ ∃ ds, cs = '+' :: ds ∧ Decimal ds n := by
  simp [plusSigns]

theorem exists_minusSigns_iff : (∃ sign ∈ minusSigns, ∃ ds, cs = sign ++ ds ∧ Decimal ds n) ↔
    ∃ ds, cs = '-' :: ds ∧ Decimal ds n := by
  simp [minusSigns]

/-- **Which numbers without a minus sign are read**: those below the bound. -/
theorem nat?_trim_eq_some_iff :
    nat? bound (trim s) = some n ↔ Numeral plusSigns s n ∧ n < bound := by
  rw [numeral_iff plusSigns (by decide), exists_plusSigns_iff]
  unfold nat?
  dsimp only
  rw [Option.filter_eq_some_iff, someDigits?_eq_some_iff, decide_eq_true_iff]
  refine and_congr_left fun _ => ?_
  split
  · rename_i ds hs
    constructor
    · intro h
      exact .inr ⟨ds, hs, h⟩
    · intro h
      rcases h with h | ⟨ds', hs', h⟩
      · exact absurd hs (h.ne_cons (by decide) ds)
      · obtain ⟨-, rfl⟩ := List.cons.inj (hs.symm.trans hs')
        exact h
  · rename_i hne
    refine (or_iff_left fun h => ?_).symm
    obtain ⟨ds, hs, -⟩ := h
    exact hne ds hs

theorem int?_of_minus (h : s.toList = '-' :: cs) : int? bound s =
    ((someDigits? cs).filter (· ≤ bound)).map fun n : Nat => -(n : Int) := by
  unfold int?
  split
  · rename_i ds hs
    obtain ⟨-, rfl⟩ := List.cons.inj (h.symm.trans hs)
    cases (someDigits? cs).filter (· ≤ bound) <;> rfl
  · rename_i ds hs
    exact absurd (List.cons.inj (h.symm.trans hs)).1 (by decide)
  · rename_i hne _
    exact absurd h (hne cs)

/-- Without a minus sign the number is read as one that has no sign to be read. -/
theorem int?_of_not_minus (h : ∀ cs, s.toList ≠ '-' :: cs) :
    int? bound s = (nat? bound s).map fun n : Nat => (n : Int) := by
  unfold int? nat?
  dsimp only
  split
  · rename_i cs hs
    exact absurd hs (h cs)
  · rename_i cs hs
    split
    · rename_i ds hds
      obtain ⟨-, rfl⟩ := List.cons.inj (hs.symm.trans hds)
      cases (someDigits? cs).filter (· < bound) <;> rfl
    · rename_i hne
      exact absurd hs (hne cs)
  · rename_i hne
    split
    · rename_i ds hds
      exact absurd hds (hne ds)
    · cases (someDigits? s.toList).filter (· < bound) <;> rfl

/-- **Which numbers with a sign are read and are not negative**: those below the bound, and zero with
    a minus sign. -/
theorem int?_trim_filter_eq_some_iff {z : Int} :
    (int? bound (trim s)).filter (0 ≤ ·) = some z ↔ ∃ n : Nat, z = n
      ∧ (Numeral plusSigns s n ∧ n < bound ∨ Numeral minusSigns s n ∧ n = 0) := by
  rw [Option.filter_eq_some_iff, decide_eq_true_iff]
  by_cases h : ∃ cs, (trim s).toList = '-' :: cs
  · obtain ⟨cs, hs⟩ := h
    have hplus : ∀ n, ¬ Numeral plusSigns s n := by
      intro n hn
      rw [numeral_iff plusSigns (by decide), exists_plusSigns_iff, hs] at hn
      rcases hn with hn | ⟨ds, hds, -⟩
      · exact hn.ne_cons (by decide) cs rfl
      · cases hds
    have hminus : ∀ n, Numeral minusSigns s n ↔ Decimal cs n := by
      intro n
      rw [numeral_iff minusSigns (by decide), exists_minusSigns_iff, hs]
      simp
    rw [int?_of_minus hs]
    simp only [hplus, hminus, false_and, false_or, Option.map_eq_some_iff,
      Option.filter_eq_some_iff, someDigits?_eq_some_iff, decide_eq_true_iff]
    constructor
    · intro h
      obtain ⟨⟨n, ⟨hn, -⟩, rfl⟩, hz⟩ := h
      obtain rfl : n = 0 := by omega
      exact ⟨0, rfl, hn, rfl⟩
    · intro h
      obtain ⟨n, rfl, hn, rfl⟩ := h
      exact ⟨⟨0, ⟨hn, Nat.zero_le _⟩, rfl⟩, Int.le_refl _⟩
  · have hs : ∀ cs, (trim s).toList ≠ '-' :: cs := fun cs hs => h ⟨cs, hs⟩
    have hminus : ∀ n, ¬ Numeral minusSigns s n := by
      intro n hn
      rw [numeral_iff minusSigns (by decide), exists_minusSigns_iff] at hn
      obtain ⟨ds, hds, -⟩ := hn
      exact hs ds hds
    rw [int?_of_not_minus hs]
    simp only [hminus, false_and, or_false, Option.map_eq_some_iff, nat?_trim_eq_some_iff]
    constructor
    · intro h
      obtain ⟨⟨n, hn, rfl⟩, -⟩ := h
      exact ⟨n, rfl, hn⟩
    · intro h
      obtain ⟨n, rfl, hn⟩ := h
      exact ⟨⟨n, hn, rfl⟩, Int.natCast_nonneg n⟩

/-- Blanks, a sign and leading zeros do not matter, but a bound does. -/
example : nat? 100 (trim " +007\n") = some 7 ∧ nat? 7 (trim "007") = none
    ∧ (int? 100 (trim " -0 ")).filter (0 ≤ ·) = some 0
    ∧ (int? 100 (trim "-1")).filter (0 ≤ ·) = none := by
  decide

end TabCompletion.Text
