import Mathlib.Data.List.TakeWhile
import TabCompletion.Json.Printer
import TabCompletion.Json.Token

/-!
# Written texts and numbers are read back

A text is written character by character, some of them with an escape, and a number by its digits.
Each character is read back from what is written for it, whatever follows.

* `writeChar_cases`: the three ways to write a character;
* `TextUnit.Names`: which character a part of a text stands for;
* `textValue?_writeChar`: the text between its quotes is read back;
* `bareValue?_toDigits`: a number is read back from its digits.
-/

namespace TabCompletion.Json

open Text

/-! ## 1. Characters of a text -/

/-- **A character is written** with a short escape, by its number, or as it is. -/
theorem writeChar_cases (c : Char) :
    (∃ e, e ≠ 'u' ∧ shortEscape? e = some c ∧ writeChar c = ['\\', e])
      ∨ (c.toNat < 0x20 ∧ writeChar c
        = ['\\', 'u', '0', '0', (c.toNat / 16).digitChar, (c.toNat % 16).digitChar])
      ∨ (c ≠ '"' ∧ c ≠ '\\' ∧ 0x20 ≤ c.toNat ∧ writeChar c = [c]) := by
  have hshort : ∀ e d, e ≠ 'u' → shortEscape? e = some d → c = d → writeChar d = ['\\', e] →
      ∃ e, e ≠ 'u' ∧ shortEscape? e = some c ∧ writeChar c = ['\\', e] := by
    intro e d hu he hd hw
    exact ⟨e, hu, hd ▸ he, hd ▸ hw⟩
  by_cases hquote : c = '"'
  · exact .inl (hshort '"' _ (by decide) rfl hquote rfl)
  by_cases hslash : c = '\\'
  · exact .inl (hshort '\\' _ (by decide) rfl hslash rfl)
  by_cases hback : c = '\x08'
  · exact .inl (hshort 'b' _ (by decide) rfl hback rfl)
  by_cases hfeed : c = '\x0c'
  · exact .inl (hshort 'f' _ (by decide) rfl hfeed rfl)
  by_cases hnewline : c = '\n'
  · exact .inl (hshort 'n' _ (by decide) rfl hnewline rfl)
  by_cases hreturn : c = '\r'
  · exact .inl (hshort 'r' _ (by decide) rfl hreturn rfl)
  by_cases htab : c = '\t'
  · exact .inl (hshort 't' _ (by decide) rfl htab rfl)
  unfold writeChar
  rw [if_neg hquote, if_neg hslash, if_neg hback, if_neg hfeed, if_neg hnewline, if_neg hreturn,
    if_neg htab]
  by_cases hcontrol : c.toNat < 0x20
  · rw [if_pos hcontrol]
    exact .inr (.inl ⟨hcontrol, rfl⟩)
  · rw [if_neg hcontrol]
    exact .inr (.inr ⟨hquote, hslash, Nat.le_of_not_lt hcontrol, rfl⟩)

/-- The part of a text stands for the character, whatever parts follow. -/
def TextUnit.Names (u : TextUnit) (c : Char) : Prop :=
  ∀ units, joinUnits? (u :: units) = (joinUnits? units).map (c :: ·)

theorem TextUnit.names_char (c : Char) : (TextUnit.char c).Names c := fun units => by
  rw [joinUnits?]

/-- A unit that is no half of a surrogate pair stands for the character with its number. -/
theorem TextUnit.names_unit {n : Nat} (hh : isHighSurrogate n = false)
    (hl : isLowSurrogate n = false) : (TextUnit.unit n).Names (Char.ofNat n) := by
  intro units
  match units with
  | [] => simp [joinUnits?, hh, hl]
  | .char c :: units => simp [joinUnits?, hh, hl]
  | .unit m :: units => simp [joinUnits?, hh, hl]

/-- The digits behind `\u00` give back the number of a control character. -/
theorem hexNumber?_control : ∀ n < 0x20,
    hexNumber? 0 ['0', '0', (n / 16).digitChar, (n % 16).digitChar] = some n := by
  decide

theorem control_not_surrogate : ∀ n < 0x20,
    isHighSurrogate n = false ∧ isLowSurrogate n = false := by
  decide

/-- **A character is read back from what is written for it.** -/
theorem textUnits?_writeChar (c : Char) (rest : List Char) : ∃ u : TextUnit, u.Names c
    ∧ textUnits? (writeChar c ++ rest) = (textUnits? rest).map (u :: ·) := by
  rcases writeChar_cases c with ⟨e, hu, he, hw⟩ | ⟨hn, hw⟩ | ⟨-, hslash, -, hw⟩
  · refine ⟨.char c, TextUnit.names_char c, ?_⟩
    rw [hw]
    show textUnits? ('\\' :: e :: rest) = _
    rw [textUnits?, he, Option.bind_some]
    intro a b c d rest h
    exact absurd h hu
  · obtain ⟨hh, hl⟩ := control_not_surrogate c.toNat hn
    have hc := TextUnit.names_unit hh hl
    rw [Char.ofNat_toNat] at hc
    refine ⟨.unit c.toNat, hc, ?_⟩
    rw [hw]
    show textUnits? ('\\' :: 'u' :: '0' :: '0' :: _ :: _ :: rest) = _
    rw [textUnits?, hexNumber?_control c.toNat hn, Option.bind_some]
  · refine ⟨.char c, TextUnit.names_char c, ?_⟩
    rw [hw]
    show textUnits? (c :: rest) = _
    rw [textUnits?, if_neg hslash]
    · exact fun _ _ _ _ _ h => absurd h hslash
    · exact fun _ _ h => absurd h hslash

/-- **A text is read back from what is written between its quotes.** -/
theorem textValue?_writeChar (s : String) :
    textValue? (s.toList.flatMap writeChar) = some (.text (some s)) := by
  have hread : ∀ cs : List Char, ∃ units, textUnits? (cs.flatMap writeChar) = some units
      ∧ joinUnits? units = some cs := by
    intro cs
    induction cs with
    | nil => exact ⟨[], rfl, rfl⟩
    | cons c cs ih =>
      obtain ⟨units, hunits, hjoin⟩ := ih
      obtain ⟨u, hu, hc⟩ := textUnits?_writeChar c (cs.flatMap writeChar)
      refine ⟨u :: units, ?_, ?_⟩
      · rw [List.flatMap_cons, hc, hunits, Option.map_some]
      · rw [hu, hjoin, Option.map_some]
  obtain ⟨units, hunits, hjoin⟩ := hread s.toList
  unfold textValue?
  rw [hunits, Option.map_some, hjoin, Option.map_some, String.ofList_toList]

/-! ## 2. Numbers -/

/-- The digits of a number other than zero do not begin with a zero. -/
theorem head?_toDigits {n : Nat} (hn : n ≠ 0) : (Nat.toDigits 10 n).head? ≠ some '0' := by
  induction n using Nat.strongRecOn with
  | _ n ih =>
    rw [Nat.toDigits_eq_if (by decide)]
    split
    · intro h
      exact hn (Nat.digitChar_eq_zero.mp (Option.some.inj h))
    · have hsmaller := ih (n / 10) (by omega) (by omega)
      rwa [List.head?_append, Option.or_of_isSome (List.isSome_head?.mpr Nat.toDigits_ne_nil)]

theorem isDigit_toDigits (n : Nat) : ∀ c ∈ Nat.toDigits 10 n, c.isDigit = true :=
  fun _ hc => Nat.isDigit_of_mem_toDigits (by decide) (by decide) hc

theorem isUnsignedNumber_toDigits (n : Nat) : isUnsignedNumber (Nat.toDigits 10 n) = true := by
  have hall := isDigit_toDigits n
  have hfirst : (Nat.toDigits 10 n).head? != some '0' || (Nat.toDigits 10 n).length == 1 := by
    by_cases hn : n = 0
    · rw [hn, Nat.toDigits_zero]
      rfl
    · rw [bne_iff_ne.mpr (head?_toDigits hn), Bool.true_or]
  unfold isUnsignedNumber
  rw [List.takeWhile_eq_self_iff.mpr hall, List.dropWhile_eq_nil_iff.mpr hall]
  dsimp only
  rw [hfirst, List.isEmpty_eq_false_iff.mpr Nat.toDigits_ne_nil]
  rfl

/-- **A number is read back from its digits.** -/
theorem bareValue?_toDigits (n : Nat) :
    bareValue? (Nat.toDigits 10 n) = some (.number (some n)) := by
  have hall := isDigit_toDigits n
  have hname : ∀ c cs, c.isDigit = false → Nat.toDigits 10 n ≠ c :: cs := by
    intro c cs hc h
    have hd := hall c (by rw [h]; exact List.mem_cons_self)
    rw [hc] at hd
    cases hd
  unfold bareValue?
  rw [if_neg (hname _ _ (by decide)), if_neg (hname _ _ (by decide)),
    if_neg (hname _ _ (by decide))]
  split
  · rename_i h
    exact absurd h (hname _ _ (by decide))
  · rw [if_pos (isUnsignedNumber_toDigits n), if_pos (List.all_eq_true.mpr hall)]
    exact congrArg (fun k => some (Value.number (some k))) Nat.ofDigitChars_ten_toDigits

end TabCompletion.Json
