import TabCompletion.Toml.Printer
import TabCompletion.Toml.Token

/-!
# Written texts are read back

A text is written in one of four styles. Whichever it is, the characters between its quotes may
stand there, and the text is got back from them.

* `escapeChar_cases`: the three ways to write a character of a basic text;
* `unescape?_escapeText`: the escapes of a written text are resolved to the text;
* `Quotable`: characters that may stand between quotes without ending the text;
* `quotable_escapeText`, `quotable_of_longestRun`: what is written for a text is such;
* `content`, `textOf?_content`: the characters between the quotes of a text are read as the text;
* `quotable_content`: and they may stand there.
-/

namespace TabCompletion.Toml

open Text

/-! ## 1. Characters of a text -/

/-- The character may stand for itself between quotes, in a block also if it is a line break. -/
def IsPlain (block : Bool) (c : Char) : Prop :=
  isTextChar c = true ∨ block = true ∧ c = '\n'

theorem isPlainText_of_forall {block : Bool} {cs : List Char} (h : ∀ c ∈ cs, IsPlain block c) :
    isPlainText block cs = true := by
  induction cs with
  | nil => rfl
  | cons c cs ih =>
    obtain ⟨hc, hcs⟩ := List.forall_mem_cons.mp h
    have hreturn : c ≠ '\r' := by
      rintro rfl
      rcases hc with hc | ⟨-, hc⟩
      · exact absurd hc (by decide)
      · exact absurd hc (by decide)
    rw [isPlainText, ih hcs, Bool.and_true]
    · unfold IsPlain at hc
      simpa using hc
    · exact fun _ hr _ => hreturn hr

/-- A character that needs no escape stands for itself in a block. -/
theorem isPlain_of_not_needsEscape {c : Char} (h : needsEscape c = false) : IsPlain true c := by
  unfold needsEscape at h
  unfold IsPlain isTextChar
  by_cases hn : c = '\n'
  · exact .inr ⟨rfl, hn⟩
  · by_cases ht : c = '\t'
    · exact .inl (by simp [ht])
    · simp [hn, ht] at h ⊢
      omega

/-- **A character of a basic text is written** with a short escape, by its number, or as it is. -/
theorem escapeChar_cases (block quote : Bool) (c : Char) :
    (∃ e, isTextChar e = true ∧ shortEscape? e = some c ∧ escapeChar block quote c = ['\\', e])
      ∨ (c.toNat < 0x80 ∧ escapeChar block quote c = ['\\', 'u', '0', '0',
        upperHexDigit (c.toNat / 16), upperHexDigit (c.toNat % 16)])
      ∨ (c ≠ '\\' ∧ (c = '"' → quote = false) ∧ IsPlain block c
        ∧ escapeChar block quote c = [c]) := by
  have hshort : ∀ e d, isTextChar e = true → shortEscape? e = some d → c = d →
      escapeChar block quote d = ['\\', e] → ∃ e, isTextChar e = true ∧ shortEscape? e = some c
        ∧ escapeChar block quote c = ['\\', e] := by
    intro e d hp he hd hw
    exact ⟨e, hp, hd ▸ he, hd ▸ hw⟩
  by_cases hquote : c = '"'
  · subst hquote
    cases quote with
    | true => exact .inl (hshort '"' _ (by decide) rfl rfl rfl)
    | false => exact .inr (.inr ⟨by decide, fun _ => rfl, .inl (by decide), rfl⟩)
  by_cases hback : c = '\x08'
  · exact .inl (hshort 'b' _ (by decide) rfl hback rfl)
  by_cases htab : c = '\t'
  · exact .inl (hshort 't' _ (by decide) rfl htab rfl)
  by_cases hnewline : c = '\n'
  · subst hnewline
    cases block with
    | false => exact .inl (hshort 'n' _ (by decide) rfl rfl rfl)
    | true => exact .inr (.inr ⟨by decide, fun h => absurd h hquote, .inr ⟨rfl, rfl⟩, rfl⟩)
  by_cases hfeed : c = '\x0c'
  · exact .inl (hshort 'f' _ (by decide) rfl hfeed rfl)
  by_cases hreturn : c = '\r'
  · exact .inl (hshort 'r' _ (by decide) rfl hreturn rfl)
  by_cases hslash : c = '\\'
  · exact .inl (hshort '\\' _ (by decide) rfl hslash rfl)
  unfold escapeChar
  rw [if_neg hquote, if_neg hback, if_neg htab, if_neg hnewline, if_neg hfeed, if_neg hreturn,
    if_neg hslash]
  split
  · rename_i hcontrol
    simp only [Bool.or_eq_true, decide_eq_true_eq] at hcontrol
    exact .inr (.inl ⟨by omega, rfl⟩)
  · rename_i hcontrol
    refine .inr (.inr ⟨hslash, fun h => absurd h hquote, .inl ?_, rfl⟩)
    simp only [Bool.or_eq_true, decide_eq_true_eq, not_or] at hcontrol
    simp [isTextChar, hcontrol.2, Nat.le_of_not_lt hcontrol.1]

/-- A written hexadecimal digit is read back, and stands for itself between quotes. -/
theorem hexValue?_upperHexDigit : ∀ d < 16, hexValue? (upperHexDigit d) = some d
    ∧ isTextChar (upperHexDigit d) = true ∧ upperHexDigit d ≠ '\\' ∧ upperHexDigit d ≠ '"' := by
  decide

/-- **A character is read back from what is written for it**, whatever follows. -/
theorem unescape?_escapeChar (block quote : Bool) (c : Char) (rest : List Char) :
    unescape? block .text (escapeChar block quote c ++ rest)
      = (unescape? block .text rest).map (c :: ·) := by
  rcases escapeChar_cases block quote c with ⟨e, -, he, hw⟩ | ⟨hn, hw⟩ | ⟨hslash, -, -, hw⟩
  · rw [hw]
    show unescape? block .text ('\\' :: e :: rest) = _
    rw [unescape?, if_pos rfl, unescape?, he]
  · obtain ⟨hhigh, -⟩ := hexValue?_upperHexDigit (c.toNat / 16) (by omega)
    obtain ⟨hlow, -⟩ := hexValue?_upperHexDigit (c.toNat % 16) (by omega)
    have hsum : 16 * (c.toNat / 16) + c.toNat % 16 = c.toNat := by omega
    have hvalid : c.toNat.isValidChar := c.valid
    rw [hw]
    show unescape? block (.number 2 0) (upperHexDigit _ :: upperHexDigit _ :: rest) = _
    rw [unescape?, hhigh]
    dsimp only
    rw [if_pos (by decide), unescape?, hlow]
    dsimp only
    rw [if_neg (by decide), Nat.mul_zero, Nat.zero_add, hsum, if_pos hvalid, Char.ofNat_toNat]
  · rw [hw]
    show unescape? block .text (c :: rest) = _
    rw [unescape?, if_neg hslash]

/-- **The escapes of a written text are resolved to the text.** -/
theorem unescape?_escapeText (block : Bool) (run : Nat) (cs : List Char) :
    unescape? block .text (escapeText block run cs) = some cs := by
  induction cs generalizing run with
  | nil => rfl
  | cons c cs ih =>
    rw [escapeText, unescape?_escapeChar, ih]
    rfl

/-- What is written for a character may stand between quotes, and holds a line break only for a
    line break. -/
theorem isPlain_of_mem_escapeChar {block quote : Bool} {c d : Char}
    (h : d ∈ escapeChar block quote c) : IsPlain block d ∧ (d = '\n' → c = '\n') := by
  have htext : isTextChar d = true → IsPlain block d ∧ (d = '\n' → c = '\n') := by
    intro ht
    refine ⟨.inl ht, ?_⟩
    rintro rfl
    exact absurd ht (by decide)
  rcases escapeChar_cases block quote c with ⟨e, he, -, hw⟩ | ⟨hn, hw⟩ | ⟨-, -, hp, hw⟩
  · rw [hw] at h
    have hall : ∀ d ∈ ['\\', e], isTextChar d = true :=
      List.forall_mem_cons.mpr ⟨by decide, List.forall_mem_singleton.mpr he⟩
    exact htext (hall d h)
  · obtain ⟨-, hhigh, -⟩ := hexValue?_upperHexDigit (c.toNat / 16) (by omega)
    obtain ⟨-, hlow, -⟩ := hexValue?_upperHexDigit (c.toNat % 16) (by omega)
    rw [hw] at h
    simp only [List.mem_cons, List.not_mem_nil, or_false] at h
    rcases h with rfl | rfl | rfl | rfl | rfl | rfl
    · exact htext (by decide)
    · exact htext (by decide)
    · exact htext (by decide)
    · exact htext (by decide)
    · exact htext hhigh
    · exact htext hlow
  · rw [hw] at h
    obtain rfl := List.mem_singleton.mp h
    exact ⟨hp, id⟩

theorem isPlain_of_mem_escapeText {block : Bool} {run : Nat} {cs : List Char} {d : Char}
    (h : d ∈ escapeText block run cs) : IsPlain block d ∧ (d = '\n' → '\n' ∈ cs) := by
  induction cs generalizing run with
  | nil => exact absurd h List.not_mem_nil
  | cons c cs ih =>
    rw [escapeText] at h
    rcases List.mem_append.mp h with h | h
    · obtain ⟨hp, hn⟩ := isPlain_of_mem_escapeChar h
      exact ⟨hp, fun hd => List.mem_cons.mpr (.inl (hn hd).symm)⟩
    · obtain ⟨hp, hn⟩ := ih h
      exact ⟨hp, fun hd => List.mem_cons_of_mem c (hn hd)⟩

/-! ## 2. Between the quotes -/

/-- `Quotable q m k cs k'`: between quotes `q`, of which up to `m` may stand in a row, the
    characters `cs` may follow `k` of them, and end with `k'` of them. Between double quotes a
    backslash takes the next character with it, whatever that is. -/
inductive Quotable (q : Char) (m : Nat) : Nat → List Char → Nat → Prop where
  | nil (k : Nat) : Quotable q m k [] k
  | quote {k k' : Nat} {cs : List Char} (hk : k < m) (h : Quotable q m (k + 1) cs k') :
      Quotable q m k (q :: cs) k'
  | char {k k' : Nat} {c : Char} {cs : List Char} (hq : c ≠ q) (hs : c = '\\' → q ≠ '"')
      (h : Quotable q m 0 cs k') : Quotable q m k (c :: cs) k'
  | pair {k k' : Nat} {c : Char} {cs : List Char} (hq : q = '"') (h : Quotable q m 0 cs k') :
      Quotable q m k ('\\' :: c :: cs) k'

/-- At the end there are no more quotes in a row than there may be. -/
theorem Quotable.le {q : Char} {m k k' : Nat} {cs : List Char} (h : Quotable q m k cs k')
    (hk : k ≤ m) : k' ≤ m := by
  induction h with
  | nil => exact hk
  | quote hlt _ ih => exact ih hlt
  | char _ _ _ ih => exact ih (Nat.zero_le m)
  | pair _ _ ih => exact ih (Nat.zero_le m)

/-- The number of double quotes in a row that need no escape. -/
def bareQuotes (block : Bool) : Nat := if block then 2 else 0

/-- What is written for a character other than a double quote ends every run of them. -/
theorem Quotable.escapeChar_append {block quote : Bool} {c : Char} (hc : c ≠ '"') {m k k' : Nat}
    {rest : List Char} (h : Quotable '"' m 0 rest k') :
    Quotable '"' m k (escapeChar block quote c ++ rest) k' := by
  rcases escapeChar_cases block quote c with ⟨e, -, -, hw⟩ | ⟨hn, hw⟩ | ⟨hslash, -, -, hw⟩
  · rw [hw]
    exact .pair rfl h
  · obtain ⟨-, -, hhigh, hhigh'⟩ := hexValue?_upperHexDigit (c.toNat / 16) (by omega)
    obtain ⟨-, -, hlow, hlow'⟩ := hexValue?_upperHexDigit (c.toNat % 16) (by omega)
    rw [hw]
    exact .pair rfl (.char (by decide) (absurd · (by decide))
      (.char (by decide) (absurd · (by decide))
        (.char hhigh' (absurd · hhigh) (.char hlow' (absurd · hlow) h))))
  · rw [hw]
    exact .char hc (absurd · hslash) h

/-- **What is written for a text may stand between double quotes.** -/
theorem quotable_escapeText (block : Bool) (run : Nat) (cs : List Char) :
    ∃ k, Quotable '"' (bareQuotes block) run (escapeText block run cs) k := by
  induction cs generalizing run with
  | nil => exact ⟨run, .nil run⟩
  | cons c cs ih =>
    rw [escapeText]
    by_cases hc : c = '"'
    · subst hc
      by_cases hrun : bareQuotes block ≤ run
      · have hquote : decide ((if block then 2 else 0) ≤ run) = true := decide_eq_true hrun
        obtain ⟨k, hk⟩ := ih 0
        rw [hquote]
        exact ⟨k, .pair rfl hk⟩
      · have hquote : decide ((if block then 2 else 0) ≤ run) = false := decide_eq_false hrun
        obtain ⟨k, hk⟩ := ih (run + 1)
        rw [hquote]
        exact ⟨k, .quote (Nat.lt_of_not_le hrun) hk⟩
    · obtain ⟨k, hk⟩ := ih 0
      rw [decide_eq_false hc]
      exact ⟨k, hk.escapeChar_append hc⟩

theorem le_longestRun (q : Char) (run : Nat) (cs : List Char) : run ≤ longestRun q run cs := by
  induction cs generalizing run with
  | nil => exact Nat.le_refl run
  | cons c cs ih =>
    rw [longestRun]
    split
    · exact Nat.le_of_succ_le (ih (run + 1))
    · exact Nat.le_max_left run _

/-- Characters without a longer run of a quote may stand between such quotes, if the backslash has
    no meaning there. -/
theorem quotable_of_longestRun {q : Char} (hq : q ≠ '"') {m run : Nat} {cs : List Char}
    (h : longestRun q run cs ≤ m) : ∃ k, Quotable q m run cs k := by
  induction cs generalizing run with
  | nil => exact ⟨run, .nil run⟩
  | cons c cs ih =>
    rw [longestRun] at h
    split at h
    · rename_i hc
      subst hc
      obtain ⟨k, hk⟩ := ih h
      exact ⟨k, .quote (Nat.lt_of_lt_of_le (le_longestRun c (run + 1) cs) h) hk⟩
    · rename_i hc
      obtain ⟨k, hk⟩ := ih (Nat.le_trans (Nat.le_max_right _ _) h)
      exact ⟨k, .char hc (fun _ => hq) hk⟩

/-! ## 3. The content of a written text -/

/-- The quote of a style. -/
def TextStyle.quote : TextStyle → Char
  | .basic | .basicBlock => '"'
  | .literal | .literalBlock => '\''

/-- Whether the text may run over several lines. -/
def TextStyle.isBlock : TextStyle → Bool
  | .basic | .literal => false
  | .basicBlock | .literalBlock => true

/-- The characters between the quotes of a text, without the line break in front of them. -/
def TextStyle.body (style : TextStyle) (cs : List Char) : List Char :=
  match style with
  | .basic | .basicBlock => escapeText style.isBlock 0 cs
  | .literal | .literalBlock => cs

/-- The quotes at either end of a text. -/
def TextStyle.quotes (style : TextStyle) : List Char :=
  List.replicate (if style.isBlock then 3 else 1) style.quote

/-- The characters between the quotes of a text. -/
def TextStyle.content (style : TextStyle) (cs : List Char) : List Char :=
  (if style.isBlock then blockStart cs else []) ++ style.body cs

/-- A text is its content between quotes. -/
theorem writeText_eq (s : String) : writeText s = (textStyle s.toList).quotes
    ++ (textStyle s.toList).content s.toList ++ (textStyle s.toList).quotes := by
  unfold writeText TextStyle.content TextStyle.body TextStyle.quotes
  dsimp only
  split <;> rename_i h <;> rw [h] <;> simp [TextStyle.isBlock, TextStyle.quote]

/-- A literal text needs no escapes and has no more quotes in a row than may stand there; on one
    line it has no line break. -/
theorem literal_cases (cs : List Char) (h : (textStyle cs).quote = '\'') :
    (∀ c ∈ cs, needsEscape c = false) ∧ longestRun '\'' 0 cs ≤ bareQuotes (textStyle cs).isBlock
      ∧ ('\n' ∈ cs → (textStyle cs).isBlock = true) := by
  have hbasic : TextStyle.basic.quote ≠ '\'' := by decide
  have hblock : TextStyle.basicBlock.quote ≠ '\'' := by decide
  unfold textStyle at h ⊢
  dsimp only at h ⊢
  split at h
  · exact absurd h hbasic
  · split at h
    · rename_i hplain hliteral
      rw [if_neg hplain, if_pos hliteral]
      simp only [Bool.and_eq_true, Bool.not_eq_true', List.any_eq_false,
        decide_eq_true_eq] at hliteral
      obtain ⟨⟨hescapes, hsingles⟩, hbreaks⟩ := hliteral
      refine ⟨fun c hc => Bool.eq_false_iff.mpr (hescapes c hc), Nat.le_of_eq hsingles,
        fun hn => ?_⟩
      rw [List.contains_iff_mem.mpr hn] at hbreaks
      cases hbreaks
    · split at h
      · exact absurd h hblock
      · split at h
        · rename_i hplain hliteral hbasicBlock hliteralBlock
          rw [if_neg hplain, if_neg hliteral, if_neg hbasicBlock, if_pos hliteralBlock]
          simp only [Bool.and_eq_true, Bool.not_eq_true', List.any_eq_false,
            decide_eq_true_eq] at hliteralBlock
          obtain ⟨hescapes, hsingles⟩ := hliteralBlock
          exact ⟨fun c hc => Bool.eq_false_iff.mpr (hescapes c hc), hsingles, fun _ => rfl⟩
        · split at h
          · exact absurd h hblock
          · exact absurd h hbasic

/-- The characters between the quotes may stand there, and line breaks among them are those of the
    text. -/
theorem isPlain_of_mem_body (cs : List Char) : ∀ d ∈ (textStyle cs).body cs,
    IsPlain (textStyle cs).isBlock d ∧ (d = '\n' → '\n' ∈ cs) := by
  intro d h
  have hliteral := literal_cases cs
  cases hstyle : textStyle cs with
  | basic =>
    rw [hstyle] at h
    exact isPlain_of_mem_escapeText h
  | basicBlock =>
    rw [hstyle] at h
    exact isPlain_of_mem_escapeText h
  | literal =>
    rw [hstyle] at h hliteral
    obtain ⟨hescapes, -, hbreaks⟩ := hliteral rfl
    have hplain := isPlain_of_not_needsEscape (hescapes d h)
    refine ⟨hplain.imp_right fun ⟨_, hd⟩ => ⟨hbreaks (hd ▸ h), hd⟩, fun hd => hd ▸ h⟩
  | literalBlock =>
    rw [hstyle] at h hliteral
    exact ⟨isPlain_of_not_needsEscape ((hliteral rfl).1 d h), fun hd => hd ▸ h⟩

/-- The line break in front of a text is dropped, and nothing else is. -/
theorem dropFirstBreak_blockStart {cs ds : List Char} (hp : ∀ d ∈ ds, IsPlain true d)
    (hn : '\n' ∈ ds → '\n' ∈ cs) : dropFirstBreak (blockStart cs ++ ds) = ds := by
  unfold blockStart
  by_cases hbreak : '\n' ∈ cs
  · rw [if_pos (List.contains_iff_mem.mpr hbreak)]
    rfl
  · rw [if_neg (mt List.contains_iff_mem.mp hbreak), List.nil_append]
    unfold dropFirstBreak
    split
    · exact absurd (hn List.mem_cons_self) hbreak
    · rcases hp '\r' List.mem_cons_self with hr | ⟨-, hr⟩
      · exact absurd hr (by decide)
      · exact absurd hr (by decide)
    · rfl

/-- **The content of a written text is read as the text.** -/
theorem textOf?_content (cs : List Char) :
    textOf? (textStyle cs).quote (textStyle cs).isBlock ((textStyle cs).content cs)
      = some (.text (textStyle cs).isBlock (String.ofList cs)) := by
  have hmem := isPlain_of_mem_body cs
  have hplain : isPlainText (textStyle cs).isBlock ((textStyle cs).body cs) = true :=
    isPlainText_of_forall fun d hd => (hmem d hd).1
  have hbody : (if (textStyle cs).isBlock then dropFirstBreak ((textStyle cs).content cs)
      else (textStyle cs).content cs) = (textStyle cs).body cs := by
    unfold TextStyle.content
    cases hblock : (textStyle cs).isBlock with
    | false => rfl
    | true =>
      rw [hblock] at hmem
      exact dropFirstBreak_blockStart (fun d hd => (hmem d hd).1) fun hn => (hmem _ hn).2 rfl
  unfold textOf?
  dsimp only
  rw [hbody, if_pos hplain]
  cases textStyle cs with
  | basic =>
    show (unescape? false .text (escapeText false 0 cs)).map _ = _
    rw [unescape?_escapeText]
    rfl
  | basicBlock =>
    show (unescape? true .text (escapeText true 0 cs)).map _ = _
    rw [unescape?_escapeText]
    rfl
  | literal => rfl
  | literalBlock => rfl

/-- **The content of a written text may stand between its quotes.** -/
theorem quotable_content (cs : List Char) :
    ∃ k, Quotable (textStyle cs).quote (bareQuotes (textStyle cs).isBlock) 0
      ((textStyle cs).content cs) k := by
  have hbody : ∃ k, Quotable (textStyle cs).quote (bareQuotes (textStyle cs).isBlock) 0
      ((textStyle cs).body cs) k := by
    have hliteral := literal_cases cs
    cases hstyle : textStyle cs with
    | basic => exact quotable_escapeText false 0 cs
    | basicBlock => exact quotable_escapeText true 0 cs
    | literal =>
      rw [hstyle] at hliteral
      exact quotable_of_longestRun (by decide) (hliteral rfl).2.1
    | literalBlock =>
      rw [hstyle] at hliteral
      exact quotable_of_longestRun (by decide) (hliteral rfl).2.1
  obtain ⟨k, hk⟩ := hbody
  refine ⟨k, ?_⟩
  unfold TextStyle.content blockStart
  split
  · split
    · refine .char ?_ (absurd · (by decide)) hk
      cases textStyle cs <;> decide
    · exact hk
  · exact hk

end TabCompletion.Toml
