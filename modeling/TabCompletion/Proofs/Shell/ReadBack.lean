import TabCompletion.Proofs.Line.Spelling
import TabCompletion.Proofs.Line.UnderCursor
import TabCompletion.Shell.Kind

/-!
# Escaped values, read back

What Bash escapes for a value is read back by the splitting of a line, up to three differences: an
exclamation mark between double quotes keeps its backslash, a line break outside quotes vanishes
with it, and a blank other than space and tab is not escaped at all and ends the word.

* `words_single_quoted`, `words_double_quoted`: what is read back between quotes;
* `unquoted_spelled`: which letters are read back without quotes;
* `escapeBash_read_back`: the values that are read back unchanged.
-/

namespace TabCompletion.Shell

open Text Line Scan

variable {s t : Scan} {c : Char}

/-! ## 1. Single quotes -/

/-- A character as it is written between single quotes. -/
def singleForm (c : Char) : List Char := if c = '\'' then "'\\''".toList else [c]

theorem spells_singleForm (hm : s.mode = .single) :
    Spells s .single [c] ((singleForm c).foldl step s) := by
  unfold singleForm
  split
  · -- the quote is closed, a quote stands escaped, and the quote is opened again
    rename_i hc
    rw [hc]
    have hclose := spells_close_single hm
    have hletter := spells_plain_escaped hclose.mode (c := '\'') (by decide)
    exact (hclose.trans hletter).trans (spells_open_single hletter.mode)
  · exact spells_single hm (by assumption)

theorem spells_singleForms (hm : s.mode = .single) (hs : s.draft.isSome = true) (cs : List Char) :
    Spells s .single cs ((cs.flatMap singleForm).foldl step s) := by
  have h : Spells s .single (cs.flatMap fun c => [c]) ((cs.flatMap singleForm).foldl step s) :=
    .flatMap (fun c _ s hs => spells_singleForm hs) hm hs
  rwa [List.flatMap_singleton'] at h

theorem spells_single_quoted (hm : s.mode = .plain) (cs : List Char) :
    Spells s .plain cs (('\'' :: cs.flatMap singleForm ++ ['\'']).foldl step s) := by
  have hopen := spells_open_single hm
  have hall := spells_singleForms hopen.mode hopen.begun cs
  rw [List.cons_append, List.foldl_cons, List.foldl_append]
  have h := (hopen.trans hall).trans (spells_close_single hall.mode)
  simpa using h

/-! ## 2. Double quotes -/

/-- A character as it is written between double quotes. -/
def doubleForm (c : Char) : List Char := if isBashDoubleSpecial c then ['\\', c] else [c]

/-- What is read of it. -/
def doubleRead (c : Char) : List Char := if c = '!' then ['\\', c] else [c]

theorem isBashDoubleSpecial_iff : isBashDoubleSpecial c = true ↔
    c = '\\' ∨ c = '\x60' ∨ c = '$' ∨ c = '"' ∨ c = '!' := by
  simp [isBashDoubleSpecial]

theorem spells_doubleForm (hm : s.mode = .double) :
    Spells s .double (doubleRead c) ((doubleForm c).foldl step s) := by
  unfold doubleForm
  split
  · rename_i hc
    have hn : c ≠ '\n' := fun he => by
      subst he
      cases hc
    have h := spells_double_escaped hm hn
    -- the exclamation mark is the only one of them that needs no escape
    rcases isBashDoubleSpecial_iff.mp hc with rfl | rfl | rfl | rfl | rfl <;> exact h
  · rename_i hc
    obtain ⟨hs, -, -, hq, he⟩ : c ≠ '\\' ∧ c ≠ '\x60' ∧ c ≠ '$' ∧ c ≠ '"' ∧ c ≠ '!' := by
      simpa [isBashDoubleSpecial_iff] using hc
    unfold doubleRead
    rw [if_neg he]
    exact spells_double hm hq hs

theorem spells_double_quoted (hm : s.mode = .plain) (cs : List Char) :
    Spells s .plain (cs.flatMap doubleRead)
      (('"' :: cs.flatMap doubleForm ++ ['"']).foldl step s) := by
  have hopen := spells_open_double hm
  have hall : Spells (s.step '"') .double (cs.flatMap doubleRead)
      ((cs.flatMap doubleForm).foldl step (s.step '"')) :=
    .flatMap (fun c _ s hs => spells_doubleForm hs) hopen.mode hopen.begun
  rw [List.cons_append, List.foldl_cons, List.foldl_append]
  have h := (hopen.trans hall).trans (spells_close_double hall.mode)
  simpa using h

/-- What is read is what was written iff no backslash is left over. -/
theorem flatMap_doubleRead_eq_iff {cs : List Char} : cs.flatMap doubleRead = cs ↔ '!' ∉ cs := by
  constructor
  · intro h
    have hlen : ∀ cs : List Char, (cs.flatMap doubleRead).length = cs.length + cs.count '!' := by
      intro cs
      induction cs with
      | nil => rfl
      | cons c cs ih =>
        rw [List.flatMap_cons, List.length_append, ih, List.length_cons, List.count_cons]
        unfold doubleRead
        by_cases hc : c = '!' <;> simp [hc] <;> omega
    have hcount := hlen cs
    rw [h] at hcount
    exact List.count_eq_zero.mp (by omega)
  · intro h
    induction cs with
    | nil => rfl
    | cons c cs ih =>
      obtain ⟨hc, hcs⟩ := not_or.mp (mt List.mem_cons.mpr h)
      rw [List.flatMap_cons, ih hcs, doubleRead, if_neg (Ne.symm hc)]
      rfl

/-! ## 3. No quotes -/

/-- A character as it is written outside quotes. -/
def plainForm (c : Char) : List Char := if isBashSpecial c then ['\\', c] else [c]

/-- Whether the character is read back: no line break, and no blank but space and tab. -/
def survives (c : Char) : Bool := c != '\n' && (!isBlank c || c == ' ' || c == '\t')

theorem survives_iff : survives c = true ↔
    c ≠ '\n' ∧ (isBlank c = true → c = ' ' ∨ c = '\t') := by
  unfold survives
  cases isBlank c <;> simp

/-- Of the blanks, only space, tab and line break are written with a backslash. -/
theorem isBashSpecial_iff_of_isBlank (hb : isBlank c = true) :
    isBashSpecial c = true ↔ c = ' ' ∨ c = '\t' ∨ c = '\n' := by
  constructor
  · intro h
    have hblanks : "\\();<>|&!\x60$* \t\n\"'".toList.filter isBlank = [' ', '\t', '\n'] := rfl
    have hc := List.mem_filter.mpr ⟨List.contains_iff_mem.mp h, hb⟩
    rw [hblanks] at hc
    simpa using hc
  · intro h
    rcases h with rfl | rfl | rfl <;> rfl

theorem spells_plainForm (hm : s.mode = .plain) (hc : survives c = true) :
    Spells s .plain [c] ((plainForm c).foldl step s) := by
  obtain ⟨hn, hblank⟩ := survives_iff.mp hc
  unfold plainForm
  split
  · exact spells_plain_escaped hm hn
  · rename_i hs
    have hb : isBlank c = false := by
      refine Bool.eq_false_iff.mpr fun hb => hs ?_
      exact (isBashSpecial_iff_of_isBlank hb).mpr ((hblank hb).imp_right .inl)
    have hne : c ≠ '\\' ∧ c ≠ '\'' ∧ c ≠ '"' := by
      refine ⟨?_, ?_, ?_⟩ <;> intro he <;> subst he <;> exact hs rfl
    exact spells_plain hm hb hne.1 hne.2.1 hne.2.2

/-- A character that is not read back adds no letter. -/
theorem spelled_plainForm (hm : s.mode = .plain) (hc : survives c = false) :
    ((plainForm c).foldl step s).mode = .plain
      ∧ ((plainForm c).foldl step s).spelled = s.spelled := by
  by_cases hn : c = '\n'
  · subst hn
    exact spelled_continuation hm
  · obtain ⟨hb, hsp, ht⟩ : isBlank c = true ∧ c ≠ ' ' ∧ c ≠ '\t' := by
      unfold survives at hc
      simpa [hn, not_or, and_assoc] using hc
    have hs : isBashSpecial c = false := by
      refine Bool.eq_false_iff.mpr fun hs => ?_
      rcases (isBashSpecial_iff_of_isBlank hb).mp hs with he | he | he
      · exact hsp he
      · exact ht he
      · exact hn he
    unfold plainForm
    rw [hs, if_neg Bool.false_ne_true]
    exact spelled_blank hm hb

/-- **Outside quotes exactly the characters that survive are read back**, whatever word they come to
    belong to. -/
theorem unquoted_spelled (hm : s.mode = .plain) (cs : List Char) :
    ((cs.flatMap plainForm).foldl step s).mode = .plain
      ∧ ((cs.flatMap plainForm).foldl step s).spelled = s.spelled ++ cs.filter survives := by
  induction cs generalizing s with
  | nil => exact ⟨hm, (List.append_nil _).symm⟩
  | cons c cs ih =>
    rw [List.flatMap_cons, List.foldl_append]
    cases hc : survives c with
    | true =>
      have hfirst := spells_plainForm hm hc
      obtain ⟨hmode, hall⟩ := ih hfirst.mode
      refine ⟨hmode, ?_⟩
      rw [hall, hfirst.spelled_eq, List.filter_cons_of_pos hc, List.append_assoc]
      rfl
    | false =>
      obtain ⟨hfirst, hsame⟩ := spelled_plainForm hm hc
      obtain ⟨hmode, hall⟩ := ih hfirst
      refine ⟨hmode, ?_⟩
      rw [hall, hsame, List.filter_cons_of_neg (Bool.eq_false_iff.mp hc)]

/-- Where all characters survive, they are read as one word. -/
theorem spells_unquoted (hm : s.mode = .plain) {cs : List Char} (hne : cs ≠ [])
    (hall : ∀ c ∈ cs, survives c = true) :
    Spells s .plain cs ((cs.flatMap plainForm).foldl step s) := by
  cases cs with
  | nil => exact absurd rfl hne
  | cons c cs =>
    obtain ⟨hc, hcs⟩ := List.forall_mem_cons.mp hall
    have hfirst := spells_plainForm hm hc
    have hrest : Spells ((plainForm c).foldl step s) .plain (cs.flatMap fun c => [c])
        ((cs.flatMap plainForm).foldl step ((plainForm c).foldl step s)) :=
      .flatMap (fun c hc s hs => spells_plainForm hs (hcs c hc)) hfirst.mode hfirst.begun
    rw [List.flatMap_cons, List.foldl_append]
    have h := hfirst.trans hrest
    simpa using h

/-! ## 4. Whole lines -/

/-- The texts of the words of a line. -/
theorem words_single_quoted (cs : List Char) :
    (words ('\'' :: cs.flatMap singleForm ++ ['\''])).map (·.text) = [cs] :=
  rests_start.map_text_finish (spells_single_quoted rfl cs)

theorem words_double_quoted (cs : List Char) :
    (words ('"' :: cs.flatMap doubleForm ++ ['"'])).map (·.text) = [cs.flatMap doubleRead] :=
  rests_start.map_text_finish (spells_double_quoted rfl cs)

/-- Outside quotes a text is read back as one word iff it is not empty and all of it survives. -/
theorem words_unquoted_iff {cs : List Char} :
    (words (cs.flatMap plainForm)).map (·.text) = [cs] ↔
      cs ≠ [] ∧ ∀ c ∈ cs, survives c = true := by
  constructor
  · intro h
    obtain ⟨hmode, hall⟩ := unquoted_spelled (s := start) rfl cs
    have htext : (words (cs.flatMap plainForm)).flatMap (·.text) = cs.filter survives := by
      unfold words
      rw [flatMap_text_finish hmode, hall]
      rfl
    rw [List.flatMap_def, h, List.flatten_singleton] at htext
    refine ⟨fun he => ?_, List.filter_eq_self.mp htext.symm⟩
    rw [he] at h
    cases h
  · intro h
    exact rests_start.map_text_finish (spells_unquoted rfl h.1 h.2)

/-! ## 5. Escaped values -/

theorem toList_escapeBash_single (v : String) :
    (escapeBash v .single).toList = v.toList.flatMap singleForm :=
  String.toList_ofList

theorem toList_escapeBash_double (v : String) :
    (escapeBash v .double).toList = v.toList.flatMap doubleForm :=
  String.toList_ofList

theorem toList_escapeBash_none (v : String) :
    (escapeBash v .none).toList = v.toList.flatMap plainForm :=
  String.toList_ofList

theorem wordTexts_eq_map_text (line : String) (cursor : Nat) :
    wordTexts line cursor = ((words line.toList).map (·.text)).map String.ofList := by
  rw [wordTexts_eq, List.map_map]
  rfl

/-- One word is read with a certain text. -/
theorem wordTexts_eq_singleton_iff {line v : String} {cursor : Nat} :
    wordTexts line cursor = [v] ↔ (words line.toList).map (·.text) = [v.toList] := by
  rw [wordTexts_eq_map_text]
  constructor
  · intro h
    obtain ⟨t, ht, rfl⟩ := List.map_eq_singleton_iff.mp h
    rw [ht, String.toList_ofList]
  · intro h
    rw [h, List.map_singleton, String.ofList_toList]

/-- **Which values are read back unchanged from what Bash escapes for them**: between single quotes
    all of them; between double quotes those without an exclamation mark; outside quotes those that
    are not empty and have no line break and no blank but space and tab. -/
theorem escapeBash_read_back (v : String) (cursor : Nat) :
    wordTexts ("'" ++ escapeBash v .single ++ "'") cursor = [v]
      ∧ (wordTexts ("\"" ++ escapeBash v .double ++ "\"") cursor = [v] ↔ '!' ∉ v.toList)
      ∧ (wordTexts (escapeBash v .none) cursor = [v] ↔
        v ≠ "" ∧ ∀ c ∈ v.toList, c ≠ '\n' ∧ (isBlank c = true → c = ' ' ∨ c = '\t')) := by
  refine ⟨?_, ?_, ?_⟩
  · have hline : ("'" ++ escapeBash v .single ++ "'").toList =
        '\'' :: v.toList.flatMap singleForm ++ ['\''] := by
      rw [String.toList_append, String.toList_append, toList_escapeBash_single]
      rfl
    rw [wordTexts_eq_singleton_iff, hline]
    exact words_single_quoted v.toList
  · have hline : ("\"" ++ escapeBash v .double ++ "\"").toList =
        '"' :: v.toList.flatMap doubleForm ++ ['"'] := by
      rw [String.toList_append, String.toList_append, toList_escapeBash_double]
      rfl
    rw [wordTexts_eq_singleton_iff, hline, words_double_quoted, List.singleton_inj]
    exact flatMap_doubleRead_eq_iff
  · rw [wordTexts_eq_singleton_iff, toList_escapeBash_none, words_unquoted_iff]
    simp only [survives_iff]
    rw [ne_eq, String.toList_eq_nil_iff]

/-- Between double quotes an exclamation mark comes back with its backslash. -/
example : wordTexts ("\"" ++ escapeBash "wow!" .double ++ "\"") 0 = ["wow\\!"] := by decide

end TabCompletion.Shell
