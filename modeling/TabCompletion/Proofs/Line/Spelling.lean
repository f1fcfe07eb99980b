import Mathlib.Data.List.Forall2
import TabCompletion.Line.Word

/-!
# Which letters are read

Of the words of a line only the letters count here, not where they stand. Quotes and escapes add to
the word in progress without being letters of it.

* `Scan.Spells`: a scan goes on with the word in progress and adds certain letters to it;
* `spells_*`: what a quote, a letter and an escaped character add, in every mode;
* `Spells.flatMap`: characters that are written one by one are read one by one;
* `Scan.spelled`: all letters read so far, whatever word they belong to;
* `map_text_words_intercalate`: words that are written with a blank between neighbours are read one
  by one.
-/

namespace TabCompletion.Line

open Text

@[simp] theorem Draft.letters_mark (d : Draft) (offset : Nat) (q : Quote) :
    (d.mark offset q).letters = d.letters := rfl

@[simp] theorem Draft.letters_push (d : Draft) (c : Char) :
    (d.push c).letters = c :: d.letters := rfl

namespace Scan

variable {s t u : Scan} {m m' : Mode} {as bs cs : List Char} {c : Char}

/-! ## 1. Letters of the word in progress -/

/-- The letters of the word in progress, the last one first; none if there is no such word. -/
def letters (s : Scan) : List Char := (s.draft.map (·.letters)).getD []

@[simp] theorem letters_draftFrom (s : Scan) (n : Nat) : (s.draftFrom n).letters = s.letters := by
  unfold draftFrom letters
  cases s.draft <;> rfl

@[simp] theorem letters_some (offset : Nat) (m : Mode) (d : Draft) (done : List Word) :
    letters ⟨offset, m, some d, done⟩ = d.letters := rfl

/-- From `s` to `t` the letters `cs` have been added to the word in progress, which has been begun
    if there was none, and the next character is read in mode `m`. -/
structure Spells (s : Scan) (m : Mode) (cs : List Char) (t : Scan) : Prop where
  mode : t.mode = m
  done : t.done = s.done
  begun : t.draft.isSome = true
  letters : t.letters = cs.reverse ++ s.letters

namespace Spells

theorem refl (hm : s.mode = m) (hs : s.draft.isSome = true) : Spells s m [] s :=
  ⟨hm, rfl, hs, rfl⟩

theorem trans (h : Spells s m as t) (h' : Spells t m' bs u) : Spells s m' (as ++ bs) u where
  mode := h'.mode
  done := h'.done.trans h.done
  begun := h'.begun
  letters := by rw [h'.letters, h.letters, List.reverse_append, List.append_assoc]

/-- The word in progress is read further. -/
theorem of_draft {d : Draft} (hm : t.mode = m) (hw : t.done = s.done) (hd : t.draft = some d)
    (hl : d.letters = cs.reverse ++ s.letters) : Spells s m cs t := by
  refine ⟨hm, hw, by rw [hd]; rfl, ?_⟩
  unfold Scan.letters at hl ⊢
  rw [hd]
  exact hl

/-- Where each character is written as `f` says and read as `g` says, so is a whole text. -/
theorem flatMap {f g : Char → List Char}
    (hstep : ∀ c ∈ cs, ∀ s : Scan, s.mode = m → Spells s m (g c) ((f c).foldl step s))
    (hm : s.mode = m) (hs : s.draft.isSome = true) :
    Spells s m (cs.flatMap g) ((cs.flatMap f).foldl step s) := by
  induction cs generalizing s with
  | nil => exact refl hm hs
  | cons c cs ih =>
    obtain ⟨hc, hcs⟩ := List.forall_mem_cons.mp hstep
    have hfirst := hc s hm
    rw [List.flatMap_cons, List.flatMap_cons, List.foldl_append]
    exact hfirst.trans (ih hcs hfirst.mode hfirst.begun)

end Spells

/-! ## 2. Single characters -/

/-- Outside quotes a character without a meaning of its own is a letter. -/
theorem spells_plain (hm : s.mode = .plain) (hb : isBlank c = false) (hs : c ≠ '\\')
    (h1 : c ≠ '\'') (h2 : c ≠ '"') : Spells s .plain [c] (s.step c) := by
  obtain ⟨offset, mode, draft, done⟩ := s
  subst hm
  unfold step stepPlain
  dsimp only
  rw [if_neg (by rw [hb]; decide), if_neg hs, if_neg h1, if_neg h2]
  exact .of_draft rfl rfl rfl (by simp)

/-- A backslash outside quotes makes a letter of every character but the line break. -/
theorem spells_plain_escaped (hm : s.mode = .plain) (hc : c ≠ '\n') :
    Spells s .plain [c] ((s.step '\\').step c) := by
  obtain ⟨offset, mode, draft, done⟩ := s
  subst hm
  have hstep : step ⟨offset, .plain, draft, done⟩ '\\' =
      ⟨offset + 1, .plainEscape, draft, done⟩ := rfl
  rw [hstep]
  unfold step stepPlainEscape
  dsimp only
  rw [if_neg hc]
  refine .of_draft rfl rfl rfl ?_
  rw [Draft.letters_push, Draft.letters_mark, Draft.letters_mark, letters_draftFrom]
  rfl

theorem spells_open_single (hm : s.mode = .plain) : Spells s .single [] (s.step '\'') := by
  obtain ⟨offset, mode, draft, done⟩ := s
  subst hm
  exact .of_draft rfl rfl rfl (by simp)

theorem spells_open_double (hm : s.mode = .plain) : Spells s .double [] (s.step '"') := by
  obtain ⟨offset, mode, draft, done⟩ := s
  subst hm
  exact .of_draft rfl rfl rfl (by simp)

/-- Between single quotes every character but the quote is a letter. -/
theorem spells_single (hm : s.mode = .single) (hc : c ≠ '\'') :
    Spells s .single [c] (s.step c) := by
  obtain ⟨offset, mode, draft, done⟩ := s
  subst hm
  unfold step stepSingle
  dsimp only
  rw [if_neg hc]
  exact .of_draft rfl rfl rfl (by simp)

theorem spells_close_single (hm : s.mode = .single) : Spells s .plain [] (s.step '\'') := by
  obtain ⟨offset, mode, draft, done⟩ := s
  subst hm
  exact .of_draft rfl rfl rfl (by simp)

/-- Between double quotes a character without a meaning of its own is a letter. -/
theorem spells_double (hm : s.mode = .double) (hq : c ≠ '"') (hs : c ≠ '\\') :
    Spells s .double [c] (s.step c) := by
  obtain ⟨offset, mode, draft, done⟩ := s
  subst hm
  unfold step stepDouble
  dsimp only
  rw [if_neg hq, if_neg hs]
  exact .of_draft rfl rfl rfl (by simp)

/-- Between double quotes a backslash in front of a letter that needs no escape is a letter too. -/
theorem spells_double_escaped (hm : s.mode = .double) (hc : c ≠ '\n') :
    Spells s .double (if isDoubleEscapable c then [c] else ['\\', c]) ((s.step '\\').step c) := by
  obtain ⟨offset, mode, draft, done⟩ := s
  subst hm
  have hstep : step ⟨offset, .double, draft, done⟩ '\\' =
      ⟨offset + 1, .doubleEscape,
        some ((draftFrom ⟨offset, .double, draft, done⟩ offset).mark offset .double), done⟩ := rfl
  rw [hstep]
  unfold step stepDoubleEscape
  dsimp only
  rw [if_neg hc]
  split
  · exact .of_draft rfl rfl rfl (by simp)
  · exact .of_draft rfl rfl rfl (by simp)

theorem spells_close_double (hm : s.mode = .double) : Spells s .plain [] (s.step '"') := by
  obtain ⟨offset, mode, draft, done⟩ := s
  subst hm
  exact .of_draft rfl rfl rfl (by simp)

/-! ## 3. All letters -/

/-- The letters read so far, those of the finished words first. -/
def spelled (s : Scan) : List Char := s.done.reverse.flatMap (·.text) ++ s.letters.reverse

theorem Spells.spelled_eq (h : Spells s m cs t) : t.spelled = s.spelled ++ cs := by
  unfold spelled
  rw [h.done, h.letters, List.reverse_append, List.reverse_reverse, List.append_assoc]

/-- A blank outside quotes adds no letter. -/
theorem spelled_blank (hm : s.mode = .plain) (hb : isBlank c = true) :
    (s.step c).mode = .plain ∧ (s.step c).spelled = s.spelled := by
  obtain ⟨offset, mode, draft, done⟩ := s
  subst hm
  unfold step stepPlain
  dsimp only
  rw [if_pos hb]
  cases draft with
  | none => exact ⟨rfl, rfl⟩
  | some d => exact ⟨rfl, by simp [spelled, letters, Draft.finish]⟩

/-- Nor does a line break behind a backslash. -/
theorem spelled_continuation (hm : s.mode = .plain) :
    ((s.step '\\').step '\n').mode = .plain
      ∧ ((s.step '\\').step '\n').spelled = s.spelled := by
  obtain ⟨offset, mode, draft, done⟩ := s
  subst hm
  cases draft with
  | none => exact ⟨rfl, rfl⟩
  | some d => exact ⟨rfl, rfl⟩

/-! ## 4. The end of the line -/

theorem settle_of_plain (hm : s.mode = .plain) : s.settle = s := by
  unfold settle
  rw [hm]

/-- At the end of a line outside quotes the words have all letters read. -/
theorem flatMap_text_finish (hm : s.mode = .plain) : s.finish.flatMap (·.text) = s.spelled := by
  unfold finish spelled letters
  dsimp only
  rw [settle_of_plain hm]
  cases s.draft with
  | none => simp
  | some d => simp [Draft.finish]

/-! ## 5. Words with blanks between them -/

/-- No word is in progress, and the finished ones have these texts. -/
structure Rests (s : Scan) (texts : List (List Char)) : Prop where
  mode : s.mode = .plain
  idle : s.draft = none
  texts : s.done.reverse.map (·.text) = texts

variable {texts : List (List Char)}

theorem rests_start : Rests start [] := ⟨rfl, rfl, rfl⟩

/-- A word that begins where none is in progress has the letters that are added. -/
theorem Rests.letters_of_spells (h : Rests s texts) (hs : Spells s m cs t) :
    ∃ d, t.draft = some d ∧ d.letters = cs.reverse := by
  obtain ⟨d, hd⟩ := Option.isSome_iff_exists.mp hs.begun
  have hl := hs.letters
  unfold Scan.letters at hl
  rw [hd, h.idle] at hl
  exact ⟨d, hd, hl.trans (List.append_nil _)⟩

/-- A blank ends the word. -/
theorem Rests.blank (h : Rests s texts) (hs : Spells s .plain cs t) (hb : isBlank c = true) :
    Rests (t.step c) (texts ++ [cs]) := by
  obtain ⟨d, hd, hl⟩ := h.letters_of_spells hs
  have hdone := hs.done
  have hmode := hs.mode
  obtain ⟨offset, mode, draft, done⟩ := t
  subst hmode hd hdone
  unfold step stepPlain
  dsimp only
  rw [if_pos hb]
  exact ⟨rfl, rfl, by simp [Draft.finish, hl, ← h.texts]⟩

/-- So does the end of the line. -/
theorem Rests.map_text_finish (h : Rests s texts) (hs : Spells s .plain cs t) :
    t.finish.map (·.text) = texts ++ [cs] := by
  obtain ⟨d, hd, hl⟩ := h.letters_of_spells hs
  unfold finish
  dsimp only
  rw [settle_of_plain hs.mode, hd, hs.done]
  simp [Draft.finish, hl, ← h.texts]

/-- Outside quotes the characters are read as a word with these letters. -/
def Writes (form cs : List Char) : Prop :=
  ∀ s : Scan, s.mode = .plain → Spells s .plain cs (form.foldl step s)

/-- **Words that are written with a blank between neighbours are read one by one.** -/
theorem Rests.map_text_run {forms texts' : List (List Char)} (h : Rests s texts)
    (hw : List.Forall₂ Writes forms texts') (hb : isBlank c = true) :
    ((List.intercalate [c] forms).foldl step s).finish.map (·.text) = texts ++ texts' := by
  induction hw generalizing s texts with
  | nil =>
    have hend : s.finish = s.done.reverse := by
      unfold finish
      dsimp only
      rw [settle_of_plain h.mode, h.idle]
    rw [List.intercalate_nil, List.foldl_nil, hend, h.texts, List.append_nil]
  | @cons form cs forms texts' hform hforms ih =>
    have hfirst := hform s h.mode
    cases hforms with
    | nil =>
      rw [List.intercalate_singleton]
      exact h.map_text_finish hfirst
    | cons hform' hforms' =>
      have hrest := ih (h.blank hfirst hb)
      rw [List.append_assoc, List.singleton_append] at hrest
      rw [List.intercalate_cons_cons, List.foldl_append, List.foldl_append]
      exact hrest

end Scan

/-- The words that are written in a line with a blank between neighbours. -/
theorem map_text_words_intercalate {forms texts : List (List Char)} {c : Char}
    (h : List.Forall₂ Scan.Writes forms texts) (hb : isBlank c = true) :
    (words (List.intercalate [c] forms)).map (·.text) = texts :=
  Scan.rests_start.map_text_run h hb

end TabCompletion.Line
