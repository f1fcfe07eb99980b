import TabCompletion.Proofs.Line.Layout

/-!
# The tokens of a line

One token of a line is active, and what the cursor sees of it is a beginning of its text. The tokens
that are words stand in the line in order, apart from each other, and nothing but blanks and
continued line breaks lies between them.

* `words_recall`: what is noted of a word is a beginning of its text;
* `Orderly`: tokens as they should stand in a line;
* `tokens_orderly`: the law.
-/

namespace TabCompletion.Line

/-! ## 1. What a cursor sees of a word -/

/-- Whatever has been noted of the word in progress is a beginning of its letters. -/
def Draft.Recalls (d : Draft) : Prop := ∀ st ∈ d.stops, st.before <:+ d.letters

/-- Whatever has been noted of the word is a beginning of its text. -/
def Word.Recalls (w : Word) : Prop := ∀ st ∈ w.stops, st.before.reverse <+: w.text

namespace Draft.Recalls

variable {d : Draft}

theorem begin (offset : Nat) : (Draft.begin offset).Recalls := nofun

theorem mark (h : d.Recalls) (offset : Nat) (q : Quote) : (d.mark offset q).Recalls :=
  List.forall_mem_cons.mpr ⟨List.suffix_refl _, h⟩

theorem push (h : d.Recalls) (c : Char) : (d.push c).Recalls :=
  fun st hst => (h st hst).trans (List.suffix_cons c d.letters)

theorem finish (h : d.Recalls) (stop : Nat) (q : Quote) : (d.finish stop q).Recalls :=
  fun st hst => List.reverse_prefix.mpr (h st (List.mem_reverse.mp hst))

end Draft.Recalls

namespace Scan

variable {s : Scan}

/-- Whatever the scan has noted of a word is a beginning of it. -/
structure Recalls (s : Scan) : Prop where
  words : ∀ w ∈ s.done, w.Recalls
  draft : ∀ d, s.draft = some d → d.Recalls

theorem recalls_start : Recalls start := ⟨nofun, nofun⟩

theorem Recalls.draftFrom (h : Recalls s) (offset : Nat) : (s.draftFrom offset).Recalls :=
  draftFrom_cases (fun _ => .begin offset) h.draft

/-- With the same words finished, only the word in progress matters. -/
theorem Recalls.of_draft (h : Recalls s) {d : Draft} (hd : d.Recalls) (offset : Nat) (m : Mode) :
    Recalls ⟨offset, m, some d, s.done⟩ :=
  ⟨h.words, fun _ he => Option.some.inj he ▸ hd⟩

/-- The word in progress may be finished anywhere. -/
theorem Recalls.closed (h : Recalls s) {d : Draft} (hd : s.draft = some d) (offset : Nat)
    (q : Quote) : ∀ w ∈ (d.mark offset q).finish offset q :: s.done, w.Recalls :=
  List.forall_mem_cons.mpr ⟨((h.draft d hd).mark offset q).finish offset q, h.words⟩

theorem Recalls.stepPlain (h : Recalls s) (c : Char) : Recalls (s.stepPlain c) := by
  unfold Scan.stepPlain
  dsimp only
  have hmark := (h.draftFrom s.offset).mark s.offset .none
  split
  · split
    · exact ⟨h.words, h.draft⟩
    · rename_i d hd
      exact ⟨h.closed hd _ _, nofun⟩
  · split
    · exact ⟨h.words, h.draft⟩
    · split
      · exact h.of_draft hmark _ _
      · split
        · exact h.of_draft hmark _ _
        · exact h.of_draft (hmark.push c) _ _

theorem Recalls.stepPlainEscape (h : Recalls s) (c : Char) : Recalls (s.stepPlainEscape c) := by
  unfold Scan.stepPlainEscape
  dsimp only
  split
  · refine ⟨h.words, fun d hd => ?_⟩
    obtain ⟨d₀, hd₀, rfl⟩ := Option.map_eq_some_iff.mp hd
    exact (h.draft d₀ hd₀).mark _ _
  · exact h.of_draft ((((h.draftFrom _).mark _ _).mark _ _).push c) _ _

theorem Recalls.stepSingle (h : Recalls s) (c : Char) : Recalls (s.stepSingle c) := by
  unfold Scan.stepSingle
  dsimp only
  have hmark := (h.draftFrom s.offset).mark s.offset .single
  split
  · exact h.of_draft hmark _ _
  · exact h.of_draft (hmark.push c) _ _

theorem Recalls.stepDouble (h : Recalls s) (c : Char) : Recalls (s.stepDouble c) := by
  unfold Scan.stepDouble
  dsimp only
  have hmark := (h.draftFrom s.offset).mark s.offset .double
  split
  · exact h.of_draft hmark _ _
  · split
    · exact h.of_draft hmark _ _
    · exact h.of_draft (hmark.push c) _ _

theorem Recalls.stepDoubleEscape (h : Recalls s) (c : Char) : Recalls (s.stepDoubleEscape c) := by
  unfold Scan.stepDoubleEscape
  dsimp only
  have hfrom := h.draftFrom s.offset
  split
  · exact ⟨h.words, h.draft⟩
  · split
    · exact h.of_draft ((hfrom.mark _ _).push c) _ _
    · exact h.of_draft (((hfrom.push _).mark _ _).push c) _ _

theorem Recalls.step (h : Recalls s) (c : Char) : Recalls (s.step c) := by
  unfold Scan.step
  split
  · exact h.stepPlain c
  · exact h.stepPlainEscape c
  · exact h.stepSingle c
  · exact h.stepDouble c
  · exact h.stepDoubleEscape c

theorem Recalls.run (h : Recalls s) (cs : List Char) : Recalls (cs.foldl Scan.step s) := by
  induction cs generalizing s with
  | nil => exact h
  | cons c cs ih => exact ih (h.step c)

theorem Recalls.settle (h : Recalls s) : Recalls s.settle := by
  unfold Scan.settle
  split
  · exact h.of_draft (((h.draftFrom _).mark _ _).push _) _ _
  · refine ⟨h.words, fun d hd => ?_⟩
    obtain ⟨d₀, hd₀, rfl⟩ := Option.map_eq_some_iff.mp hd
    exact (h.draft d₀ hd₀).push _
  · exact h

theorem Recalls.finish (h : Recalls s) : ∀ w ∈ s.finish, w.Recalls := by
  unfold Scan.finish
  dsimp only
  split
  · exact fun w hw => h.settle.words w (List.mem_reverse.mp hw)
  · rename_i d hd
    exact fun w hw => h.settle.closed hd _ _ w (List.mem_reverse.mp hw)

end Scan

/-- **Whatever is noted of a word of a line is a beginning of its text.** -/
theorem words_recall {line : List Char} {w : Word} (hw : w ∈ words line) : w.Recalls :=
  (Scan.recalls_start.run line).finish w hw

/-! ## 2. The tokens -/

/-- The text of a token and its span. -/
def Token.content (t : Token) : String × Nat × Nat := (t.text, t.start, t.stop)

/-- The tokens that are words of the line, without the empty one of a cursor that stands in none. -/
def realTokens (line : String) (cursor : Nat) : List Token :=
  (tokens line cursor).filter (· != .gap (clampCursor line cursor))

/-- Tokens as they should stand in a line: each has bytes of its own, from one character to another;
    each ends before the next one starts; and a character on the bytes of none of them is skipped.
    -/
structure Orderly (line : List Char) (ts : List Token) : Prop where
  nonempty : ∀ t ∈ ts, t.start < t.stop
  onBoundary : ∀ t ∈ ts, OnBoundary line t.start ∧ OnBoundary line t.stop
  order : ts.Pairwise fun t u => t.stop < u.start
  skipped : ∀ before c behind, line = before ++ c :: behind →
    (∀ t ∈ ts, (String.ofList before).utf8ByteSize < t.start
      ∨ t.stop ≤ (String.ofList before).utf8ByteSize) → Skipped c behind

section Tokens

variable {line : List Char} {n : Nat}

theorem Word.typed_prefix_text {w : Word} (h : w.Recalls) (n : Nat) :
    (w.token n).typed.toList <+: (w.token n).text.toList := by
  unfold Word.token
  split
  · rename_i st hst
    rw [String.toList_ofList, String.toList_ofList]
    exact h st (List.mem_of_find?_eq_some hst)
  · exact List.nil_prefix

/-- What the cursor sees of a token is a beginning of its text. -/
theorem typed_prefix_text {t : Token} (ht : t ∈ tokensAt line n) :
    t.typed.toList <+: t.text.toList := by
  by_cases hg : t = .gap n
  · rw [hg]
    exact List.prefix_refl _
  · have hreal : t ∈ (tokensAt line n).filter (· != .gap n) :=
      List.mem_filter.mpr ⟨ht, bne_iff_ne.mpr hg⟩
    rw [filter_tokensAt] at hreal
    obtain ⟨w, hw, rfl⟩ := List.mem_map.mp hreal
    exact Word.typed_prefix_text (words_recall hw) n

theorem orderly_map_token (line : List Char) (n : Nat) :
    Orderly line ((words line).map (·.token n)) where
  nonempty := List.forall_mem_map.mpr fun w hw => by
    rw [Word.token_start, Word.token_stop]
    exact (words_sound hw).nonempty
  onBoundary := List.forall_mem_map.mpr fun w hw => by
    rw [Word.token_start, Word.token_stop]
    exact (words_laid line).onBoundary w (List.mem_reverse.mpr hw)
  order := pairwise_map_token (words_pairwise line)
  skipped before c behind hcs hno := by
    refine (words_laid line).skipped hcs fun w hw => ?_
    have hbytes := hno _ (List.mem_map_of_mem (List.mem_reverse.mp hw))
    rw [Word.token_start, Word.token_stop] at hbytes
    exact hbytes

end Tokens

theorem realTokens_eq (line : String) (cursor : Nat) :
    realTokens line cursor = (words line.toList).map (·.token (clampCursor line cursor)) :=
  filter_tokensAt _ _

/-- Text and span of the real tokens are those of the words. -/
theorem map_content_realTokens (line : String) (cursor : Nat) :
    (realTokens line cursor).map (·.content)
      = (words line.toList).map fun w => (String.ofList w.text, w.start, w.stop) := by
  rw [realTokens_eq, List.map_map]
  refine List.map_congr_left fun w _ => ?_
  change (Word.token w _).content = _
  rw [Token.content, Word.token_text, Word.token_start, Word.token_stop]

/-- **The tokens of a line**: exactly one of them is active, and what the cursor sees of it is a
    beginning of its text; those that are words stand in the line as they should, and their texts
    and spans do not depend on the cursor. -/
theorem tokens_orderly (line : String) (cursor : Nat) :
    (∃ before t after, tokens line cursor = before ++ t :: after ∧ t.active = true
        ∧ (∀ u ∈ before ++ after, u.active = false) ∧ t.typed.toList <+: t.text.toList)
      ∧ Orderly line.toList (realTokens line cursor)
      ∧ ∀ other, (realTokens line other).map (·.content)
          = (realTokens line cursor).map (·.content) := by
  refine ⟨?_, ?_, fun other => ?_⟩
  · obtain ⟨before, t, after, htok, hactive, hidle⟩ :=
      exists_active line.toList (clampCursor line cursor)
    have ht : t ∈ tokensAt line.toList (clampCursor line cursor) := by
      rw [htok]
      exact List.mem_append_right _ List.mem_cons_self
    exact ⟨before, t, after, htok, hactive, hidle, typed_prefix_text ht⟩
  · rw [realTokens_eq]
    exact orderly_map_token _ _
  · rw [map_content_realTokens, map_content_realTokens]

end TabCompletion.Line
