import TabCompletion.Proofs.Line.UnderCursor

/-!
# How a line is laid out

The words of a line and the gaps between them make up the whole line. A word has all the characters
from its first to its last one, and a gap has nothing but blanks and continued line breaks, so that
no character is lost.

* `Laid`: characters laid out as words and gaps;
* `Scan.Follows`: how far the layout has got when a scan stands in the middle of a line;
* `Laid.skipped`: what that means for a character that belongs to no word;
* `words_laid`: the words of every line lay it out.
-/

namespace TabCompletion.Line

open Text

/-! ## 1. Words and gaps -/

/-- The characters are words and gaps. The words come with the last one first. -/
inductive Laid : List Char → List Word → Prop
  | start : Laid [] []
  | blank {cs : List Char} {ws : List Word} {c : Char} (h : Laid cs ws) (hc : isBlank c = true) :
      Laid (cs ++ [c]) ws
  | continuation {cs : List Char} {ws : List Word} (h : Laid cs ws) : Laid (cs ++ ['\\', '\n']) ws
  | word {cs source : List Char} {ws : List Word} {w : Word} (h : Laid cs ws) (hne : source ≠ [])
      (hstart : w.start = (String.ofList cs).utf8ByteSize)
      (hstop : w.stop = (String.ofList (cs ++ source)).utf8ByteSize) : Laid (cs ++ source) (w :: ws)

/-- The place lies in front of a character or at the end. -/
def OnBoundary (cs : List Char) (n : Nat) : Prop :=
  ∃ before behind, cs = before ++ behind ∧ n = (String.ofList before).utf8ByteSize

/-- A character that belongs to no word: a blank, or a backslash in front of a line break. -/
def Skipped (c : Char) (behind : List Char) : Prop :=
  isBlank c = true ∨ c = '\\' ∧ behind.head? = some '\n'

section Layout

variable {cs ds before behind : List Char} {ws : List Word} {c : Char} {n : Nat}

theorem OnBoundary.append (h : OnBoundary cs n) (ds : List Char) : OnBoundary (cs ++ ds) n := by
  obtain ⟨before, behind, rfl, hn⟩ := h
  exact ⟨before, behind ++ ds, List.append_assoc _ _ _, hn⟩

theorem Skipped.append (h : Skipped c behind) (ds : List Char) : Skipped c (behind ++ ds) :=
  h.imp_right fun ⟨hc, hb⟩ => ⟨hc, by rw [List.head?_append, hb]; rfl⟩

/-- A word that is laid out begins and ends at a character. -/
theorem Laid.onBoundary (h : Laid cs ws) :
    ∀ w ∈ ws, OnBoundary cs w.start ∧ OnBoundary cs w.stop := by
  induction h with
  | start => exact fun _ hw => nomatch hw
  | blank _ _ ih => exact fun w hw => ⟨(ih w hw).1.append _, (ih w hw).2.append _⟩
  | continuation _ ih => exact fun w hw => ⟨(ih w hw).1.append _, (ih w hw).2.append _⟩
  | @word cs source _ w _ _ hstart hstop ih =>
    refine List.forall_mem_cons.mpr ⟨⟨⟨cs, source, rfl, hstart⟩, ⟨cs ++ source, [], ?_, hstop⟩⟩,
      fun u hu => ⟨(ih u hu).1.append _, (ih u hu).2.append _⟩⟩
    exact (List.append_nil _).symm

/-- A character of two texts, one behind the other, is a character of one of them. -/
theorem append_eq_append_cons (h : cs ++ ds = before ++ c :: behind) :
    (∃ rest, cs = before ++ c :: rest ∧ behind = rest ++ ds)
      ∨ ∃ rest, before = cs ++ rest ∧ ds = rest ++ c :: behind := by
  rcases List.append_eq_append_iff.mp h with ⟨rest, hb, hd⟩ | ⟨rest, hcs, hrest⟩
  · exact .inr ⟨rest, hb, hd⟩
  · cases rest with
    | nil => exact .inr ⟨[], by simpa using hcs.symm, by simpa using hrest.symm⟩
    | cons d rest =>
      obtain ⟨rfl, hbehind⟩ := List.cons.inj hrest
      exact .inl ⟨rest, hcs, hbehind⟩

/-- **No character is lost**: a character that lies on the bytes of no word is skipped. -/
theorem Laid.skipped (h : Laid cs ws) (hcs : cs = before ++ c :: behind)
    (hno : ∀ w ∈ ws, (String.ofList before).utf8ByteSize < w.start
      ∨ w.stop ≤ (String.ofList before).utf8ByteSize) : Skipped c behind := by
  induction h generalizing behind with
  | start => simp at hcs
  | blank _ hblank ih =>
    rcases append_eq_append_cons hcs with ⟨rest, hfirst, rfl⟩ | ⟨rest, -, hlast⟩
    · exact (ih hfirst hno).append _
    · have hc : c ∈ rest ++ c :: behind := by simp
      rw [← hlast] at hc
      exact .inl (List.mem_singleton.mp hc ▸ hblank)
  | continuation _ ih =>
    rcases append_eq_append_cons hcs with ⟨rest, hfirst, rfl⟩ | ⟨rest, -, hlast⟩
    · exact (ih hfirst hno).append _
    · cases rest with
      | nil =>
        obtain ⟨rfl, rfl⟩ := List.cons.inj hlast
        exact .inr ⟨rfl, rfl⟩
      | cons d rest =>
        -- the line break itself is a blank
        have hc : c ∈ rest ++ c :: behind := by simp
        have hbreak : ['\n'] = rest ++ c :: behind := (List.cons.inj hlast).2
        rw [← hbreak] at hc
        exact .inl (List.mem_singleton.mp hc ▸ rfl)
  | @word cs source _ w _ _ hstart hstop ih =>
    obtain ⟨hw, hws⟩ := List.forall_mem_cons.mp hno
    rcases append_eq_append_cons hcs with ⟨rest, hfirst, rfl⟩ | ⟨rest, rfl, rfl⟩
    · exact (ih hfirst hws).append _
    · -- the word has all bytes from its start on
      have hpos := c.utf8Size_pos
      rw [hstart, hstop] at hw
      simp only [utf8ByteSize_ofList_append, utf8ByteSize_ofList_cons] at hw
      omega

end Layout

/-! ## 2. The layout while a line is read -/

namespace Scan

variable {s t : Scan} {c : Char} {cs source : List Char}

/-- The scan has laid out the characters `cs`, and those of `source` behind them belong to the word
    in progress. Without such a word at most a backslash waits for the character behind it. -/
structure Follows (s : Scan) (cs source : List Char) : Prop where
  laid : Laid cs s.done
  offset : s.offset = (String.ofList (cs ++ source)).utf8ByteSize
  draft : ∀ d, s.draft = some d → d.start = (String.ofList cs).utf8ByteSize ∧ source ≠ []
  waiting : s.draft = none → source = if s.mode = .plainEscape then ['\\'] else []

theorem follows_start : Follows start [] [] :=
  ⟨.start, rfl, fun _ h => (nomatch h), fun _ => rfl⟩

/-- With no word in progress, what is not laid out is the backslash that waits. -/
theorem Follows.of_none (hl : Laid cs s.done)
    (ho : s.offset = (String.ofList (cs ++ source)).utf8ByteSize) (hd : s.draft = none)
    (hw : source = if s.mode = .plainEscape then ['\\'] else []) : Follows s cs source where
  laid := hl
  offset := ho
  draft d hs := by rw [hd] at hs; cases hs
  waiting _ := hw

theorem Follows.source_eq_nil (h : Follows s cs source) (hd : s.draft = none)
    (hm : s.mode ≠ .plainEscape) : source = [] := by
  rw [h.waiting hd, if_neg hm]

theorem Follows.source_eq_backslash (h : Follows s cs source) (hd : s.draft = none)
    (hm : s.mode = .plainEscape) : source = ['\\'] := by
  rw [h.waiting hd, if_pos hm]

/-- A word that is begun now starts behind what is laid out. -/
theorem Follows.frontier_eq (h : Follows s cs source) (hd : s.draft = none) :
    s.frontier = (String.ofList cs).utf8ByteSize := by
  have hoffset := h.offset
  unfold frontier
  split
  · rename_i hm
    rw [h.source_eq_backslash hd hm, utf8ByteSize_ofList_append] at hoffset
    rw [hoffset]
    rfl
  · rename_i hm
    rw [h.source_eq_nil hd hm, List.append_nil] at hoffset
    exact hoffset

/-- So does a word that is read further. -/
theorem Follows.start_eq (h : Follows s cs source) (ha : Advance s t) {d : Draft}
    (hd : t.draft = some d) : d.start = (String.ofList cs).utf8ByteSize := by
  cases ha with
  | keep hd' => exact (h.draft d (hd'.symm.trans hd)).1
  | grow hd' hg =>
    cases hd'.symm.trans hd
    rw [hg.start]
    exact draftFrom_cases (P := fun d => d.start = (String.ofList cs).utf8ByteSize)
      h.frontier_eq fun d hd => (h.draft d hd).1
  | close _ hd' => rw [hd'] at hd; cases hd

/-- A word is finished only where there was one in progress and there is none any more. -/
theorem Advance.done_eq (ha : Advance s t) (h : s.draft = none ∨ t.draft ≠ none) :
    t.done = s.done := by
  cases ha with
  | keep _ hw => exact hw
  | grow _ _ _ hw => exact hw
  | close hs hd =>
    rcases h with h | h
    · rw [hs] at h
      cases h
    · exact absurd hd h

/-! ## 3. One more character -/

/-- **When no word is in progress behind a character**: it is a blank, or a backslash that waits, or
    the line break behind one. -/
theorem step_draft_none (ht : Tidy s) (h : (s.step c).draft = none) :
    (isBlank c = true ∧ s.mode = .plain ∧ (s.step c).mode = .plain)
      ∨ (s.draft = none ∧ s.mode = .plain ∧ c = '\\' ∧ (s.step c).mode = .plainEscape)
      ∨ (s.draft = none ∧ s.mode = .plainEscape ∧ c = '\n' ∧ (s.step c).mode = .plain) := by
  have hquoted := ht.quoted
  obtain ⟨offset, mode, draft, done⟩ := s
  cases mode with
  | plain =>
    by_cases hb : isBlank c = true
    · refine .inl ⟨hb, rfl, ?_⟩
      unfold step stepPlain
      dsimp only
      rw [if_pos hb]
      split <;> rfl
    · unfold step stepPlain at h ⊢
      dsimp only at h ⊢
      rw [if_neg hb] at h ⊢
      split at h
      · rename_i hc
        exact .inr (.inl ⟨h, rfl, hc, by rw [if_pos hc]⟩)
      · split at h
        · cases h
        · split at h <;> cases h
  | plainEscape =>
    unfold step stepPlainEscape at h ⊢
    dsimp only at h ⊢
    split at h
    · rename_i hc
      exact .inr (.inr ⟨Option.map_eq_none_iff.mp h, rfl, hc, by rw [if_pos hc]⟩)
    · cases h
  | single =>
    unfold step stepSingle at h
    dsimp only at h
    split at h <;> cases h
  | double =>
    unfold step stepDouble at h
    dsimp only at h
    split at h
    · cases h
    · split at h <;> cases h
  | doubleEscape =>
    obtain ⟨d, rfl⟩ := Option.isSome_iff_exists.mp (hquoted (show Quote.double ≠ .none by decide))
    unfold step stepDoubleEscape at h
    dsimp only at h
    split at h
    · cases h
    · split at h <;> cases h

theorem Follows.offset_step (h : Follows s cs source) (c : Char) :
    (s.step c).offset = (String.ofList (cs ++ source ++ [c])).utf8ByteSize := by
  rw [(s.step_reads c).offset, h.offset, utf8ByteSize_ofList_append (cs ++ source),
    utf8ByteSize_ofList_cons]
  rfl

/-- A character behind which a word is in progress belongs to that word. -/
theorem Follows.step_word (h : Follows s cs source) (hd : (s.step c).draft ≠ none) :
    Follows (s.step c) cs (source ++ [c]) := by
  have ha := (s.step_reads c).advance
  refine ⟨?_, ?_, fun d hs => ⟨h.start_eq ha hs, by simp⟩, fun hn => absurd hn hd⟩
  · rw [ha.done_eq (.inr hd)]
    exact h.laid
  · rw [← List.append_assoc]
    exact h.offset_step c

/-- A blank is a gap, and the word in front of it is laid out. -/
theorem Follows.step_blank (h : Follows s cs source) (hb : isBlank c = true)
    (hm : s.mode = .plain) (hm' : (s.step c).mode = .plain) (hd : (s.step c).draft = none) :
    Follows (s.step c) (cs ++ source ++ [c]) [] := by
  have ha := (s.step_reads c).advance
  refine .of_none ?_ (by rw [List.append_nil]; exact h.offset_step c) hd
    (by rw [hm', if_neg (by decide)])
  cases hs : s.draft with
  | none =>
    rw [ha.done_eq (.inl hs), h.source_eq_nil hs (by rw [hm]; decide), List.append_nil]
    exact h.laid.blank hb
  | some d =>
    cases ha with
    | keep hd' => exact nomatch hs.symm.trans (hd'.symm.trans hd)
    | grow hd' => rw [hd] at hd'; cases hd'
    | close hs' _ hw =>
      obtain ⟨hstart, hne⟩ := h.draft _ hs'
      rw [hw]
      exact (h.laid.word hne hstart h.offset).blank hb

/-- **Every character carries the layout on.** -/
theorem Follows.step (h : Follows s cs source) (ht : Tidy s) (c : Char) :
    ∃ cs' source', cs' ++ source' = cs ++ source ++ [c] ∧ Follows (s.step c) cs' source' := by
  by_cases hd : (s.step c).draft = none
  · have hkeep : s.draft = none → (s.step c).done = s.done := fun hs =>
      (s.step_reads c).advance.done_eq (.inl hs)
    rcases step_draft_none ht hd with ⟨hb, hm, hm'⟩ | ⟨hs, hm, rfl, hm'⟩ | ⟨hs, hm, rfl, hm'⟩
    · exact ⟨_, [], List.append_nil _, h.step_blank hb hm hm' hd⟩
    · obtain rfl := h.source_eq_nil hs (by rw [hm]; decide)
      have hoffset := h.offset_step '\\'
      rw [List.append_nil] at hoffset
      exact ⟨cs, ['\\'], by rw [List.append_nil],
        .of_none (hkeep hs ▸ h.laid) hoffset hd (by rw [hm', if_pos rfl])⟩
    · obtain rfl := h.source_eq_backslash hs hm
      have hpair : cs ++ ['\\'] ++ ['\n'] = cs ++ ['\\', '\n'] := by simp
      refine ⟨cs ++ ['\\', '\n'], [], by rw [List.append_nil, hpair],
        .of_none (hkeep hs ▸ h.laid.continuation) ?_ hd (by rw [hm', if_neg (by decide)])⟩
      rw [List.append_nil, ← hpair]
      exact h.offset_step '\n'
  · exact ⟨cs, source ++ [c], (List.append_assoc _ _ _).symm, h.step_word hd⟩

/-- **After every beginning of a line its characters are laid out.** -/
theorem follows_run (line : List Char) : ∃ cs source, cs ++ source = line
    ∧ Follows (line.foldl Scan.step start) cs source := by
  have hrun : ∀ (line : List Char) (s : Scan) (cs source : List Char), Tidy s →
      Follows s cs source → ∃ cs' source', cs' ++ source' = cs ++ source ++ line
        ∧ Follows (line.foldl Scan.step s) cs' source' := by
    intro line
    induction line with
    | nil => exact fun s cs source _ h => ⟨cs, source, (List.append_nil _).symm, h⟩
    | cons c line ih =>
      intro s cs source ht h
      obtain ⟨cs', source', he, h'⟩ := h.step ht c
      obtain ⟨cs'', source'', he', h''⟩ := ih _ cs' source' (ht.read c) h'
      refine ⟨cs'', source'', ?_, h''⟩
      rw [he', he, List.append_assoc, List.singleton_append]
  exact hrun line start [] [] tidy_start follows_start

/-! ## 4. The end of the line -/

/-- At the end of the line no word is in progress iff there was none and no backslash waits. -/
theorem settle_draft_eq_none_iff :
    s.settle.draft = none ↔ s.draft = none ∧ s.mode ≠ .plainEscape := by
  obtain ⟨offset, mode, draft, done⟩ := s
  cases mode <;> simp [settle]

/-- **The end of the line completes the layout.** -/
theorem Follows.finish (h : Follows s cs source) (ht : Tidy s) :
    Laid (cs ++ source) s.finish.reverse := by
  unfold Scan.finish
  dsimp only
  cases hd : s.settle.draft with
  | none =>
    obtain ⟨hs, hm⟩ := settle_draft_eq_none_iff.mp hd
    dsimp only
    rw [List.reverse_reverse, settle_done, h.source_eq_nil hs hm, List.append_nil]
    exact h.laid
  | some d =>
    have hne : source ≠ [] := by
      cases hs : s.draft with
      | some d₀ => exact (h.draft d₀ hs).2
      | none =>
        have hm : s.mode = .plainEscape := by
          by_contra hm
          rw [settle_draft_eq_none_iff.mpr ⟨hs, hm⟩] at hd
          cases hd
        rw [h.source_eq_backslash hs hm]
        exact List.cons_ne_nil _ _
    have hstart : d.start = (String.ofList cs).utf8ByteSize := h.start_eq ht.settle_advance hd
    dsimp only
    rw [List.reverse_reverse, settle_done, settle_offset]
    exact h.laid.word hne hstart h.offset

end Scan

/-- **The words of a line lay it out.** -/
theorem words_laid (line : List Char) : Laid line (words line).reverse := by
  obtain ⟨cs, source, rfl, h⟩ := Scan.follows_run line
  exact h.finish (Scan.tidy_run _)

end TabCompletion.Line
