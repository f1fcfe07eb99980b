import TabCompletion.Line.Word
import TabCompletion.Proofs.Text.Cuts

/-!
# What reading a character can do

A scan moves forward: no character changes what was noted about places further back. This module
says once what a character can do to the word in progress and to the finished words.

* `Scan.frontier`: the first place about which nothing has been noted yet;
* `Scan.Advance`: the words are left as they are, or the word in progress is read further or ended;
* `Scan.step_reads`: a character advances the scan, and what else it does;
* `Scan.Tidy`: everything noted so far lies before the frontier, and an open quote belongs to a
  word;
* `Scan.tidy_run`: that holds after every beginning of a line;
* `Scan.Tidy.settle_advance`: the end of the line, too, only advances the scan.
-/

namespace TabCompletion.Line

open Text

/-! ## 1. The word in progress -/

namespace Draft

variable (d : Draft) (offset : Nat) (quote : Quote)

theorem mark_stops : (d.mark offset quote).stops = ⟨offset, d.letters, quote⟩ :: d.stops := rfl

/-- `d'` is `d` read further from `n` up to `m`: only stops between these places are new. -/
structure Grows (n m : Nat) (d d' : Draft) : Prop where
  start : d'.start = d.start
  stops : ∃ new, d'.stops = new ++ d.stops ∧ ∀ st ∈ new, n ≤ st.offset ∧ st.offset < m

namespace Grows

variable {n m : Nat} {d d' : Draft}

theorem refl (n m : Nat) (d : Draft) : d.Grows n m d :=
  ⟨rfl, [], rfl, fun _ h => absurd h List.not_mem_nil⟩

theorem mark (h : d.Grows n m d') {offset : Nat} (quote : Quote) (hn : n ≤ offset)
    (hm : offset < m) : d.Grows n m (d'.mark offset quote) := by
  obtain ⟨hs, new, hst, hnew⟩ := h
  refine ⟨hs, ⟨offset, d'.letters, quote⟩ :: new, ?_, ?_⟩
  · rw [mark_stops, hst, List.cons_append]
  · exact List.forall_mem_cons.mpr ⟨⟨hn, hm⟩, hnew⟩

theorem push (h : d.Grows n m d') (c : Char) : d.Grows n m (d'.push c) :=
  ⟨h.start, h.stops⟩

end Grows

end Draft

namespace Scan

/-! ## 2. The frontier -/

/-- The first place about which nothing has been noted. Outside quotes a backslash is noted only
    together with the character behind it. -/
def frontier (s : Scan) : Nat :=
  match s.mode with
  | .plainEscape => s.offset - 1
  | _ => s.offset

/-- What can happen to the words of a scan. -/
inductive Advance (s t : Scan) : Prop where
  | keep (hd : t.draft = s.draft) (hw : t.done = s.done)
  | grow {d : Draft} (hd : t.draft = some d)
      (hg : (s.draftFrom s.frontier).Grows s.frontier t.frontier d)
      (hb : s.draft = none → s.frontier < t.frontier) (hw : t.done = s.done)
  | close {d : Draft} {q : Quote} (hs : s.draft = some d) (hd : t.draft = none)
      (hw : t.done = (d.mark s.offset q).finish s.offset q :: s.done)
      (hl : s.offset < t.frontier)

variable {s t : Scan}

/-- What holds of the word in progress, and else of one that has just begun. -/
theorem draftFrom_cases {P : Draft → Prop} {n : Nat} (hb : s.draft = none → P (.begin n))
    (hd : ∀ d, s.draft = some d → P d) : P (s.draftFrom n) := by
  unfold draftFrom
  cases h : s.draft with
  | none => exact hb h
  | some d => exact hd d h

theorem frontier_le_offset (s : Scan) : s.frontier ≤ s.offset := by
  unfold frontier
  split
  · exact Nat.sub_le _ _
  · exact Nat.le_refl _

/-! ## 3. Every character advances the scan -/

/-- What reading the character `c` does: the scan advances by the size of `c`, only a backslash
    outside quotes waits for the character behind it, and a quote is opened only together with a
    word. -/
structure Reads (s : Scan) (c : Char) (t : Scan) : Prop where
  advance : Advance s t
  offset : t.offset = s.offset + c.utf8Size
  escape : t.mode = .plainEscape → s.mode = .plain ∧ c = '\\'
  quoted : t.mode.quote ≠ .none → (s.mode.quote ≠ .none → s.draft.isSome = true) →
    t.draft.isSome = true

theorem stepPlain_reads (c : Char) (hm : s.mode = .plain) : Reads s c (s.stepPlain c) := by
  have hl : s.offset < s.offset + c.utf8Size := Nat.lt_add_of_pos_right c.utf8Size_pos
  obtain ⟨offset, mode, draft, done⟩ := s
  subst hm
  unfold stepPlain
  dsimp only at hl ⊢
  split
  · split
    · exact ⟨.keep rfl rfl, rfl, nofun, fun h => absurd rfl h⟩
    · exact ⟨.close rfl rfl rfl hl, rfl, nofun, fun h => absurd rfl h⟩
  · have hg := (Draft.Grows.refl offset _ (draftFrom ⟨offset, .plain, draft, done⟩ offset)).mark
      .none (Nat.le_refl _) hl
    split
    · rename_i hc
      exact ⟨.keep rfl rfl, rfl, fun _ => ⟨rfl, hc⟩, fun h => absurd rfl h⟩
    · split
      · exact ⟨.grow rfl hg (fun _ => hl) rfl, rfl, nofun, fun _ _ => rfl⟩
      · split
        · exact ⟨.grow rfl hg (fun _ => hl) rfl, rfl, nofun, fun _ _ => rfl⟩
        · exact ⟨.grow rfl (hg.push c) (fun _ => hl) rfl, rfl, nofun, fun _ _ => rfl⟩

theorem stepPlainEscape_reads (c : Char) (hm : s.mode = .plainEscape) :
    Reads s c (s.stepPlainEscape c) := by
  have hl : s.offset < s.offset + c.utf8Size := Nat.lt_add_of_pos_right c.utf8Size_pos
  obtain ⟨offset, mode, draft, done⟩ := s
  subst hm
  unfold stepPlainEscape
  dsimp only at hl ⊢
  have hb : offset - 1 < offset + c.utf8Size := Nat.lt_of_le_of_lt (Nat.sub_le _ _) hl
  split
  · refine ⟨?_, rfl, nofun, fun h => absurd rfl h⟩
    cases draft with
    | none => exact .keep rfl rfl
    | some d =>
      exact .grow rfl ((Draft.Grows.refl _ _ d).mark .none (Nat.le_refl _) hb) (fun _ => hb) rfl
  · have hg := (Draft.Grows.refl (offset - 1) _
      (draftFrom ⟨offset, .plainEscape, draft, done⟩ (offset - 1))).mark .none (Nat.le_refl _) hb
    exact ⟨.grow rfl ((hg.mark .none (Nat.sub_le _ _) hl).push c) (fun _ => hb) rfl, rfl,
      nofun, fun _ _ => rfl⟩

theorem stepSingle_reads (c : Char) (hm : s.mode = .single) : Reads s c (s.stepSingle c) := by
  have hl : s.offset < s.offset + c.utf8Size := Nat.lt_add_of_pos_right c.utf8Size_pos
  obtain ⟨offset, mode, draft, done⟩ := s
  subst hm
  unfold stepSingle
  dsimp only at hl ⊢
  have hg := (Draft.Grows.refl offset _ (draftFrom ⟨offset, .single, draft, done⟩ offset)).mark
    .single (Nat.le_refl _) hl
  split
  · exact ⟨.grow rfl hg (fun _ => hl) rfl, rfl, nofun, fun _ _ => rfl⟩
  · exact ⟨.grow rfl (hg.push c) (fun _ => hl) rfl, rfl, nofun, fun _ _ => rfl⟩

theorem stepDouble_reads (c : Char) (hm : s.mode = .double) : Reads s c (s.stepDouble c) := by
  have hl : s.offset < s.offset + c.utf8Size := Nat.lt_add_of_pos_right c.utf8Size_pos
  obtain ⟨offset, mode, draft, done⟩ := s
  subst hm
  unfold stepDouble
  dsimp only at hl ⊢
  have hg := (Draft.Grows.refl offset _ (draftFrom ⟨offset, .double, draft, done⟩ offset)).mark
    .double (Nat.le_refl _) hl
  split
  · exact ⟨.grow rfl hg (fun _ => hl) rfl, rfl, nofun, fun _ _ => rfl⟩
  · split
    · exact ⟨.grow rfl hg (fun _ => hl) rfl, rfl, nofun, fun _ _ => rfl⟩
    · exact ⟨.grow rfl (hg.push c) (fun _ => hl) rfl, rfl, nofun, fun _ _ => rfl⟩

theorem stepDoubleEscape_reads (c : Char) (hm : s.mode = .doubleEscape) :
    Reads s c (s.stepDoubleEscape c) := by
  have hl : s.offset < s.offset + c.utf8Size := Nat.lt_add_of_pos_right c.utf8Size_pos
  obtain ⟨offset, mode, draft, done⟩ := s
  subst hm
  unfold stepDoubleEscape
  dsimp only at hl ⊢
  have hg := Draft.Grows.refl offset (offset + c.utf8Size)
    (draftFrom ⟨offset, .doubleEscape, draft, done⟩ offset)
  split
  · exact ⟨.keep rfl rfl, rfl, nofun, fun h hs => hs h⟩
  · split
    · exact ⟨.grow rfl ((hg.mark .double (Nat.le_refl _) hl).push c) (fun _ => hl) rfl, rfl,
        nofun, fun _ _ => rfl⟩
    · exact ⟨.grow rfl (((hg.push _).mark .double (Nat.le_refl _) hl).push c) (fun _ => hl) rfl,
        rfl, nofun, fun _ _ => rfl⟩

/-- **What reading a character does, in every mode.** -/
theorem step_reads (s : Scan) (c : Char) : Reads s c (s.step c) := by
  unfold step
  split
  · exact stepPlain_reads c (by assumption)
  · exact stepPlainEscape_reads c (by assumption)
  · exact stepSingle_reads c (by assumption)
  · exact stepDouble_reads c (by assumption)
  · exact stepDoubleEscape_reads c (by assumption)

/-- The scan has read as many bytes as the characters have. -/
theorem run_offset (s : Scan) (cs : List Char) :
    (cs.foldl step s).offset = s.offset + (String.ofList cs).utf8ByteSize := by
  induction cs generalizing s with
  | nil => rfl
  | cons c cs ih =>
    rw [List.foldl_cons, ih, (s.step_reads c).offset, utf8ByteSize_ofList_cons]
    omega

theorem offset_le_frontier_step (s : Scan) (c : Char) : s.offset ≤ (s.step c).frontier := by
  have hc := c.utf8Size_pos
  have ho := (s.step_reads c).offset
  unfold frontier
  split <;> omega

theorem frontier_le_step (s : Scan) (c : Char) : s.frontier ≤ (s.step c).frontier :=
  Nat.le_trans (frontier_le_offset s) (offset_le_frontier_step s c)

/-- Only a backslash outside quotes leaves the frontier behind. -/
theorem frontier_step {c : Char} (hb : ¬ (s.mode = .plain ∧ c = '\\')) :
    (s.step c).frontier = s.offset + c.utf8Size := by
  rw [← (s.step_reads c).offset]
  unfold frontier
  split
  · rename_i hm
    exact absurd ((s.step_reads c).escape hm) hb
  · rfl

/-! ## 4. What holds after every beginning of a line -/

/-- Everything noted lies before the frontier, and an open quote belongs to a word. -/
structure Tidy (s : Scan) : Prop where
  escaped : s.mode = .plainEscape → 0 < s.offset
  quoted : s.mode.quote ≠ .none → s.draft.isSome = true
  words : ∀ w ∈ s.done, w.start < s.frontier ∧ ∀ st ∈ w.stops, st.offset < s.frontier
  draft : ∀ d, s.draft = some d → d.start < s.frontier ∧ ∀ st ∈ d.stops, st.offset < s.frontier

theorem tidy_start : Tidy start where
  escaped h := by cases h
  quoted h := absurd rfl h
  words _ h := absurd h List.not_mem_nil
  draft _ h := by cases h

/-- What is noted about the words stays behind a frontier that moves forward. -/
theorem Tidy.of_advance (h : Tidy s) (ha : Advance s t) (hle : s.frontier ≤ t.frontier)
    (hesc : t.mode = .plainEscape → 0 < t.offset)
    (hquo : t.mode.quote ≠ .none → t.draft.isSome = true) : Tidy t := by
  have hdone : ∀ w ∈ s.done, w.start < t.frontier ∧ ∀ st ∈ w.stops, st.offset < t.frontier :=
    fun w hw => ⟨Nat.lt_of_lt_of_le (h.words w hw).1 hle,
      fun st hst => Nat.lt_of_lt_of_le ((h.words w hw).2 st hst) hle⟩
  have hdraft : ∀ d, s.draft = some d →
      d.start < t.frontier ∧ ∀ st ∈ d.stops, st.offset < t.frontier :=
    fun d hd => ⟨Nat.lt_of_lt_of_le (h.draft d hd).1 hle,
      fun st hst => Nat.lt_of_lt_of_le ((h.draft d hd).2 st hst) hle⟩
  cases ha with
  | keep hd hw => exact ⟨hesc, hquo, hw ▸ hdone, hd ▸ hdraft⟩
  | @grow d hd hg hb hw =>
    refine ⟨hesc, hquo, hw ▸ hdone, fun d' hd' => ?_⟩
    cases hd.symm.trans hd'
    obtain ⟨hstart, new, hstops, hnew⟩ := hg
    have hfrom : (s.draftFrom s.frontier).start < t.frontier
        ∧ ∀ st ∈ (s.draftFrom s.frontier).stops, st.offset < t.frontier :=
      draftFrom_cases (fun hs => ⟨hb hs, fun _ hm => absurd hm List.not_mem_nil⟩) hdraft
    refine ⟨hstart ▸ hfrom.1, fun st hst => ?_⟩
    rw [hstops] at hst
    rcases List.mem_append.mp hst with hst | hst
    · exact (hnew st hst).2
    · exact hfrom.2 st hst
  | @close d q hs hd hw hl =>
    refine ⟨hesc, hquo, ?_, fun d' hd' => by rw [hd] at hd'; cases hd'⟩
    rw [hw]
    refine List.forall_mem_cons.mpr ⟨⟨(hdraft d hs).1, fun st hst => ?_⟩, hdone⟩
    rcases List.mem_cons.mp (List.mem_reverse.mp hst) with rfl | hst
    · exact hl
    · exact (hdraft d hs).2 st hst

theorem Tidy.read (h : Tidy s) (c : Char) : Tidy (s.step c) := by
  have hr := s.step_reads c
  refine h.of_advance hr.advance (s.frontier_le_step c) (fun _ => ?_)
    fun hq => hr.quoted hq h.quoted
  rw [hr.offset]
  exact Nat.add_pos_right _ c.utf8Size_pos

/-- **After every beginning of a line the scan is tidy.** -/
theorem Tidy.run (h : Tidy s) (cs : List Char) : Tidy (cs.foldl step s) := by
  induction cs generalizing s with
  | nil => exact h
  | cons c cs ih => exact ih (h.read c)

theorem tidy_run (cs : List Char) : Tidy (cs.foldl step start) :=
  tidy_start.run cs

/-! ## 5. The end of the line -/

@[simp] theorem settle_offset (s : Scan) : s.settle.offset = s.offset := by
  unfold settle
  split <;> rfl

@[simp] theorem settle_done (s : Scan) : s.settle.done = s.done := by
  unfold settle
  split <;> rfl

@[simp] theorem settle_quote (s : Scan) : s.settle.mode.quote = s.mode.quote := by
  obtain ⟨offset, mode, draft, done⟩ := s
  cases mode <;> rfl

theorem settle_frontier (s : Scan) : s.settle.frontier = s.offset := by
  obtain ⟨offset, mode, draft, done⟩ := s
  cases mode <;> rfl

/-- A backslash that no character follows advances the scan too. -/
theorem Tidy.settle_advance (h : Tidy s) : Advance s s.settle := by
  obtain ⟨offset, mode, draft, done⟩ := s
  cases mode with
  | plain => exact .keep rfl rfl
  | single => exact .keep rfl rfl
  | double => exact .keep rfl rfl
  | plainEscape =>
    have ho : 0 < offset := h.escaped rfl
    have hb : offset - 1 < offset := Nat.sub_lt ho Nat.one_pos
    exact .grow rfl
      (((Draft.Grows.refl (offset - 1) offset _).mark .none (Nat.le_refl _) hb).push _)
      (fun _ => hb) rfl
  | doubleEscape =>
    obtain ⟨d, hd⟩ := Option.isSome_iff_exists.mp
      (h.quoted (show Quote.double ≠ .none by decide))
    cases hd
    exact .grow rfl ((Draft.Grows.refl offset offset d).push _) (fun hn => nomatch hn) rfl

theorem Tidy.settled (h : Tidy s) : Tidy s.settle := by
  refine h.of_advance h.settle_advance ?_ ?_ ?_
  · rw [settle_frontier]
    exact frontier_le_offset s
  · intro hm
    unfold settle at hm
    split at hm
    · cases hm
    · cases hm
    · exact absurd hm (by assumption)
  · rw [settle_quote]
    intro hq
    have hd := h.quoted hq
    unfold settle
    split
    · rfl
    · rw [Option.isSome_map]
      exact hd
    · exact hd

end Scan

end TabCompletion.Line
