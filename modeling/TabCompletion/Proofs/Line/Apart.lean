import Mathlib.Data.List.Pairwise
import TabCompletion.Proofs.Line.Scan

/-!
# The words of a line lie apart

Between two words of a line there is at least the blank that ended the first of them, and every
place at which a cursor can stand in a word lies on the bytes of that word or at its end.

* `Word.Sound`: a word has bytes, and its stops lie on them or right behind;
* `Scan.Apart`: what a scan keeps of that, from character to character;
* `Scan.Tidy.closed_apart`: the word that is ended next lies behind all others;
* `words_sound`, `words_pairwise`: the words of a line.
-/

namespace TabCompletion.Line

/-! ## 1. Spans -/

/-- The place lies on the bytes of the word or at its end. -/
def Word.Covers (w : Word) (c : Nat) : Prop := w.start ≤ c ∧ c ≤ w.stop

/-- The word has bytes, and a cursor can stand in it only where it covers the cursor. -/
structure Word.Sound (w : Word) : Prop where
  nonempty : w.start < w.stop
  stops : ∀ st ∈ w.stops, w.Covers st.offset

namespace Scan

variable {s t : Scan} {d : Draft}

/-! ## 2. What a scan keeps -/

/-- The word starts behind the finished ones, and nothing is noted in front of it. -/
def Clear (s : Scan) (d : Draft) : Prop :=
  (∀ w ∈ s.done, w.stop < d.start) ∧ ∀ st ∈ d.stops, d.start ≤ st.offset

/-- The finished words end before the frontier, each before the next one starts, and all before the
    word in progress starts. -/
structure Apart (s : Scan) : Prop where
  words : ∀ w ∈ s.done, w.Sound ∧ w.stop < s.frontier
  order : s.done.Pairwise fun w u => u.stop < w.start
  draft : ∀ d, s.draft = some d → s.Clear d

theorem apart_start : Apart start where
  words _ h := absurd h List.not_mem_nil
  order := .nil
  draft _ h := by cases h

/-- The word that ends where the scan has got to is sound. -/
theorem Apart.sound_closed (h : Apart s) (ht : Tidy s) (hd : s.draft = some d) (q : Quote) :
    ((d.mark s.offset q).finish s.offset q).Sound := by
  obtain ⟨hstart, hstops⟩ := ht.draft d hd
  have hle := frontier_le_offset s
  have hlt : d.start < s.offset := Nat.lt_of_lt_of_le hstart hle
  refine ⟨hlt, fun st hst => ?_⟩
  have hst' : st ∈ (d.mark s.offset q).stops := List.mem_reverse.mp hst
  rw [Draft.mark_stops] at hst'
  rcases List.mem_cons.mp hst' with rfl | hst'
  · exact ⟨Nat.le_of_lt hlt, Nat.le_refl _⟩
  · have hbefore := hstops st hst'
    exact ⟨(h.draft d hd).2 st hst', Nat.le_of_lt (Nat.lt_of_lt_of_le hbefore hle)⟩

/-- A scan that moves forward keeps the words apart. -/
theorem Apart.of_advance (h : Apart s) (ht : Tidy s) (ha : Advance s t)
    (hle : s.frontier ≤ t.frontier) : Apart t := by
  have hwords : ∀ w ∈ s.done, w.Sound ∧ w.stop < t.frontier :=
    fun w hw => ⟨(h.words w hw).1, Nat.lt_of_lt_of_le (h.words w hw).2 hle⟩
  cases ha with
  | keep hd hw =>
    refine ⟨hw ▸ hwords, hw ▸ h.order, ?_⟩
    unfold Clear
    rw [hd, hw]
    exact h.draft
  | @grow d hd hg hb hw =>
    refine ⟨hw ▸ hwords, hw ▸ h.order, fun d' hd' => ?_⟩
    cases hd.symm.trans hd'
    obtain ⟨hstart, new, hstops, hnew⟩ := hg
    -- a word that has just begun starts at the frontier, behind all others
    obtain ⟨⟨hbehind, hfirst⟩, hle'⟩ : s.Clear (s.draftFrom s.frontier)
        ∧ (s.draftFrom s.frontier).start ≤ s.frontier :=
      draftFrom_cases (P := fun d => s.Clear d ∧ d.start ≤ s.frontier)
        (fun _ => ⟨⟨fun w hw => (h.words w hw).2, fun _ hm => absurd hm List.not_mem_nil⟩,
          Nat.le_refl _⟩)
        fun d hs => ⟨h.draft d hs, Nat.le_of_lt (ht.draft d hs).1⟩
    unfold Clear
    rw [hstart, hstops, hw]
    refine ⟨hbehind, fun st hst => ?_⟩
    rcases List.mem_append.mp hst with hst | hst
    · exact Nat.le_trans hle' (hnew st hst).1
    · exact hfirst st hst
  | @close d q hs hd hw hl =>
    refine ⟨?_, ?_, fun d' hd' => by rw [hd] at hd'; cases hd'⟩
    · rw [hw]
      exact List.forall_mem_cons.mpr ⟨⟨h.sound_closed ht hs q, hl⟩, hwords⟩
    · rw [hw]
      exact List.pairwise_cons.mpr ⟨(h.draft d hs).1, h.order⟩

/-- **After every beginning of a line its words lie apart.** -/
theorem apart_run (cs : List Char) : Apart (cs.foldl step start) := by
  have hrun : ∀ (s : Scan), Tidy s → Apart s → Apart (cs.foldl step s) := by
    induction cs with
    | nil => exact fun _ _ h => h
    | cons c cs ih =>
      intro s ht h
      exact ih _ (ht.read c) (h.of_advance ht (s.step_reads c).advance (s.frontier_le_step c))
  exact hrun start tidy_start apart_start

/-! ## 3. The end of the line -/

theorem Apart.settled (h : Apart s) (ht : Tidy s) : Apart s.settle := by
  refine h.of_advance ht ht.settle_advance ?_
  rw [settle_frontier]
  exact frontier_le_offset s

/-- At the end of a line all its words are sound, and each ends before the next one starts. -/
theorem Apart.finish (h : Apart s) (ht : Tidy s) :
    (∀ w ∈ s.finish, w.Sound) ∧ s.finish.Pairwise fun u w => u.stop < w.start := by
  have hs := h.settled ht
  have hdone : ∀ w ∈ s.settle.done, w.Sound := fun w hw => (hs.words w hw).1
  unfold Scan.finish
  dsimp only
  split
  · exact ⟨fun w hw => hdone w (List.mem_reverse.mp hw), List.pairwise_reverse.mpr hs.order⟩
  · rename_i d hd
    refine ⟨fun w hw => ?_, List.pairwise_reverse.mpr ?_⟩
    · exact List.forall_mem_cons.mpr ⟨hs.sound_closed ht.settled hd _, hdone⟩ w
        (List.mem_reverse.mp hw)
    · exact List.pairwise_cons.mpr ⟨(hs.draft d hd).1, hs.order⟩

end Scan

variable {line : List Char} {u w : Word} {c : Nat}

theorem words_sound (hw : w ∈ words line) : w.Sound :=
  ((Scan.apart_run line).finish (Scan.tidy_run line)).1 w hw

/-- **The words of a line lie apart, in line order.** -/
theorem words_pairwise (line : List Char) : (words line).Pairwise fun u w => u.stop < w.start :=
  ((Scan.apart_run line).finish (Scan.tidy_run line)).2

/-- No place is covered by two words. -/
theorem eq_of_covers (hu : u ∈ words line) (hw : w ∈ words line) (huc : u.Covers c)
    (hwc : w.Covers c) : u = w := by
  by_contra hne
  have hsym : (words line).Pairwise fun u w => u.stop < w.start ∨ w.stop < u.start :=
    (words_pairwise line).imp .inl
  have happart : u.stop < w.start ∨ w.stop < u.start := by
    have : Std.Symm (fun u w : Word => u.stop < w.start ∨ w.stop < u.start) :=
      ⟨fun _ _ h => h.symm⟩
    exact hsym.forall hu hw hne
  obtain ⟨hul, hur⟩ := huc
  obtain ⟨hwl, hwr⟩ := hwc
  omega

end TabCompletion.Line
