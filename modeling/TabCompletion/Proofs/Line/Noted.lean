import TabCompletion.Proofs.Line.Apart
import TabCompletion.Proofs.Line.Tokens

/-!
# Which places of a word are noted

A cursor stands in a word only at a place that the scan has noted. Every place that the word covers
is noted, up to one: between a backslash and the line break that is read together with it.

* `HasStop`: a place is noted in a word;
* `Scan.Known`: the scan has settled whether the place is noted in the word that covers it;
* `Scan.Known.run`: that stays settled for every continuation of the line;
* `Scan.Apart.known_step`, `Scan.Apart.known_backslash`: it is settled by the character behind the
  place, or by two of them;
* `Scan.Apart.hasStop_iff`: the law for a line and a place of it.
-/

namespace TabCompletion.Line

variable {c n m : Nat} {b : Prop}

/-! ## 1. Noted places -/

/-- The place is noted in the word. -/
def Word.HasStop (w : Word) (c : Nat) : Prop := ∃ st ∈ w.stops, st.offset = c

/-- A sound word covers the places noted in it. -/
theorem Word.Sound.covers {w : Word} (h : w.Sound) (hc : w.HasStop c) : w.Covers c := by
  obtain ⟨st, hst, rfl⟩ := hc
  exact h.stops st hst

namespace Draft

variable {d d' : Draft}

/-- The place is noted in the word in progress. -/
def HasStop (d : Draft) (c : Nat) : Prop := ∃ st ∈ d.stops, st.offset = c

theorem hasStop_finish (stop : Nat) (q : Quote) :
    (d.finish stop q).HasStop c ↔ d.HasStop c := by
  unfold Word.HasStop HasStop finish
  simp only [List.mem_reverse]

theorem hasStop_mark (d : Draft) (c : Nat) (q : Quote) : (d.mark c q).HasStop c :=
  ⟨⟨c, d.letters, q⟩, by rw [mark_stops]; exact List.mem_cons_self, rfl⟩

/-- Nothing is noted in front of the place from which the word is read further. -/
theorem Grows.hasStop_iff (h : d.Grows n m d') (hc : c < n) : d'.HasStop c ↔ d.HasStop c := by
  obtain ⟨-, new, hstops, hnew⟩ := h
  unfold HasStop
  rw [hstops]
  constructor
  · intro hs
    obtain ⟨st, hst, rfl⟩ := hs
    rcases List.mem_append.mp hst with hst | hst
    · exact absurd (hnew st hst).1 (Nat.not_le_of_lt hc)
    · exact ⟨st, hst, rfl⟩
  · intro hs
    obtain ⟨st, hst, rfl⟩ := hs
    exact ⟨st, List.mem_append_right _ hst, rfl⟩

/-- Another place that is noted does not matter. -/
theorem hasStop_mark_of_ne (d : Draft) {offset : Nat} (hc : c ≠ offset) (q : Quote) :
    (d.mark offset q).HasStop c ↔ d.HasStop c := by
  unfold HasStop
  rw [mark_stops]
  simp only [List.mem_cons, exists_eq_or_imp]
  exact or_iff_right (Ne.symm hc)

end Draft

namespace Scan

variable {s t : Scan} {d : Draft}

/-! ## 2. What is settled stays settled -/

/-- The scan has settled whether the place is noted in the word that covers it: iff `b`. -/
structure Known (c : Nat) (b : Prop) (s : Scan) : Prop where
  words : ∀ w ∈ s.done, w.Covers c → (w.HasStop c ↔ b)
  draft : ∀ d, s.draft = some d → d.start ≤ c → (d.HasStop c ↔ b)

/-- The word in progress, ended behind the place, has what was noted in it. -/
theorem Known.closed (h : Known c b s) (hd : s.draft = some d) (hc : c < s.offset) (q : Quote) :
    ∀ w ∈ (d.mark s.offset q).finish s.offset q :: s.done, w.Covers c → (w.HasStop c ↔ b) := by
  refine List.forall_mem_cons.mpr ⟨fun hw => ?_, h.words⟩
  rw [Draft.hasStop_finish, d.hasStop_mark_of_ne (Nat.ne_of_lt hc)]
  exact h.draft d hd hw.1

/-- **A scan that moves forward notes nothing about places behind its frontier.** -/
theorem Known.advance (h : Known c b s) (ha : Advance s t) (hc : c < s.frontier) :
    Known c b t := by
  cases ha with
  | keep hd hw => exact ⟨hw ▸ h.words, hd ▸ h.draft⟩
  | @grow d hd hg hb hw =>
    refine ⟨hw ▸ h.words, fun d' hd' hle => ?_⟩
    cases hd.symm.trans hd'
    rw [hg.hasStop_iff hc]
    rw [hg.start] at hle
    cases hs : s.draft with
    | none =>
      -- the word has begun behind the place
      have hstart : (s.draftFrom s.frontier).start = s.frontier := by
        unfold draftFrom
        rw [hs]
        rfl
      omega
    | some d₀ =>
      have hfrom : s.draftFrom s.frontier = d₀ := by
        unfold draftFrom
        rw [hs]
        rfl
      rw [hfrom] at hle ⊢
      exact h.draft d₀ hs hle
  | @close d q hs hd hw hl =>
    refine ⟨?_, fun d' hd' => by rw [hd] at hd'; cases hd'⟩
    rw [hw]
    exact h.closed hs (Nat.lt_of_lt_of_le hc (frontier_le_offset s)) q

/-- What is settled when the line ends holds of its words. -/
theorem Known.finish (h : Known c b s.settle) (hc : c < s.offset) :
    ∀ w ∈ s.finish, w.Covers c → (w.HasStop c ↔ b) := by
  unfold Scan.finish
  dsimp only
  split
  · exact fun w hw => h.words w (List.mem_reverse.mp hw)
  · rename_i d hd
    exact fun w hw => h.closed hd (by rw [settle_offset]; exact hc) _ w (List.mem_reverse.mp hw)

/-- **What is settled once is settled for every continuation of the line.** -/
theorem Known.run (h : Known c b s) (ht : Tidy s) (hc : c < s.frontier) (rest : List Char) :
    ∀ w ∈ (rest.foldl step s).finish, w.Covers c → (w.HasStop c ↔ b) := by
  induction rest generalizing s with
  | nil =>
    exact (h.advance ht.settle_advance hc).finish (Nat.lt_of_lt_of_le hc (frontier_le_offset s))
  | cons ch rest ih =>
    exact ih (h.advance (s.step_reads ch).advance hc) (ht.read ch)
      (Nat.lt_of_lt_of_le hc (s.frontier_le_step ch))

/-! ## 3. The place that has just been reached -/

/-- Whether the character is a line break that is read together with a backslash in front of it. -/
def continues (s : Scan) (ch : Char) : Bool := s.joins ch && ch = '\n'

/-- No finished word reaches as far as the scan has got. -/
theorem Apart.not_covers (h : Apart s) {w : Word} (hw : w ∈ s.done) : ¬ w.Covers s.offset := by
  have hstop := (h.words w hw).2
  have hle := frontier_le_offset s
  unfold Word.Covers
  omega

/-- With no further word finished, the word in progress alone decides. -/
theorem Apart.known (h : Apart s) (hw : t.done = s.done)
    (hd : ∀ d, t.draft = some d → (d.HasStop s.offset ↔ b)) : Known s.offset b t where
  words _ hm hc := absurd hc (h.not_covers (hw ▸ hm))
  draft d he _ := hd d he

/-- The place is noted in the word in progress. -/
theorem Apart.known_noted (h : Apart s) (hb : b) (hw : t.done = s.done) (hd : t.draft = some d)
    (hs : d.HasStop s.offset) : Known s.offset b t :=
  h.known hw fun d' hd' => by
    cases hd.symm.trans hd'
    exact iff_of_true hs hb

theorem known_stepPlain (h : Apart s) {ch : Char} (hm : s.mode = .plain) (hch : ch ≠ '\\')
    (hb : b) : Known s.offset b (s.stepPlain ch) := by
  have hnot : ∀ w ∈ s.done, ¬ w.Covers s.offset := fun _ hw => h.not_covers hw
  obtain ⟨offset, mode, draft, done⟩ := s
  subst hm
  unfold stepPlain
  dsimp only at hnot ⊢
  split
  · split
    · exact h.known rfl fun _ hd => nomatch hd
    · -- the blank ends the word, and its end is noted
      rename_i d
      refine ⟨List.forall_mem_cons.mpr ⟨fun _ => ?_, fun w hw hc => absurd hc (hnot w hw)⟩,
        fun _ hd => nomatch hd⟩
      rw [Draft.hasStop_finish]
      exact iff_of_true (d.hasStop_mark offset .none) hb
  · have hmark := Draft.hasStop_mark (draftFrom ⟨offset, .plain, draft, done⟩ offset) offset .none
    split
    · exact h.known_noted hb rfl rfl hmark
    · split
      · exact h.known_noted hb rfl rfl hmark
      · exact h.known_noted hb rfl rfl hmark

theorem known_stepSingle (h : Apart s) (ch : Char) (hm : s.mode = .single) (hb : b) :
    Known s.offset b (s.stepSingle ch) := by
  obtain ⟨offset, mode, draft, done⟩ := s
  subst hm
  unfold stepSingle
  dsimp only
  have hmark := Draft.hasStop_mark (draftFrom ⟨offset, .single, draft, done⟩ offset) offset .single
  split
  · exact h.known_noted hb rfl rfl hmark
  · exact h.known_noted hb rfl rfl hmark

theorem known_stepDouble (h : Apart s) (ch : Char) (hm : s.mode = .double) (hb : b) :
    Known s.offset b (s.stepDouble ch) := by
  obtain ⟨offset, mode, draft, done⟩ := s
  subst hm
  unfold stepDouble
  dsimp only
  have hmark := Draft.hasStop_mark (draftFrom ⟨offset, .double, draft, done⟩ offset) offset .double
  split
  · exact h.known_noted hb rfl rfl hmark
  · split
    · exact h.known_noted hb rfl rfl hmark
    · exact h.known_noted hb rfl rfl hmark

/-- Nothing has been noted yet about the place that the scan has got to. -/
theorem Tidy.not_hasStop (ht : Tidy s) (hd : s.draft = some d) : ¬ d.HasStop s.offset := by
  intro hs
  obtain ⟨st, hst, he⟩ := hs
  have hlt := (ht.draft d hd).2 st hst
  have hle := frontier_le_offset s
  omega

theorem known_stepPlainEscape (h : Apart s) (ht : Tidy s) {ch : Char} (hm : s.mode = .plainEscape)
    (hb : b ↔ ch ≠ '\n') : Known s.offset b (s.stepPlainEscape ch) := by
  have hpos := ht.escaped hm
  have hnone : ∀ d, s.draft = some d → ¬ d.HasStop s.offset := fun _ => ht.not_hasStop
  obtain ⟨offset, mode, draft, done⟩ := s
  subst hm
  unfold stepPlainEscape
  dsimp only at hpos hnone ⊢
  have hne : offset ≠ offset - 1 := by omega
  split
  · -- only the place in front of the backslash is noted
    rename_i hch
    refine h.known rfl fun d hd => ?_
    obtain ⟨d₀, hd₀, rfl⟩ := Option.map_eq_some_iff.mp hd
    rw [d₀.hasStop_mark_of_ne hne]
    exact iff_of_false (hnone d₀ hd₀) fun hyes => hb.mp hyes hch
  · rename_i hch
    exact h.known_noted (hb.mpr hch) rfl rfl (Draft.hasStop_mark _ offset .none)

theorem known_stepDoubleEscape (h : Apart s) (ht : Tidy s) {ch : Char}
    (hm : s.mode = .doubleEscape) (hb : b ↔ ch ≠ '\n') :
    Known s.offset b (s.stepDoubleEscape ch) := by
  have hnone : ∀ d, s.draft = some d → ¬ d.HasStop s.offset := fun _ => ht.not_hasStop
  obtain ⟨offset, mode, draft, done⟩ := s
  subst hm
  unfold stepDoubleEscape
  dsimp only at hnone ⊢
  split
  · rename_i hch
    exact h.known rfl fun d hd => iff_of_false (hnone d hd) fun hyes => hb.mp hyes hch
  · rename_i hch
    have hyes := hb.mpr hch
    split
    · exact h.known_noted hyes rfl rfl (Draft.hasStop_mark _ offset .double)
    · exact h.known_noted hyes rfl rfl (Draft.hasStop_mark _ offset .double)

/-- **One character settles whether the place in front of it is noted**, unless it is a backslash
    outside quotes: it is noted iff no line break continues a backslash there. -/
theorem Apart.known_step (h : Apart s) (ht : Tidy s) {ch : Char}
    (hb : ¬ (s.mode = .plain ∧ ch = '\\')) :
    Known s.offset (s.continues ch = false) (s.step ch) := by
  unfold step
  split
  · rename_i hm
    exact known_stepPlain h hm (fun hch => hb ⟨hm, hch⟩) (by simp [continues, joins, hm])
  · rename_i hm
    exact known_stepPlainEscape h ht hm (by simp [continues, joins, hm])
  · rename_i hm
    exact known_stepSingle h ch hm (by simp [continues, joins, hm])
  · rename_i hm
    exact known_stepDouble h ch hm (by simp [continues, joins, hm])
  · rename_i hm
    refine known_stepDoubleEscape h ht hm ?_
    by_cases hch : ch = '\n' <;> simp [continues, joins, hm, hch]

/-- The place in front of a backslash outside quotes is noted together with the character behind the
    backslash, or at the end of the line. -/
theorem Apart.known_backslash (h : Apart s) (hm : s.mode = .plain) (hb : b) :
    Known s.offset b (s.step '\\').settle
      ∧ ∀ ch, Known s.offset b ((s.step '\\').step ch) := by
  obtain ⟨offset, mode, draft, done⟩ := s
  subst hm
  have hstep : step ⟨offset, .plain, draft, done⟩ '\\' =
      ⟨offset + 1, .plainEscape, draft, done⟩ := rfl
  rw [hstep]
  refine ⟨h.known_noted hb rfl rfl (Draft.hasStop_mark _ offset .none), fun ch => ?_⟩
  unfold step stepPlainEscape
  dsimp only
  rw [Nat.add_sub_cancel]
  split
  · refine h.known rfl fun d hd => ?_
    obtain ⟨d₀, -, rfl⟩ := Option.map_eq_some_iff.mp hd
    exact iff_of_true (d₀.hasStop_mark offset .none) hb
  · refine h.known_noted hb rfl rfl ?_
    have hne : offset ≠ offset + 1 := by omega
    exact (Draft.hasStop_mark_of_ne _ hne .none).mpr (Draft.hasStop_mark _ offset .none)

/-- The end of the line is noted in the word that it ends. -/
theorem Apart.hasStop_end (h : Apart s) :
    ∀ w ∈ s.finish, w.Covers s.offset → w.HasStop s.offset := by
  unfold Scan.finish
  dsimp only
  rw [settle_done, settle_offset]
  split
  · exact fun w hw hc => absurd hc (h.not_covers (List.mem_reverse.mp hw))
  · rename_i d hd
    intro w hw hc
    rcases List.mem_cons.mp (List.mem_reverse.mp hw) with rfl | hw
    · exact (Draft.hasStop_finish _ _).mpr (d.hasStop_mark s.offset _)
    · exact absurd hc (h.not_covers hw)

/-- **A place that a word covers is noted in it**, unless it lies between a backslash and the line
    break that is read together with it. -/
theorem Apart.hasStop_iff (h : Apart s) (ht : Tidy s) (rest : List Char) :
    ∀ w ∈ (rest.foldl step s).finish, w.Covers s.offset →
      (w.HasStop s.offset ↔ rest.head?.any s.continues = false) := by
  cases rest with
  | nil => exact fun w hw hc => iff_of_true (h.hasStop_end w hw hc) rfl
  | cons ch rest =>
    have hsome : (some ch).any s.continues = s.continues ch := rfl
    rw [List.head?_cons, hsome]
    by_cases hb : s.mode = .plain ∧ ch = '\\'
    · obtain ⟨hm, rfl⟩ := hb
      have hno : s.continues '\\' = false := by simp [continues]
      have hoff : (s.step '\\').offset = s.offset + 1 := (s.step_reads _).offset
      obtain ⟨hend, hnext⟩ := h.known_backslash hm hno
      cases rest with
      | nil => exact hend.finish (by omega)
      | cons ch rest =>
        have hle := offset_le_frontier_step (s.step '\\') ch
        exact (hnext ch).run ((ht.read _).read ch) (by omega) rest
    · refine (h.known_step ht hb).run (ht.read ch) ?_ rest
      rw [frontier_step hb]
      exact Nat.lt_add_of_pos_right ch.utf8Size_pos

end Scan

end TabCompletion.Line
