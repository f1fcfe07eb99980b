import TabCompletion.Line.Token
import TabCompletion.Proofs.Line.Scan

/-!
# What a cursor sees

A cursor sees the words before it, and of the word it stands in the letters up to it and the quote
open there. All of that is known as soon as the scan has passed the cursor, and nothing read later
changes it.

* `View`, `Sees`: what a cursor sees in the words of a line;
* `Scan.Decided`: a scan has settled what a cursor behind its frontier sees;
* `Scan.Decided.advance`: a scan that moves forward does not take that back;
* `Scan.Tidy.sees_end`: what a cursor at the end of a line sees;
* `Scan.Tidy.sees_tail`: a cursor sees the same whatever stands behind it, unless it stands between
  a backslash and the character that is read together with it.
-/

namespace TabCompletion.Line

/-! ## 1. Views -/

/-- The texts of the words before the cursor, the letters up to it of the word it stands in, and the
    quote open there. -/
structure View where
  before : List String
  typed : String
  quote : Quote
deriving DecidableEq, Repr

/-- The view from a stop of the word behind `pre`. -/
def viewOf (pre : List Word) (st : Stop) : View :=
  ⟨pre.map fun w => String.ofList w.text, String.ofList st.before.reverse, st.quote⟩

/-- The cursor stands in one of the words: the first that has a stop there. -/
def Within (c : Nat) (ws : List Word) (v : View) : Prop :=
  ∃ pre w post st, ws = pre ++ w :: post ∧ (∀ u ∈ pre, u.stopAt? c = none)
    ∧ w.stopAt? c = some st ∧ v = viewOf pre st

/-- The cursor stands in no word: behind those of `pre` and not behind the others. -/
def Between (c : Nat) (ws : List Word) (v : View) : Prop :=
  ∃ pre post, ws = pre ++ post ∧ (∀ u ∈ pre, u.start < c) ∧ (∀ u ∈ post, c ≤ u.start)
    ∧ (∀ u ∈ ws, u.stopAt? c = none) ∧ v = viewOf pre ⟨c, [], .none⟩

/-- The cursor sees `v` in the words. -/
def Sees (c : Nat) (ws : List Word) (v : View) : Prop :=
  Within c ws v ∨ Between c ws v

variable {c : Nat} {ws : List Word} {w : Word} {v : View}

/-- Words that follow do not matter to a cursor that stands in a word. -/
theorem Within.append (h : Within c ws v) (more : List Word) : Within c (ws ++ more) v := by
  obtain ⟨pre, w, post, st, rfl, hpre, hw, hv⟩ := h
  exact ⟨pre, w, post ++ more, st, by simp, hpre, hw, hv⟩

/-- Nor does a word that starts behind the cursor matter to one that stands in no word. -/
theorem Between.append (h : Between c ws v) (hs : c ≤ w.start) (hn : w.stopAt? c = none) :
    Between c (ws ++ [w]) v := by
  obtain ⟨pre, post, rfl, hpre, hpost, hnone, hv⟩ := h
  refine ⟨pre, post ++ [w], by simp, hpre, ?_, ?_, hv⟩
  · exact List.forall_mem_append.mpr ⟨hpost, List.forall_mem_singleton.mpr hs⟩
  · exact List.forall_mem_append.mpr ⟨hnone, List.forall_mem_singleton.mpr hn⟩

theorem within_last {st : Stop} (hn : ∀ u ∈ ws, u.stopAt? c = none) (hw : w.stopAt? c = some st) :
    Within c (ws ++ [w]) (viewOf ws st) :=
  ⟨ws, w, [], st, rfl, hn, hw, rfl⟩

/-! ## 2. The stop at a place -/

theorem Word.stopAt?_eq_none (h : ∀ st ∈ w.stops, st.offset < c) : w.stopAt? c = none := by
  refine List.find?_eq_none.mpr fun st hst he => ?_
  have hlt := h st hst
  rw [beq_iff_eq.mp he] at hlt
  exact Nat.lt_irrefl _ hlt

namespace Draft

/-- The place of the word in progress at which the cursor stands. -/
def stopAt? (d : Draft) (cursor : Nat) : Option Stop :=
  d.stops.reverse.find? (·.offset == cursor)

variable {d d' : Draft} {n m : Nat} {st : Stop}

theorem stopAt?_finish (stop : Nat) (q : Quote) : (d.finish stop q).stopAt? c = d.stopAt? c := rfl

theorem stopAt?_push (ch : Char) : (d.push ch).stopAt? c = d.stopAt? c := rfl

theorem stopAt?_eq_none (h : ∀ st ∈ d.stops, st.offset < c) : d.stopAt? c = none :=
  Word.stopAt?_eq_none (w := d.finish 0 .none) fun st hst => h st (List.mem_reverse.mp hst)

/-- A stop that has been noted is not replaced. -/
theorem Grows.stopAt?_of_some (h : d.Grows n m d') (hs : d.stopAt? c = some st) :
    d'.stopAt? c = some st := by
  obtain ⟨-, new, hst, -⟩ := h
  unfold stopAt? at hs ⊢
  rw [hst, List.reverse_append, List.find?_append, hs]
  rfl

/-- No stop is noted further back. -/
theorem Grows.stopAt?_eq (h : d.Grows n m d') (hc : c < n) : d'.stopAt? c = d.stopAt? c := by
  obtain ⟨-, new, hst, hnew⟩ := h
  have hnone : new.reverse.find? (·.offset == c) = none := by
    refine List.find?_eq_none.mpr fun st hm he => ?_
    have hle := (hnew st (List.mem_reverse.mp hm)).1
    rw [beq_iff_eq.mp he] at hle
    omega
  unfold stopAt?
  rw [hst, List.reverse_append, List.find?_append, hnone, Option.or_none]

/-- The first stop at a place is the one that counts. -/
theorem stopAt?_mark (h : ∀ st ∈ d.stops, st.offset < c) (q : Quote) :
    (d.mark c q).stopAt? c = some ⟨c, d.letters, q⟩ := by
  have hnone : d.stops.reverse.find? (·.offset == c) = none := stopAt?_eq_none h
  unfold stopAt?
  rw [mark_stops, List.reverse_cons, List.find?_append, hnone]
  simp

/-- A stop further on does not matter. -/
theorem stopAt?_mark_of_lt (d : Draft) {offset : Nat} (hc : c < offset) (q : Quote) :
    (d.mark offset q).stopAt? c = d.stopAt? c :=
  ((Grows.refl offset (offset + 1) d).mark q (Nat.le_refl _) (Nat.lt_succ_self _)).stopAt?_eq hc

end Draft

namespace Scan

variable {s t : Scan}

/-! ## 3. What is decided stays decided -/

/-- The scan has settled that a cursor at `c` sees `v`. -/
inductive Decided (c : Nat) (v : View) (s : Scan) : Prop where
  | inWord (h : Within c s.done.reverse v)
  | inDraft {d : Draft} {st : Stop} (hn : ∀ w ∈ s.done, w.stopAt? c = none)
      (hd : s.draft = some d) (hs : d.stopAt? c = some st) (hv : v = viewOf s.done.reverse st)
  | inGap (h : Between c s.done.reverse v)
      (hd : ∀ d, s.draft = some d → c ≤ d.start ∧ d.stopAt? c = none)

/-- With no word in progress the finished words decide. -/
theorem Decided.of_sees (hd : s.draft = none) (h : Sees c s.done.reverse v) : Decided c v s := by
  rcases h with h | h
  · exact .inWord h
  · exact .inGap h fun d he => by
      rw [hd] at he
      cases he

/-- The end of the word in progress, behind the cursor, leaves what the cursor sees. -/
theorem Decided.sees_closed (h : Decided c v s) {d : Draft} (hd : s.draft = some d)
    (hc : c < s.offset) (q : Quote) :
    Sees c ((d.mark s.offset q).finish s.offset q :: s.done).reverse v := by
  rw [List.reverse_cons]
  cases h with
  | inWord h => exact .inl (h.append _)
  | inDraft hn hd' hs hv =>
    cases hd.symm.trans hd'
    rw [hv]
    refine .inl (within_last (fun u hu => hn u (List.mem_reverse.mp hu)) ?_)
    rw [Draft.stopAt?_finish, d.stopAt?_mark_of_lt hc, hs]
  | inGap h hd' =>
    obtain ⟨hstart, hnone⟩ := hd' d hd
    refine .inr (h.append hstart ?_)
    rw [Draft.stopAt?_finish, d.stopAt?_mark_of_lt hc, hnone]

/-- **A scan that moves forward does not change what a cursor behind its frontier sees.** -/
theorem Decided.advance (h : Decided c v s) (ha : Advance s t) (hc : c < s.frontier) :
    Decided c v t := by
  cases ha with
  | keep hd hw =>
    cases h with
    | inWord h => exact .inWord (hw ▸ h)
    | inDraft hn hd' hs hv => exact .inDraft (hw ▸ hn) (hd.trans hd') hs (hw ▸ hv)
    | inGap h hd' => exact .inGap (hw ▸ h) (hd ▸ hd')
  | @grow d hd hg hb hw =>
    cases h with
    | inWord h => exact .inWord (hw ▸ h)
    | @inDraft d₀ st hn hd' hs hv =>
      have hfrom : s.draftFrom s.frontier = d₀ := by
        unfold draftFrom
        rw [hd']
        rfl
      rw [hfrom] at hg
      exact .inDraft (hw ▸ hn) hd (hg.stopAt?_of_some hs) (hw ▸ hv)
    | inGap h hd' =>
      refine .inGap (hw ▸ h) fun d' he => ?_
      cases hd.symm.trans he
      have hfrom : c ≤ (s.draftFrom s.frontier).start
          ∧ (s.draftFrom s.frontier).stopAt? c = none :=
        draftFrom_cases (fun _ => ⟨Nat.le_of_lt hc, rfl⟩) hd'
      rw [hg.start, hg.stopAt?_eq hc]
      exact hfrom
  | @close d q hs hd hw hl =>
    refine .of_sees hd ?_
    rw [hw]
    exact h.sees_closed hs (Nat.lt_of_lt_of_le hc (frontier_le_offset s)) q

/-- What is decided when the line ends is what the cursor sees in its words. -/
theorem sees_finish (h : Decided c v s.settle) (hc : c < s.offset) : Sees c s.finish v := by
  unfold finish
  dsimp only
  split
  · rename_i hd
    cases h with
    | inWord h => exact .inl h
    | inDraft hn hd' => rw [hd] at hd'; cases hd'
    | inGap h => exact .inr h
  · rename_i d hd
    exact h.sees_closed hd (by rw [settle_offset]; exact hc) _

/-- **What is decided once is decided for every continuation of the line.** -/
theorem Tidy.sees_of_decided (ht : Tidy s) (h : Decided c v s) (hc : c < s.frontier)
    (rest : List Char) : Sees c (rest.foldl step s).finish v := by
  induction rest generalizing s with
  | nil =>
    exact sees_finish (h.advance ht.settle_advance hc)
      (Nat.lt_of_lt_of_le hc (frontier_le_offset s))
  | cons ch rest ih =>
    exact ih (ht.read ch) (h.advance (s.step_reads ch).advance hc)
      (Nat.lt_of_lt_of_le hc (s.frontier_le_step ch))

/-! ## 4. The place that has just been reached -/

/-- What a cursor sees that stands where the scan has got to. -/
def view (s : Scan) : View :=
  viewOf s.done.reverse ⟨s.offset, (s.settle.draftFrom s.offset).letters, s.mode.quote⟩

/-- Whether the character is read together with a backslash in front of it. -/
def joins (s : Scan) (c : Char) : Bool :=
  match s.mode with
  | .plainEscape => true
  | .doubleEscape => c = '\n' || isDoubleEscapable c
  | _ => false

theorem Tidy.stopAt?_done (h : Tidy s) : ∀ w ∈ s.done, w.stopAt? s.offset = none :=
  fun w hw => Word.stopAt?_eq_none fun st hst =>
    Nat.lt_of_lt_of_le ((h.words w hw).2 st hst) (frontier_le_offset s)

/-- With no word in progress a cursor at the end stands behind all words. -/
theorem Tidy.between_end (h : Tidy s) (hd : s.settle.draft = none) :
    Between s.offset s.done.reverse s.view := by
  refine ⟨s.done.reverse, [], (List.append_nil _).symm, fun u hu => ?_,
    fun _ hu => absurd hu List.not_mem_nil,
    fun u hu => h.stopAt?_done u (List.mem_reverse.mp hu), ?_⟩
  · exact Nat.lt_of_lt_of_le (h.words u (List.mem_reverse.mp hu)).1 (frontier_le_offset s)
  · have hq : s.mode.quote = .none := by
      refine Classical.byContradiction fun hne => ?_
      have hs := h.settled.quoted (by rw [settle_quote]; exact hne)
      rw [hd] at hs
      cases hs
    unfold view draftFrom
    rw [hd, hq]
    rfl

/-- **At the end of a line a cursor sees what the scan has got to.** -/
theorem Tidy.sees_end (h : Tidy s) : Sees s.offset s.finish s.view := by
  unfold finish
  dsimp only
  split
  · rename_i hd
    rw [settle_done]
    exact .inr (h.between_end hd)
  · rename_i d hd
    have hlt : ∀ st ∈ d.stops, st.offset < s.offset := by
      have hb := (h.settled.draft d hd).2
      rw [settle_frontier] at hb
      exact hb
    have hview : s.view = viewOf s.done.reverse ⟨s.offset, d.letters, s.mode.quote⟩ := by
      unfold view draftFrom
      rw [hd]
      rfl
    rw [settle_done, settle_offset, settle_quote, List.reverse_cons, hview]
    refine .inl (within_last (fun u hu => h.stopAt?_done u (List.mem_reverse.mp hu)) ?_)
    rw [Draft.stopAt?_finish, Draft.stopAt?_mark hlt]

/-- The stops of a word in progress lie behind. -/
theorem Tidy.draftFrom_stops (h : Tidy s) (n : Nat) :
    ∀ st ∈ (s.draftFrom n).stops, st.offset < s.offset :=
  draftFrom_cases (fun _ _ hm => absurd hm List.not_mem_nil) fun d hd st hm =>
    Nat.lt_of_lt_of_le ((h.draft d hd).2 st hm) (frontier_le_offset s)

/-- A stop noted at the place reached decides what a cursor there sees. -/
theorem Tidy.decided_of_mark (h : Tidy s) {d d' : Draft} (hd : t.draft = some d)
    (hw : t.done = s.done) (hlt : ∀ st ∈ d'.stops, st.offset < s.offset)
    (hl : d'.letters = (s.settle.draftFrom s.offset).letters)
    (hs : d.stopAt? s.offset = (d'.mark s.offset s.mode.quote).stopAt? s.offset) :
    Decided s.offset s.view t := by
  rw [Draft.stopAt?_mark hlt] at hs
  refine .inDraft ?_ hd hs ?_
  · rw [hw]
    exact h.stopAt?_done
  · rw [hw, hl]
    rfl

theorem Tidy.decided_stepPlain (h : Tidy s) {ch : Char} (hm : s.mode = .plain) (hb : ch ≠ '\\') :
    Decided s.offset s.view (s.stepPlain ch) := by
  have hlt := h.draftFrom_stops s.offset
  have hnone := h.stopAt?_done
  have hgap := h.between_end
  obtain ⟨offset, mode, draft, done⟩ := s
  subst hm
  unfold stepPlain
  dsimp only
  split
  · split
    · exact .of_sees rfl (.inr (hgap rfl))
    · -- the blank ends the word in which the cursor stands
      rename_i d
      refine .of_sees rfl (.inl ?_)
      dsimp only at hnone hlt ⊢
      rw [List.reverse_cons]
      exact within_last (fun u hu => hnone u (List.mem_reverse.mp hu))
        (Draft.stopAt?_mark hlt .none)
  · split
    · exact h.decided_of_mark rfl rfl hlt rfl rfl
    · split
      · exact h.decided_of_mark rfl rfl hlt rfl rfl
      · exact h.decided_of_mark rfl rfl hlt rfl rfl

theorem Tidy.decided_stepSingle (h : Tidy s) (ch : Char) (hm : s.mode = .single) :
    Decided s.offset s.view (s.stepSingle ch) := by
  have hlt := h.draftFrom_stops s.offset
  obtain ⟨offset, mode, draft, done⟩ := s
  subst hm
  unfold stepSingle
  dsimp only
  split
  · exact h.decided_of_mark rfl rfl hlt rfl rfl
  · exact h.decided_of_mark rfl rfl hlt rfl rfl

theorem Tidy.decided_stepDouble (h : Tidy s) (ch : Char) (hm : s.mode = .double) :
    Decided s.offset s.view (s.stepDouble ch) := by
  have hlt := h.draftFrom_stops s.offset
  obtain ⟨offset, mode, draft, done⟩ := s
  subst hm
  unfold stepDouble
  dsimp only
  split
  · exact h.decided_of_mark rfl rfl hlt rfl rfl
  · split
    · exact h.decided_of_mark rfl rfl hlt rfl rfl
    · exact h.decided_of_mark rfl rfl hlt rfl rfl

theorem Tidy.decided_stepDoubleEscape (h : Tidy s) {ch : Char} (hm : s.mode = .doubleEscape)
    (hn : ch ≠ '\n') (he : isDoubleEscapable ch = false) :
    Decided s.offset s.view (s.stepDoubleEscape ch) := by
  have hlt := h.draftFrom_stops s.offset
  have hopen := h.quoted (by rw [hm]; decide)
  obtain ⟨offset, mode, draft, done⟩ := s
  subst hm
  obtain ⟨d, rfl⟩ := Option.isSome_iff_exists.mp hopen
  unfold stepDoubleEscape
  dsimp only
  rw [if_neg hn, if_neg (by rw [he]; decide)]
  -- the backslash turns out to be a letter in front of the cursor
  have hpush : ∀ st ∈ (d.push '\\').stops, st.offset < offset := hlt
  exact h.decided_of_mark rfl rfl hpush rfl rfl

/-- **One character decides what a cursor in front of it sees**, unless it is a backslash, or read
    together with one. -/
theorem Tidy.decided_step (h : Tidy s) {ch : Char} (hj : s.joins ch = false)
    (hb : ¬ (s.mode = .plain ∧ ch = '\\')) : Decided s.offset s.view (s.step ch) := by
  unfold joins at hj
  unfold step
  split
  · rename_i hm
    exact h.decided_stepPlain hm fun hch => hb ⟨hm, hch⟩
  · rename_i hm
    rw [hm] at hj
    cases hj
  · rename_i hm
    exact h.decided_stepSingle ch hm
  · rename_i hm
    exact h.decided_stepDouble ch hm
  · rename_i hm
    rw [hm] at hj
    obtain ⟨hn, he⟩ := Bool.or_eq_false_iff.mp hj
    exact h.decided_stepDoubleEscape hm (of_decide_eq_false hn) he

/-- A backslash outside quotes is noted together with the character behind it, or at the end of the
    line. -/
theorem Tidy.decided_backslash (h : Tidy s) (hm : s.mode = .plain) :
    Decided s.offset s.view (s.step '\\').settle
      ∧ ∀ ch, Decided s.offset s.view ((s.step '\\').step ch) := by
  have hlt := h.draftFrom_stops s.offset
  have hgap := h.between_end
  obtain ⟨offset, mode, draft, done⟩ := s
  subst hm
  have hstep : step ⟨offset, .plain, draft, done⟩ '\\' =
      ⟨offset + 1, .plainEscape, draft, done⟩ := rfl
  rw [hstep]
  refine ⟨h.decided_of_mark rfl rfl hlt rfl rfl, fun ch => ?_⟩
  unfold step stepPlainEscape
  dsimp only
  rw [Nat.add_sub_cancel]
  split
  · cases draft with
    | none => exact .of_sees rfl (.inr (hgap rfl))
    | some d => exact h.decided_of_mark rfl rfl hlt rfl rfl
  · refine h.decided_of_mark rfl rfl hlt rfl ?_
    rw [Draft.stopAt?_push]
    exact Draft.stopAt?_mark_of_lt _ (Nat.lt_succ_self _) .none

/-- **A cursor sees the same whatever stands behind it**, unless it stands between a backslash and
    the character that is read together with it. -/
theorem Tidy.sees_tail (h : Tidy s) {rest : List Char} (hj : rest.head?.any s.joins = false) :
    Sees s.offset (rest.foldl step s).finish s.view := by
  cases rest with
  | nil => exact h.sees_end
  | cons ch rest =>
    by_cases hb : s.mode = .plain ∧ ch = '\\'
    · obtain ⟨hm, rfl⟩ := hb
      obtain ⟨hend, hnext⟩ := h.decided_backslash hm
      cases rest with
      | nil =>
        have hlt : s.offset < (s.step '\\').offset := by
          rw [(s.step_reads _).offset]
          exact Nat.lt_succ_self _
        exact sees_finish hend hlt
      | cons ch rest =>
        refine ((h.read _).read ch).sees_of_decided (hnext ch) ?_ rest
        have hle := offset_le_frontier_step (s.step '\\') ch
        rw [(s.step_reads _).offset] at hle
        exact hle
    · refine (h.read ch).sees_of_decided (h.decided_step hj hb) ?_ rest
      rw [frontier_step hb]
      exact Nat.lt_add_of_pos_right ch.utf8Size_pos

end Scan

end TabCompletion.Line
