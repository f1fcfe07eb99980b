import TabCompletion.Proofs.Line.Noted

/-!
# The word under the cursor

The word that covers the cursor is the active one, and a cursor that no word covers has an empty
token of its own. The one exception is a cursor between a backslash and the line break that is read
together with it: it stands in no word, not even in the one around it.

* `partsContinuation`: that exception;
* `token_active_iff`: which word is active;
* `tokensAt_cases`: the two forms of a list of tokens;
* `fitsCursor_iff`: the law; `not_always_fitsCursor`: the exception does happen.
-/

namespace TabCompletion.Line

open Text

variable {line : String} {cursor c : Nat} {u w : Word}

/-! ## 1. The active word -/

instance : Decidable (w.Covers c) := inferInstanceAs (Decidable (w.start ≤ c ∧ c ≤ w.stop))

@[simp] theorem Word.token_stop (w : Word) (c : Nat) : (w.token c).stop = w.stop := by
  unfold Word.token
  split <;> rfl

theorem Word.token_active : (w.token c).active = true ↔ w.HasStop c := by
  unfold Word.token HasStop stopAt?
  cases h : w.stops.find? (·.offset == c) with
  | none =>
    have hnone := List.find?_eq_none.mp h
    exact iff_of_false Bool.false_ne_true fun hs => by
      obtain ⟨st, hst, he⟩ := hs
      exact hnone st hst (beq_iff_eq.mpr he)
  | some st =>
    have he : st.offset = c :=
      beq_iff_eq.mp (List.find?_some (p := fun st : Stop => st.offset == c) h)
    exact iff_of_true rfl ⟨st, List.mem_of_find?_eq_some h, he⟩

/-- Whether the cursor stands between a backslash and the line break that is read together with
    it. -/
def partsContinuation (line : String) (cursor : Nat) : Bool :=
  (behind line cursor).toList.head?.any
    ((upTo line cursor).toList.foldl Scan.step Scan.start).continues

/-- **A word is active iff it covers the cursor**, unless the cursor parts a backslash from the line
    break behind it. -/
theorem token_active_iff (hw : w ∈ words line.toList) :
    (w.token (clampCursor line cursor)).active = true ↔
      w.Covers (clampCursor line cursor) ∧ partsContinuation line cursor = false := by
  have hrun := (Scan.apart_run (upTo line cursor).toList).hasStop_iff (Scan.tidy_run _)
    (behind line cursor).toList
  have hoff : ((upTo line cursor).toList.foldl Scan.step Scan.start).offset
      = clampCursor line cursor := by
    rw [Scan.run_offset, String.ofList_toList, utf8ByteSize_upTo]
    exact Nat.zero_add _
  rw [hoff, ← List.foldl_append, ← String.toList_append, upTo_append_behind] at hrun
  rw [Word.token_active]
  constructor
  · intro hs
    have hc := (words_sound hw).covers hs
    exact ⟨hc, (hrun w hw hc).mp hs⟩
  · intro h
    exact (hrun w hw h.1).mpr h.2

/-! ## 2. The tokens -/

/-- No word looks like the token of a cursor that stands in none. -/
theorem gap_not_mem_map_token {ws : List Word} (h : ∀ w ∈ ws, w.Sound) :
    Token.gap c ∉ ws.map (·.token c) := by
  intro hm
  obtain ⟨w, hw, he⟩ := List.mem_map.mp hm
  have hstart : w.start = c := by rw [← w.token_start c, he]; rfl
  have hstop : w.stop = c := by rw [← w.token_stop c, he]; rfl
  have hlt := (h w hw).nonempty
  omega

/-- The words that start in front of the cursor come first. -/
theorem exists_split_at {ws : List Word} (h : ws.Pairwise fun u w => u.start ≤ w.start) (c : Nat) :
    ∃ pre post, ws = pre ++ post ∧ (∀ u ∈ pre, u.start < c) ∧ ∀ u ∈ post, c ≤ u.start := by
  induction ws with
  | nil => exact ⟨[], [], rfl, nofun, nofun⟩
  | cons w ws ih =>
    obtain ⟨hw, hws⟩ := List.pairwise_cons.mp h
    by_cases hc : w.start < c
    · obtain ⟨pre, post, rfl, hpre, hpost⟩ := ih hws
      exact ⟨w :: pre, post, rfl, List.forall_mem_cons.mpr ⟨hc, hpre⟩, hpost⟩
    · have hle : c ≤ w.start := Nat.le_of_not_lt hc
      refine ⟨[], w :: ws, rfl, nofun, ?_⟩
      exact List.forall_mem_cons.mpr ⟨hle, fun u hu => Nat.le_trans hle (hw u hu)⟩

theorem words_pairwise_start (line : List Char) :
    (words line).Pairwise fun u w => u.start ≤ w.start :=
  (words_pairwise line).imp_of_mem fun hu _ hlt =>
    Nat.le_of_lt (Nat.lt_trans (words_sound hu).nonempty hlt)

/-- A word that does not stop at the cursor is not active. -/
theorem map_token_idle {ws : List Word} (h : ∀ u ∈ ws, ¬ u.HasStop c) :
    ∀ t ∈ ws.map (·.token c), t.active = false := by
  intro t ht
  obtain ⟨u, hu, rfl⟩ := List.mem_map.mp ht
  exact Bool.eq_false_iff.mpr (mt Word.token_active.mp (h u hu))

/-- The words beside the one that covers the cursor do not stop there. -/
theorem not_hasStop_of_split {line : List Char} {pre post : List Word}
    (hws : words line = pre ++ w :: post) (hnot : ∀ u ∈ pre ++ post, ¬ u.Covers c) :
    ∀ u ∈ pre ++ post, ¬ u.HasStop c := by
  intro u hu hs
  have hmem : u ∈ words line := by
    rw [hws]
    exact List.mem_append.mpr ((List.mem_append.mp hu).imp_right (List.mem_cons_of_mem w))
  exact hnot u hu ((words_sound hmem).covers hs)

/-- **The tokens of a line**: either one for each word, of which a single one is active, or none of
    them is active and the empty token stands between the words in front of the cursor and the words
    behind it. -/
theorem tokensAt_cases (line : List Char) (c : Nat) :
    (∃ pre w post, words line = pre ++ w :: post ∧ w.HasStop c
        ∧ (∀ u ∈ pre ++ post, ¬ u.Covers c)
        ∧ tokensAt line c = pre.map (·.token c) ++ w.token c :: post.map (·.token c))
      ∨ ∃ pre post, words line = pre ++ post ∧ (∀ u ∈ words line, ¬ u.HasStop c)
        ∧ (∀ u ∈ pre, u.start < c) ∧ (∀ u ∈ post, c ≤ u.start)
        ∧ tokensAt line c = pre.map (·.token c) ++ .gap c :: post.map (·.token c) := by
  unfold tokensAt
  dsimp only
  by_cases h : ∃ w ∈ words line, w.HasStop c
  · obtain ⟨w, hw, hs⟩ := h
    have hc := (words_sound hw).covers hs
    have hany : ((words line).map (·.token c)).any (·.active) = true :=
      List.any_eq_true.mpr ⟨w.token c, List.mem_map_of_mem hw, Word.token_active.mpr hs⟩
    obtain ⟨pre, post, hws⟩ := List.append_of_mem hw
    have hp := words_pairwise line
    rw [hws] at hp
    obtain ⟨-, hpost, hpre⟩ := List.pairwise_append.mp hp
    refine .inl ⟨pre, w, post, hws, hs, fun u hu huc => ?_, ?_⟩
    · obtain ⟨hwl, hwr⟩ := hc
      obtain ⟨hul, hur⟩ := huc
      rcases List.mem_append.mp hu with hu | hu
      · have hlt := hpre u hu w List.mem_cons_self
        omega
      · have hlt := (List.pairwise_cons.mp hpost).1 u hu
        omega
    · rw [if_pos hany, hws, List.map_append, List.map_cons]
  · have hnone : ∀ u ∈ words line, ¬ u.HasStop c := fun u hu hs => h ⟨u, hu, hs⟩
    have hany : ((words line).map (·.token c)).any (·.active) = false :=
      List.any_eq_false.mpr fun t ht => Bool.eq_false_iff.mp (map_token_idle hnone t ht)
    obtain ⟨pre, post, hws, hpre, hpost⟩ := exists_split_at (words_pairwise_start line) c
    refine .inr ⟨pre, post, hws, hnone, hpre, hpost, ?_⟩
    rw [hany, if_neg Bool.false_ne_true, hws, insertGap_map_token hpre hpost]

/-- **Exactly one token is active.** -/
theorem exists_active (line : List Char) (c : Nat) : ∃ before t after,
    tokensAt line c = before ++ t :: after ∧ t.active = true
      ∧ ∀ u ∈ before ++ after, u.active = false := by
  rcases tokensAt_cases line c with h | h
  · obtain ⟨pre, w, post, hws, hs, hnot, htok⟩ := h
    refine ⟨_, _, _, htok, Word.token_active.mpr hs, ?_⟩
    rw [← List.map_append]
    exact map_token_idle (not_hasStop_of_split hws hnot)
  · obtain ⟨pre, post, hws, hnone, -, -, htok⟩ := h
    refine ⟨_, _, _, htok, rfl, ?_⟩
    rw [← List.map_append]
    exact map_token_idle (hws ▸ hnone)

/-- **Apart from the empty token the tokens of a line are its words.** -/
theorem filter_tokensAt (line : List Char) (c : Nat) :
    (tokensAt line c).filter (· != .gap c) = (words line).map (·.token c) := by
  have hself : ∀ ws : List Word, (∀ w ∈ ws, w ∈ words line) →
      (ws.map (·.token c)).filter (· != .gap c) = ws.map (·.token c) := by
    intro ws hws
    refine List.filter_eq_self.mpr fun t ht => bne_iff_ne.mpr fun he => ?_
    exact gap_not_mem_map_token (fun w hw => words_sound (hws w hw)) (he ▸ ht)
  rcases tokensAt_cases line c with h | h
  · obtain ⟨pre, w, post, hws, -, -, htok⟩ := h
    have hmap : tokensAt line c = (words line).map (·.token c) := by
      rw [htok, hws, List.map_append, List.map_cons]
    rw [hmap]
    exact hself _ fun _ hw => hw
  · obtain ⟨pre, post, hws, -, -, -, htok⟩ := h
    have hpre : ∀ w ∈ pre, w ∈ words line := fun w hw => hws ▸ List.mem_append_left post hw
    have hpost : ∀ w ∈ post, w ∈ words line := fun w hw => hws ▸ List.mem_append_right pre hw
    rw [htok, List.filter_append, List.filter_cons_of_neg (by simp), hself pre hpre,
      hself post hpost, hws, List.map_append]

/-- The texts of the tokens, leaving aside the empty token of a cursor that stands in no word. -/
def wordTexts (line : String) (cursor : Nat) : List String :=
  ((tokens line cursor).filter (· != .gap (clampCursor line cursor))).map (·.text)

/-- The texts read from a line do not depend on the cursor. -/
theorem wordTexts_eq (line : String) (cursor : Nat) :
    wordTexts line cursor = (words line.toList).map fun w => String.ofList w.text := by
  unfold wordTexts tokens
  rw [filter_tokensAt, map_token_text]

/-! ## 3. The law -/

/-- Tokens as they should be for the words of a line and a cursor at `c`: apart from the empty token
    they are the words; a word that covers the cursor is the active token, without an empty one;
    there is an empty one iff no word covers the cursor; and each token ends before the next one
    starts. -/
structure FitsCursor (ws : List Word) (c : Nat) (ts : List Token) : Prop where
  kept : ts.filter (· != .gap c) = ws.map (·.token c)
  active : ∀ w ∈ ws, w.Covers c → ts.filter (·.active) = [w.token c] ∧ .gap c ∉ ts
  gap : .gap c ∈ ts ↔ ∀ w ∈ ws, ¬ w.Covers c
  order : ts.Pairwise fun t u => t.stop < u.start

theorem pairwise_map_token {ws : List Word} (h : ws.Pairwise fun u w => u.stop < w.start) :
    (ws.map (·.token c)).Pairwise fun t u => t.stop < u.start := by
  refine List.pairwise_map.mpr (h.imp fun hlt => ?_)
  rw [Word.token_stop, Word.token_start]
  exact hlt

/-- Where the cursor stands in a word, the tokens fit. -/
theorem fitsCursor_of_hasStop {line : List Char} {pre post : List Word}
    (hws : words line = pre ++ w :: post) (hs : w.HasStop c)
    (hnot : ∀ u ∈ pre ++ post, ¬ u.Covers c)
    (htok : tokensAt line c = pre.map (·.token c) ++ w.token c :: post.map (·.token c)) :
    FitsCursor (words line) c (tokensAt line c) := by
  have hsound : ∀ u ∈ words line, u.Sound := fun _ hu => words_sound hu
  have hmem : w ∈ words line := by
    rw [hws]
    exact List.mem_append_right _ List.mem_cons_self
  have hc := (hsound w hmem).covers hs
  have hmap : tokensAt line c = (words line).map (·.token c) := by
    rw [htok, hws, List.map_append, List.map_cons]
  have hgap : .gap c ∉ tokensAt line c := by
    rw [hmap]
    exact gap_not_mem_map_token hsound
  obtain ⟨hstopPre, hstopPost⟩ := List.forall_mem_append.mp (not_hasStop_of_split hws hnot)
  have hidle : ∀ us : List Word, (∀ u ∈ us, ¬ u.HasStop c) →
      (us.map (·.token c)).filter (·.active) = [] := fun us hus =>
    List.filter_eq_nil_iff.mpr fun t ht => Bool.eq_false_iff.mp (map_token_idle hus t ht)
  refine ⟨filter_tokensAt line c, fun u hu huc => ⟨?_, hgap⟩,
    iff_of_false hgap fun hno => hno w hmem hc, hmap ▸ pairwise_map_token (words_pairwise line)⟩
  rw [eq_of_covers hu hmem huc hc, htok, List.filter_append,
    List.filter_cons_of_pos (Word.token_active.mpr hs),
    hidle pre hstopPre, hidle post hstopPost]
  rfl

/-- Where no word covers the cursor, the tokens fit. -/
theorem fitsCursor_of_not_covers {line : List Char} {pre post : List Word}
    (hws : words line = pre ++ post) (hno : ∀ u ∈ words line, ¬ u.Covers c)
    (hpre : ∀ u ∈ pre, u.start < c) (hpost : ∀ u ∈ post, c ≤ u.start)
    (htok : tokensAt line c = pre.map (·.token c) ++ .gap c :: post.map (·.token c)) :
    FitsCursor (words line) c (tokensAt line c) := by
  have hsound : ∀ u ∈ words line, u.Sound := fun _ hu => words_sound hu
  have hp := words_pairwise line
  have hgap : .gap c ∈ tokensAt line c := by
    rw [htok]
    exact List.mem_append_right _ List.mem_cons_self
  rw [hws] at hsound hno hp
  obtain ⟨-, hsoundPost⟩ := List.forall_mem_append.mp hsound
  obtain ⟨hnoPre, hnoPost⟩ := List.forall_mem_append.mp hno
  obtain ⟨hpPre, hpPost, -⟩ := List.pairwise_append.mp hp
  have hbefore : ∀ u ∈ pre, u.stop < c := by
    intro u hu
    have hstart := hpre u hu
    have hcov := hnoPre u hu
    unfold Word.Covers at hcov
    omega
  have hbehind : ∀ u ∈ post, c < u.start := by
    intro u hu
    have hstart := hpost u hu
    have hcov := hnoPost u hu
    have hlt := (hsoundPost u hu).nonempty
    unfold Word.Covers at hcov
    omega
  refine ⟨filter_tokensAt line c, fun w hw hc => absurd hc (hno w (hws ▸ hw)),
    iff_of_true hgap (hws ▸ hno), ?_⟩
  rw [htok]
  refine List.pairwise_append.mpr ⟨pairwise_map_token hpPre,
    List.pairwise_cons.mpr ⟨fun t ht => ?_, pairwise_map_token hpPost⟩, fun t ht u hu => ?_⟩
  · obtain ⟨u, hu, rfl⟩ := List.mem_map.mp ht
    rw [Word.token_start]
    exact hbehind u hu
  · obtain ⟨v, hv, rfl⟩ := List.mem_map.mp ht
    have hstop := hbefore v hv
    rw [Word.token_stop]
    rcases List.mem_cons.mp hu with rfl | hu
    · exact hstop
    · obtain ⟨w, hw, rfl⟩ := List.mem_map.mp hu
      rw [Word.token_start]
      exact Nat.lt_trans hstop (hbehind w hw)

/-- Where the tokens fit, no word around the cursor is continued there. -/
theorem FitsCursor.not_parted
    (h : FitsCursor (words line.toList) (clampCursor line cursor) (tokens line cursor))
    (hw : w ∈ words line.toList) (hc : w.Covers (clampCursor line cursor)) :
    partsContinuation line cursor = false := by
  have hact : w.token (clampCursor line cursor) ∈ (tokens line cursor).filter (·.active) := by
    rw [(h.active w hw hc).1]
    exact List.mem_singleton.mpr rfl
  exact ((token_active_iff hw).mp (List.mem_filter.mp hact).2).2

/-- **The word that covers the cursor is the active one, and a cursor that no word covers has an
    empty token of its own**, unless the cursor stands inside a word between a backslash and the line
    break that is read together with it. -/
theorem fitsCursor_iff (line : String) (cursor : Nat) :
    FitsCursor (words line.toList) (clampCursor line cursor) (tokens line cursor) ↔
      ¬ (partsContinuation line cursor = true
        ∧ ∃ w ∈ words line.toList, w.Covers (clampCursor line cursor)) := by
  constructor
  · intro h hexc
    obtain ⟨hparts, w, hw, hc⟩ := hexc
    rw [h.not_parted hw hc] at hparts
    cases hparts
  · intro h
    unfold tokens
    rcases tokensAt_cases line.toList (clampCursor line cursor) with hcase | hcase
    · obtain ⟨pre, w, post, hws, hs, hnot, htok⟩ := hcase
      exact fitsCursor_of_hasStop hws hs hnot htok
    · obtain ⟨pre, post, hws, hnone, hpre, hpost, htok⟩ := hcase
      refine fitsCursor_of_not_covers hws (fun u hu hc => ?_) hpre hpost htok
      have hparts : partsContinuation line cursor = false :=
        Bool.eq_false_iff.mpr fun hp => h ⟨hp, u, hu, hc⟩
      exact hnone u hu (Word.token_active.mp ((token_active_iff hu).mpr ⟨hc, hparts⟩))

/-- **The exception does happen**: in `ab`, a backslash, a line break and `cd`, a cursor behind the
    backslash stands in the only word, and yet that word is not the active one. -/
theorem not_always_fitsCursor : ¬ ∀ (line : String) (cursor : Nat),
    FitsCursor (words line.toList) (clampCursor line cursor) (tokens line cursor) := by
  intro h
  have hparts : partsContinuation "ab\\\ncd" 3 = true := by decide
  obtain ⟨w, hw, hc⟩ : ∃ w ∈ words "ab\\\ncd".toList, w.Covers (clampCursor "ab\\\ncd" 3) := by
    decide
  rw [(h "ab\\\ncd" 3).not_parted hw hc] at hparts
  cases hparts

end TabCompletion.Line
