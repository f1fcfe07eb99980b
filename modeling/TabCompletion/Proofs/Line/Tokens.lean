import TabCompletion.Proofs.Line.Cursor

/-!
# Tokens, words and the part of the line up to the cursor

Every word of a line gives one token, and a cursor that stands in no word has an empty token of its
own. What a cursor sees is found from the part of the line up to it.

* `insertGap_map_token`: where the empty token is put;
* `upTo`, `behind`: the parts of the line before and behind the cursor;
* `partsEscape`: whether the cursor stands between a backslash and the character that is read
  together with it;
* `sees_words`: if it does not, it sees what the scan has got to.
-/

namespace TabCompletion.Line

open Text

/-! ## 1. Tokens of words -/

variable {c : Nat} {w : Word}

@[simp] theorem Word.token_text (w : Word) (c : Nat) : (w.token c).text = String.ofList w.text := by
  unfold Word.token
  split <;> rfl

@[simp] theorem Word.token_start (w : Word) (c : Nat) : (w.token c).start = w.start := by
  unfold Word.token
  split <;> rfl

theorem Word.token_of_stop {st : Stop} (h : w.stopAt? c = some st) :
    w.token c =
      ⟨String.ofList w.text, w.start, w.stop, true, st.quote, String.ofList st.before.reverse⟩ := by
  unfold Word.token
  rw [h]

theorem Word.token_active_of_none (h : w.stopAt? c = none) : (w.token c).active = false := by
  unfold Word.token
  rw [h]

/-- The tokens of words in which the cursor does not stand are not active. -/
theorem active_of_no_stop {ws : List Word} (h : ∀ u ∈ ws, u.stopAt? c = none) :
    ∀ t ∈ ws.map (·.token c), t.active = false := by
  intro t ht
  obtain ⟨u, hu, rfl⟩ := List.mem_map.mp ht
  exact Word.token_active_of_none (h u hu)

theorem map_token_text (ws : List Word) (c : Nat) :
    (ws.map (·.token c)).map (·.text) = ws.map fun w => String.ofList w.text := by
  rw [List.map_map]
  exact List.map_congr_left fun w _ => w.token_text c

theorem insertGap_append {pre post : List Token} (hpre : ∀ t ∈ pre, t.start < c)
    (hpost : ∀ t ∈ post, c ≤ t.start) : insertGap c (pre ++ post) = pre ++ .gap c :: post := by
  induction pre with
  | nil =>
    cases post with
    | nil => rfl
    | cons t ts => exact if_pos (hpost t List.mem_cons_self)
  | cons t pre ih =>
    obtain ⟨ht, hpre⟩ := List.forall_mem_cons.mp hpre
    rw [List.cons_append, insertGap, if_neg (Nat.not_le_of_lt ht), ih hpre, List.cons_append]

/-- A cursor between the words of `pre` and of `post` has its empty token there. -/
theorem insertGap_map_token {pre post : List Word} (hpre : ∀ u ∈ pre, u.start < c)
    (hpost : ∀ u ∈ post, c ≤ u.start) :
    insertGap c ((pre ++ post).map (·.token c)) =
      pre.map (·.token c) ++ .gap c :: post.map (·.token c) := by
  rw [List.map_append]
  refine insertGap_append (fun t ht => ?_) fun t ht => ?_
  · obtain ⟨u, hu, rfl⟩ := List.mem_map.mp ht
    rw [Word.token_start]
    exact hpre u hu
  · obtain ⟨u, hu, rfl⟩ := List.mem_map.mp ht
    rw [Word.token_start]
    exact hpost u hu

/-! ## 2. The line up to the cursor -/

/-- The part of the line up to the cursor. -/
def upTo (line : String) (cursor : Nat) : String :=
  String.ofList (cutAt line.toList cursor).1

/-- The part of the line behind the cursor. -/
def behind (line : String) (cursor : Nat) : String :=
  String.ofList (cutAt line.toList cursor).2

theorem upTo_append_behind (line : String) (cursor : Nat) :
    upTo line cursor ++ behind line cursor = line := by
  unfold upTo behind
  rw [← String.ofList_append, cutAt_append, String.ofList_toList]

/-- The cursor stands at the end of that part. -/
theorem utf8ByteSize_upTo (line : String) (cursor : Nat) :
    (upTo line cursor).utf8ByteSize = clampCursor line cursor :=
  utf8ByteSize_cutAt _ _

/-- Whether the cursor stands between a backslash and the character that is read together with
    it. -/
def partsEscape (line : String) (cursor : Nat) : Bool :=
  (behind line cursor).toList.head?.any
    ((upTo line cursor).toList.foldl Scan.step Scan.start).joins

variable {line : String} {cursor : Nat}

/-- What the cursor sees of a line is what the scan has got to there. -/
theorem sees_words (h : partsEscape line cursor = false) :
    Sees (clampCursor line cursor) (words line.toList)
      ((upTo line cursor).toList.foldl Scan.step Scan.start).view := by
  unfold partsEscape at h
  have hsees := (Scan.tidy_run (upTo line cursor).toList).sees_tail h
  have hoff : ((upTo line cursor).toList.foldl Scan.step Scan.start).offset
      = clampCursor line cursor := by
    rw [Scan.run_offset, String.ofList_toList, utf8ByteSize_upTo]
    exact Nat.zero_add _
  rw [hoff, ← List.foldl_append, ← String.toList_append, upTo_append_behind] at hsees
  exact hsees

/-- Cut off at the cursor, the line is cut at its end, and nothing stands behind the cursor. -/
theorem cutAt_upTo (line : String) (cursor : Nat) :
    cutAt (upTo line cursor).toList (clampCursor line cursor) =
      ((upTo line cursor).toList, []) := by
  have h := cutAt_utf8ByteSize (upTo line cursor).toList
  rw [String.ofList_toList, utf8ByteSize_upTo] at h
  exact h

theorem upTo_upTo (line : String) (cursor : Nat) :
    upTo (upTo line cursor) (clampCursor line cursor) = upTo line cursor := by
  rw [upTo, cutAt_upTo, String.ofList_toList]

theorem partsEscape_upTo (line : String) (cursor : Nat) :
    partsEscape (upTo line cursor) (clampCursor line cursor) = false := by
  unfold partsEscape behind
  rw [cutAt_upTo, String.toList_ofList]
  rfl

end TabCompletion.Line
