import TabCompletion.Completion.Engine
import TabCompletion.Proofs.Line.Tokens

/-!
# The text behind the cursor

Only the text up to the cursor is completed. The walk over a line reads nothing of its tokens but
what the cursor sees, and that is the same for the line and for its part up to the cursor.

* `Walk.ofView`: the walk, from what the cursor sees;
* `Walk.ofLine_eq_ofView`: it is the walk over the tokens of the line;
* `tail_irrelevant`: cutting the line off at the cursor changes no completion, unless the cut parts
  a backslash from the character that is read together with it.
-/

namespace TabCompletion

open Text Line

/-! ## 1. Walks and views -/

namespace Walk

/-- The walk to the word under the cursor, from what the cursor sees. -/
def ofView (root : Command) (v : View) : Walk :=
  match v.before with
  | [] => ⟨.start root, ⟨v.typed, none, v.quote, .none⟩⟩
  | _ :: before =>
    let state := (ParseState.start root).consumeAll before
    ⟨state, state.resolve v.typed v.quote⟩

theorem splitActive?_append {before after : List Token} {active : Token}
    (hb : ∀ t ∈ before, t.active = false) (ha : active.active = true) :
    splitActive? (before ++ active :: after) = some (before, active) := by
  induction before with
  | nil => exact if_pos ha
  | cons t before ih =>
    obtain ⟨ht, hb⟩ := List.forall_mem_cons.mp hb
    rw [List.cons_append, splitActive?, if_neg (by rw [ht]; decide), ih hb]
    rfl

/-- A walk reads the texts of the tokens before the active one, and of that one its text up to the
    cursor and its quote. -/
theorem ofTokens_append (root : Command) {before after : List Token} {active : Token}
    (hb : ∀ t ∈ before, t.active = false) (ha : active.active = true) :
    ofTokens root (before ++ active :: after) =
      ofView root ⟨before.map (·.text), active.typed, active.quote⟩ := by
  unfold ofTokens
  rw [splitActive?_append hb ha]
  cases before with
  | nil => rfl
  | cons t before => rfl

/-- **The walk over the tokens of a line is the walk from what the cursor sees.** -/
theorem ofTokens_eq_ofView (root : Command) {line : List Char} {c : Nat} {v : View}
    (h : Sees c (words line) v) : ofTokens root (tokensAt line c) = ofView root v := by
  unfold tokensAt
  dsimp only
  rcases h with h | h
  · obtain ⟨pre, w, post, st, hws, hpre, hw, rfl⟩ := h
    have hactive : (w.token c).active = true := by rw [Word.token_of_stop hw]
    have hany : ((pre ++ w :: post).map (·.token c)).any (·.active) = true :=
      List.any_eq_true.mpr ⟨w.token c, List.mem_map_of_mem (by simp), hactive⟩
    rw [hws, if_pos hany, List.map_append, List.map_cons,
      ofTokens_append root (active_of_no_stop hpre) hactive, map_token_text, Word.token_of_stop hw]
    rfl
  · obtain ⟨pre, post, hws, hpre, hpost, hnone, rfl⟩ := h
    rw [hws] at hnone ⊢
    have hany : ((pre ++ post).map (·.token c)).any (·.active) = false := by
      refine List.any_eq_false.mpr fun t ht => ?_
      rw [active_of_no_stop hnone t ht]
      decide
    have hin : ∀ u ∈ pre, u.stopAt? c = none := fun u hu => hnone u (List.mem_append_left _ hu)
    rw [hany, if_neg (by decide), insertGap_map_token hpre hpost,
      ofTokens_append root (active_of_no_stop hin) rfl, map_token_text]
    rfl

end Walk

/-! ## 2. The tail does not matter -/

namespace Walk

/-- **The walk over a line, from what the scan has got to at the cursor.** -/
theorem ofLine_eq_ofView (root : Command) {line : String} {cursor : Nat}
    (h : partsEscape line cursor = false) :
    ofLine root line cursor =
      ofView root ((upTo line cursor).toList.foldl Scan.step Scan.start).view :=
  ofTokens_eq_ofView root (sees_words h)

end Walk

/-- **The text behind the cursor never influences completion**: cut off at the cursor, the line is
    walked to the same state and the same word, and completed to the same outcome. Only a cut that
    parts a backslash from the character that is read together with it is excepted. -/
theorem tail_irrelevant (e : Engine) (host : Host) (root : Command) (line : String) (cursor : Nat)
    (h : partsEscape line cursor = false) :
    Walk.ofLine root line cursor = Walk.ofLine root (upTo line cursor) (clampCursor line cursor)
      ∧ e.completeLine host root line cursor
        = e.completeLine host root (upTo line cursor) (clampCursor line cursor) := by
  have hwalk : Walk.ofLine root line cursor
      = Walk.ofLine root (upTo line cursor) (clampCursor line cursor) := by
    rw [Walk.ofLine_eq_ofView root h, Walk.ofLine_eq_ofView root (partsEscape_upTo line cursor),
      upTo_upTo]
  refine ⟨hwalk, ?_⟩
  unfold Engine.completeLine
  rw [hwalk]

/-- A program with one flag, which takes a value. -/
def painting : Command :=
  { Command.empty "paint" with actions := [{ Action.flag ["--ink"] with arity := .one }] }

/-- In front of the blank inside the quotes only `paint --ink "re` counts. -/
theorem tail_irrelevant_in_quotes :
    partsEscape "paint --ink \"re d\" x" 15 = false
      ∧ Walk.ofLine painting "paint --ink \"re d\" x" 15 =
        Walk.ofLine painting "paint --ink \"re" 15 := by
  have hcut : partsEscape "paint --ink \"re d\" x" 15 = false := by decide
  have hup : upTo "paint --ink \"re d\" x" 15 = "paint --ink \"re" := by decide
  have hc : clampCursor "paint --ink \"re d\" x" 15 = 15 := by decide
  have h := tail_irrelevant ⟨.default, none⟩ .bare painting
    "paint --ink \"re d\" x" 15 hcut
  rw [hup, hc] at h
  exact ⟨hcut, h.1⟩

-- behind a backslash the tail does matter: the blank is escaped, the end of the line is not
example : (Walk.ofLine painting "paint a\\ b" 8).word.typed = "a"
    ∧ (Walk.ofLine painting "paint a\\" 8).word.typed = "a\\" := by
  decide

end TabCompletion
