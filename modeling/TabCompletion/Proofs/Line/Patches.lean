import TabCompletion.Proofs.Line.Scan
import TabCompletion.Proofs.Line.Spelling

/-!
# Words made of quoted and bare pieces

A word can be written in pieces, some in single quotes and some without, as long as nothing stands
between them. In a quoted piece every character is a letter; in a bare one a blank ends the word.

* `isLetter`: the characters without a meaning to the splitting of a line;
* `Scan.writes_letters`: a text of letters is read as it is;
* `Scan.finish_of_single`: a quote that stays open takes in the rest of the line;
* `patch`: a text that begins with a quoted piece and ends with one;
* `Scan.writes_patch`: without blanks in its bare pieces it is read as one word;
* `Scan.parts_patch`: with blanks in them it is read as several.
-/

namespace TabCompletion.Line

open Text

/-- A character that is read as a letter outside quotes unless it is a blank. -/
def isBare (c : Char) : Bool := c != '\\' && c != '\'' && c != '"'

/-- A character that is read as a letter outside quotes. -/
def isLetter (c : Char) : Bool := !isBlank c && isBare c

/-- A text in single quotes. -/
def inQuotes (q : List Char) : List Char := '\'' :: q ++ ['\'']

theorem isBare_iff {c : Char} : isBare c = true ↔ c ≠ '\\' ∧ c ≠ '\'' ∧ c ≠ '"' := by
  simp [isBare, and_assoc]

theorem isLetter_iff {c : Char} : isLetter c = true ↔ isBlank c = false ∧ isBare c = true := by
  simp [isLetter]

namespace Scan

variable {s t : Scan} {cs q : List Char} {c : Char}

/-! ## 1. Letters and blanks -/

theorem spells_letter (hm : s.mode = .plain) (hc : isLetter c = true) :
    Spells s .plain [c] (s.step c) := by
  obtain ⟨hb, hbare⟩ := isLetter_iff.mp hc
  obtain ⟨hs, h1, h2⟩ := isBare_iff.mp hbare
  exact spells_plain hm hb hs h1 h2

/-- Letters carry on a word in progress. -/
theorem spells_letters (hm : s.mode = .plain) (hs : s.draft.isSome = true)
    (hcs : ∀ c ∈ cs, isLetter c = true) : Spells s .plain cs (cs.foldl step s) := by
  have h : Spells s .plain (cs.flatMap fun c => [c]) ((cs.flatMap fun c => [c]).foldl step s) :=
    .flatMap (fun c hc s hs => spells_letter hs (hcs c hc)) hm hs
  rw [List.flatMap_singleton'] at h
  exact h

/-- **Letters are read as they are.** -/
theorem writes_letters (hne : cs ≠ []) (hcs : ∀ c ∈ cs, isLetter c = true) : Writes cs cs := by
  intro s hm
  cases cs with
  | nil => exact absurd rfl hne
  | cons c cs =>
    obtain ⟨hc, hcs⟩ := List.forall_mem_cons.mp hcs
    have hfirst := spells_letter hm hc
    exact hfirst.trans (spells_letters hfirst.mode hfirst.begun hcs)

/-- Between single quotes everything but a quote is read as it is. -/
theorem writes_inQuotes (hq : '\'' ∉ q) : Writes (inQuotes q) q := by
  intro s hm
  have hopen := spells_open_single hm
  have hall : Spells (s.step '\'') .single (q.flatMap fun c => [c])
      ((q.flatMap fun c => [c]).foldl step (s.step '\'')) :=
    .flatMap (fun c hc s hs => spells_single hs fun he => hq (he ▸ hc)) hopen.mode hopen.begun
  rw [List.flatMap_singleton'] at hall
  unfold inQuotes
  rw [List.cons_append, List.foldl_cons, List.foldl_append]
  have h := (hopen.trans hall).trans (spells_close_single hall.mode)
  simpa using h

/-- Finished words are never taken back. -/
theorem done_suffix_run (s : Scan) (cs : List Char) : s.done <:+ (cs.foldl step s).done := by
  induction cs generalizing s with
  | nil => exact List.suffix_rfl
  | cons c cs ih =>
    refine List.IsSuffix.trans ?_ (ih (s.step c))
    cases (s.step_reads c).advance with
    | keep _ hw => exact hw ▸ List.suffix_rfl
    | grow _ _ _ hw => exact hw ▸ List.suffix_rfl
    | close _ _ hw => exact hw ▸ List.suffix_cons _ _

theorem done_prefix_finish (s : Scan) : s.done.reverse <+: s.finish := by
  unfold finish
  dsimp only
  rw [settle_done]
  split
  · exact List.prefix_rfl
  · rw [List.reverse_cons]
    exact List.prefix_append _ _

theorem length_finish (hm : s.mode = .plain) (hs : s.draft.isSome = true) :
    s.finish.length = s.done.length + 1 := by
  obtain ⟨d, hd⟩ := Option.isSome_iff_exists.mp hs
  unfold finish
  dsimp only
  rw [settle_of_plain hm, hd]
  simp

/-- **A single quote that stays open takes in all that follows.** -/
theorem finish_of_single {m : Mode} (hm : s.mode = .single) (h : Spells t m cs s) :
    ∃ ws w, s.finish = ws ++ [w] ∧ cs <:+ w.text := by
  obtain ⟨d, hd⟩ := Option.isSome_iff_exists.mp h.begun
  have hdraft : s.letters = d.letters := by
    unfold letters
    rw [hd]
    rfl
  have hletters : d.letters.reverse = t.letters.reverse ++ cs := by
    rw [← hdraft, h.letters, List.reverse_append, List.reverse_reverse]
  have hsettle : s.settle = s := by
    unfold settle
    rw [hm]
  unfold finish
  dsimp only
  rw [hsettle, hd]
  exact ⟨s.done.reverse, _, List.reverse_cons, t.letters.reverse, hletters.symm⟩

/-- A blank finishes the word in progress. -/
theorem done_step_blank (hm : s.mode = .plain) (hs : s.draft.isSome = true)
    (hb : isBlank c = true) : (s.step c).done.length = s.done.length + 1 := by
  obtain ⟨offset, mode, draft, done⟩ := s
  subst hm
  obtain ⟨d, rfl⟩ := Option.isSome_iff_exists.mp hs
  unfold step stepPlain
  dsimp only
  rw [if_pos hb]
  rfl

/-- A bare text leaves the scan outside quotes. -/
theorem mode_run_bare (hm : s.mode = .plain) (hcs : ∀ c ∈ cs, isBare c = true) :
    (cs.foldl step s).mode = .plain := by
  induction cs generalizing s with
  | nil => exact hm
  | cons c cs ih =>
    obtain ⟨hc, hcs⟩ := List.forall_mem_cons.mp hcs
    refine ih ?_ hcs
    cases hb : isBlank c with
    | true => exact (spelled_blank hm hb).1
    | false => exact (spells_letter hm (isLetter_iff.mpr ⟨hb, hc⟩)).mode

/-- A text without single quotes leaves a single quote open. -/
theorem mode_run_single (hm : s.mode = .single) (hq : '\'' ∉ cs) :
    (cs.foldl step s).mode = .single := by
  induction cs generalizing s with
  | nil => exact hm
  | cons c cs ih =>
    obtain ⟨hc, hcs⟩ := not_or.mp (mt List.mem_cons.mpr hq)
    exact ih (spells_single hm (Ne.symm hc)).mode hcs

/-- A bare text with a blank finishes the word in progress. -/
theorem done_run_bare (hm : s.mode = .plain) (hs : s.draft.isSome = true)
    (hcs : ∀ c ∈ cs, isBare c = true) (hb : ∃ c ∈ cs, isBlank c = true) :
    s.done.length < (cs.foldl step s).done.length := by
  induction cs generalizing s with
  | nil =>
    obtain ⟨c, hc, -⟩ := hb
    cases hc
  | cons c cs ih =>
    obtain ⟨hc, hcs⟩ := List.forall_mem_cons.mp hcs
    rw [List.foldl_cons]
    cases hbc : isBlank c with
    | true =>
      have hfirst := done_step_blank hm hs hbc
      have hrest := (done_suffix_run (s.step c) cs).length_le
      omega
    | false =>
      have hfirst := spells_letter hm (isLetter_iff.mpr ⟨hbc, hc⟩)
      obtain ⟨d, hd, hbd⟩ := hb
      have hd : d ∈ cs := (List.mem_cons.mp hd).resolve_left fun he => by
        rw [he, hbc] at hbd
        cases hbd
      have hrest := ih hfirst.mode hfirst.begun hcs ⟨d, hd, hbd⟩
      rw [hfirst.done] at hrest
      exact hrest

end Scan

/-! ## 2. Pieces -/

/-- A quoted piece, and then by turns a bare and a quoted one. -/
def patch (q : List Char) (pieces : List (List Char × List Char)) : List Char :=
  inQuotes q ++ pieces.flatMap fun p => p.1 ++ inQuotes p.2

theorem patch_cons (q bare q' : List Char) (pieces : List (List Char × List Char)) :
    patch q ((bare, q') :: pieces) = inQuotes q ++ (bare ++ patch q' pieces) := by
  unfold patch
  rw [List.flatMap_cons, List.append_assoc bare]

namespace Scan

variable {s t : Scan} {q : List Char} {pieces : List (List Char × List Char)}

/-- **Where the bare pieces are made of letters, all pieces together are one word.** -/
theorem writes_patch (hq : '\'' ∉ q) (hquoted : ∀ p ∈ pieces, '\'' ∉ p.2)
    (hbare : ∀ p ∈ pieces, ∀ c ∈ p.1, isLetter c = true) :
    Writes (patch q pieces) (q ++ pieces.flatMap fun p => p.1 ++ p.2) := by
  intro s hm
  induction pieces generalizing q s with
  | nil =>
    have h := writes_inQuotes hq s hm
    simpa [patch] using h
  | cons p pieces ih =>
    obtain ⟨bare, q'⟩ := p
    obtain ⟨hq', hquoted⟩ := List.forall_mem_cons.mp hquoted
    obtain ⟨hletters, hbare⟩ := List.forall_mem_cons.mp hbare
    rw [patch_cons, List.foldl_append, List.foldl_append, List.flatMap_cons, List.append_assoc]
    have hfirst := writes_inQuotes hq s hm
    have hsecond := spells_letters hfirst.mode hfirst.begun hletters
    exact hfirst.trans (hsecond.trans (ih hq' hquoted hbare _ hsecond.mode))

/-- From `s` to `t` words have been finished, at least one of them if `broken`, and a word is in
    progress outside quotes. -/
structure Parts (s : Scan) (broken : Prop) (t : Scan) : Prop where
  mode : t.mode = .plain
  begun : t.draft.isSome = true
  done : s.done.length ≤ t.done.length
  breaks : broken → s.done.length < t.done.length

/-- **A blank in a bare piece breaks the word.** -/
theorem parts_patch (hm : s.mode = .plain) (hq : '\'' ∉ q) (hquoted : ∀ p ∈ pieces, '\'' ∉ p.2)
    (hbare : ∀ p ∈ pieces, ∀ c ∈ p.1, isBare c = true) :
    Parts s (∃ p ∈ pieces, ∃ c ∈ p.1, isBlank c = true) ((patch q pieces).foldl step s) := by
  induction pieces generalizing q s with
  | nil =>
    have h := writes_inQuotes hq s hm
    have hpatch : patch q [] = inQuotes q := List.append_nil _
    rw [hpatch]
    refine ⟨h.mode, h.begun, Nat.le_of_eq (by rw [h.done]), fun hb => ?_⟩
    obtain ⟨p, hp, -⟩ := hb
    cases hp
  | cons p pieces ih =>
    obtain ⟨bare, q'⟩ := p
    obtain ⟨hq', hquoted⟩ := List.forall_mem_cons.mp hquoted
    obtain ⟨hchars, hbare⟩ := List.forall_mem_cons.mp hbare
    have hfirst := writes_inQuotes hq s hm
    have hmode := mode_run_bare hfirst.mode hchars
    have hdone := (done_suffix_run ((inQuotes q).foldl step s) bare).length_le
    have hrest := ih hmode hq' hquoted hbare
    rw [hfirst.done] at hdone
    rw [patch_cons, List.foldl_append, List.foldl_append]
    refine ⟨hrest.mode, hrest.begun, Nat.le_trans hdone hrest.done, fun hb => ?_⟩
    obtain ⟨p, hp, hblank⟩ := hb
    rcases List.mem_cons.mp hp with rfl | hp
    · have hbreak := done_run_bare hfirst.mode hfirst.begun hchars hblank
      rw [hfirst.done] at hbreak
      exact Nat.lt_of_lt_of_le hbreak hrest.done
    · exact Nat.lt_of_le_of_lt hdone (hrest.breaks ⟨p, hp, hblank⟩)

end Scan

end TabCompletion.Line
