import TabCompletion.Proofs.Completion.Tail
import TabCompletion.Proofs.Completion.Values
import TabCompletion.Proofs.Line.UnderCursor
import TabCompletion.Proofs.Walk.Verdict
import TabCompletion.Shell.Answer

/-!
# What is cut from a candidate at a word break

Bash replaces only the part of a word behind its last word break, so that the bytes up to there are
cut from every candidate. Nothing is lost by that, because every candidate starts with the word up
to the cursor.

* `wordPrefix_eq_typed`: what an outcome calls the word is the active token up to the cursor;
* `startsWith_wordPrefix`: every value starts with it;
* `exists_kept`: the bytes that are cut end at a character of it;
* `Lossless`, `wordbreaks_lossless`: what Bash keeps and what it is sent make up the value.
-/

namespace TabCompletion

open Text Line

variable {e : Engine} {host : Host} {root : Command} {line : String} {cursor : Nat}

/-! ## 1. The word up to the cursor -/

/-- **The word of an outcome is the active token up to the cursor.** -/
theorem wordPrefix_eq_typed (e : Engine) (host : Host) (root : Command) (line : String)
    (cursor : Nat) : ∃ before t after, tokens line cursor = before ++ t :: after ∧ t.active = true
      ∧ (∀ u ∈ before ++ after, u.active = false)
      ∧ (e.completeLine host root line cursor).wordPrefix = t.typed := by
  obtain ⟨before, t, after, htok, hact, hidle⟩ :=
    exists_active line.toList (clampCursor line cursor)
  refine ⟨before, t, after, htok, hact, hidle, ?_⟩
  have hwalk : Walk.ofLine root line cursor
      = Walk.ofView root ⟨before.map (·.text), t.typed, t.quote⟩ := by
    unfold Walk.ofLine tokens
    rw [htok]
    exact Walk.ofTokens_append root (fun u hu => hidle u (List.mem_append_left after hu)) hact
  have hfront : (e.completeLine host root line cursor).wordPrefix
      = (Walk.ofLine root line cursor).word.assignment.getD ""
        ++ (Walk.ofLine root line cursor).word.typed := rfl
  rw [hfront, hwalk]
  unfold Walk.ofView
  cases before.map (·.text) with
  | nil => exact String.empty_append
  | cons _ before => exact ParseState.resolve_whole _ _ _

/-- Without a check of its own the engine offers only what starts with the word. -/
theorem startsWith_wordPrefix (he : e.validator = none) {w : Walk} {c : Candidate}
    (hc : c ∈ (e.complete host w).candidates) :
    startsWith c.value (e.complete host w).wordPrefix = true := by
  have hv : c.value ∈ (e.complete host w).values := List.mem_map_of_mem hc
  obtain ⟨d, -, ha, hd⟩ := Engine.mem_values_complete_iff.mp hv
  have htyped : startsWith d.value w.word.typed = true := by
    unfold Engine.accepts at ha
    rw [he] at ha
    exact ha
  have hfront : (e.complete host w).wordPrefix = w.word.assignment.getD "" ++ w.word.typed := rfl
  rw [startsWith_iff] at htyped ⊢
  rw [← hd, hfront, String.toList_append, String.toList_append]
  exact (List.prefix_append_right_inj _).mpr htyped

/-! ## 2. The cut -/

/-- The bytes up to the last word break end at a character of the word. -/
theorem exists_kept (word wordbreaks : String) : ∃ kept : String, kept.toList <+: word.toList
    ∧ kept.utf8ByteSize = wordbreakOffset word wordbreaks := by
  refine ⟨String.ofList
    (word.toList.reverse.dropWhile fun c => !isWordbreak wordbreaks c).reverse, ?_, rfl⟩
  rw [String.toList_ofList]
  have hsuffix :=
    List.dropWhile_suffix (l := word.toList.reverse) fun c => !isWordbreak wordbreaks c
  exact List.reverse_suffix.mp (by rw [List.reverse_reverse]; exact hsuffix)

/-- The outcome is answered without loss. Every value starts with the word; and where no quote is
    open, the bytes of the word that Bash keeps are a text of their own, and with what is sent for a
    candidate they make up its value. -/
structure Lossless (r : ShellRequest) (o : Outcome) : Prop where
  starts : ∀ c ∈ o.candidates, startsWith c.value o.wordPrefix = true
  parts : o.quote = .none → ∃ (kept : String) (sent : Candidate → String),
    startsWith o.wordPrefix kept = true
      ∧ kept.utf8ByteSize = wordbreakOffset o.wordPrefix r.wordbreaks
      ∧ (∀ c ∈ o.candidates, kept ++ sent c = c.value
        ∧ dropBytes? (wordbreakOffset o.wordPrefix r.wordbreaks) c.value.toList
          = some (sent c).toList)
      ∧ r.encode o = joinWith r.separator (o.candidates.map fun c =>
          Shell.escapeBash (sent c) .none ++ if c.finished then r.ending o else "")

/-- The text of a candidate whose value is cut at a word break. -/
theorem item_of_kept {r : ShellRequest} {o : Outcome} {c : Candidate} {kept sent : String}
    (hr : r.shell = .bash) (hq : o.quote = .none)
    (hk : kept.utf8ByteSize = wordbreakOffset o.wordPrefix r.wordbreaks)
    (hv : kept ++ sent = c.value) :
    dropBytes? (wordbreakOffset o.wordPrefix r.wordbreaks) c.value.toList = some sent.toList
      ∧ r.item o c = Shell.escapeBash sent .none ++ if c.finished then r.ending o else "" := by
  have hdrop : dropBytes? (wordbreakOffset o.wordPrefix r.wordbreaks) c.value.toList
      = some sent.toList := by
    have h := dropBytes?_append kept.toList sent.toList
    rw [String.ofList_toList, ← String.toList_append, hv, hk] at h
    exact h
  refine ⟨hdrop, ?_⟩
  have hkept : r.keptBytes o = wordbreakOffset o.wordPrefix r.wordbreaks := by
    unfold ShellRequest.keptBytes
    rw [hr, hq]
    rfl
  have hcut : dropBytesOrAll (r.keptBytes o) c.value = sent := by
    unfold dropBytesOrAll
    rw [hkept, hdrop]
    exact String.ofList_toList
  unfold ShellRequest.item
  dsimp only
  rw [hcut, hr, hq]
  unfold Shell.render Shell.escape
  dsimp only
  split
  · rfl
  · exact String.append_empty.symm

/-- An outcome whose values start with the word is answered without loss. -/
theorem Lossless.of_starts {r : ShellRequest} {o : Outcome} (hr : r.shell = .bash)
    (h : ∀ c ∈ o.candidates, startsWith c.value o.wordPrefix = true) : Lossless r o := by
  refine ⟨h, fun hq => ?_⟩
  obtain ⟨kept, hfront, hk⟩ := exists_kept o.wordPrefix r.wordbreaks
  -- a value continues the word, and so it continues what is kept of the word
  have hsent : ∀ c : Candidate, ∃ sent : String, c ∈ o.candidates → kept ++ sent = c.value := by
    intro c
    by_cases hc : c ∈ o.candidates
    · obtain ⟨rest, hrest⟩ := hfront.trans (startsWith_iff.mp (h c hc))
      refine ⟨String.ofList rest, fun _ => String.ext ?_⟩
      rw [String.toList_append, String.toList_ofList, hrest]
    · exact ⟨"", fun hm => absurd hm hc⟩
  choose sent hsent using hsent
  refine ⟨kept, sent, startsWith_iff.mpr hfront, hk, fun c hc => ?_, ?_⟩
  · exact ⟨hsent c hc, (item_of_kept hr hq hk (hsent c hc)).1⟩
  · have hitems : o.candidates.map (r.item o) = o.candidates.map fun c =>
        Shell.escapeBash (sent c) .none ++ if c.finished then r.ending o else "" :=
      List.map_congr_left fun c hc => (item_of_kept hr hq hk (hsent c hc)).2
    have hend : r.shell.listTerminator = "" := by rw [hr]; rfl
    unfold ShellRequest.encode
    rw [hitems, hend, String.append_empty]

/-- **Stripping at word breaks loses nothing**: the word of an outcome is the active token up to the
    cursor, every value starts with it, and what Bash keeps of the word and what it is sent make up
    the value. -/
theorem wordbreaks_lossless (e : Engine) (he : e.validator = none) (host : Host) (root : Command)
    (line : String) (cursor : Nat) (r : ShellRequest) (hr : r.shell = .bash) :
    (∃ before t after, tokens line cursor = before ++ t :: after ∧ t.active = true
        ∧ (∀ u ∈ before ++ after, u.active = false)
        ∧ (e.completeLine host root line cursor).wordPrefix = t.typed)
      ∧ Lossless r (e.completeLine host root line cursor) :=
  ⟨wordPrefix_eq_typed e host root line cursor,
    .of_starts hr fun _ hc => startsWith_wordPrefix he hc⟩

/-- A program with one flag that takes a protocol. -/
def fetching : Command :=
  { Command.empty "fetch" with
    actions := [{ Action.flag ["--protocol"] with arity := .one, choices := ["http", "https"] }] }

/-- Of `--protocol=h` Bash keeps the part up to the equals sign, and it is sent the rest of the two
    values. -/
theorem wordbreaks_lossless_fetching :
    let r := ShellRequest.byHand .bash "fetch --protocol=h" 18
    let o := Engine.completeLine ⟨.default, none⟩ .bare fetching
      "fetch --protocol=h" 18
    r.shell = .bash ∧ Lossless r o ∧ o.wordPrefix = "--protocol=h"
      ∧ o.values = ["--protocol=http", "--protocol=https"]
      ∧ r.encode o = "http\x0bhttps" := by
  intro r o
  have h := wordbreaks_lossless ⟨.default, none⟩ rfl .bare fetching
    "fetch --protocol=h" 18 r rfl
  exact ⟨rfl, h.2, by decide, by decide, by decide⟩

end TabCompletion
