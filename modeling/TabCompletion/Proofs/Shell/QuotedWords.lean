import TabCompletion.Proofs.Shell.ReadBack
import TabCompletion.Proofs.Text.Joins
import TabCompletion.Shell.Hook

/-!
# Quoted words, read back

A hook writes the words it is given in single quotes. Whatever characters they have, a line of such
words is read as these words, the empty ones among them included.

* `writes_singleQuote`: a quoted word is read as one word;
* `wordTexts_joinWith_singleQuote`: the law for a line of them.
-/

namespace TabCompletion.Hook

open Text Line Shell

/-- The characters of a word in single quotes. -/
def quotedForm (cs : List Char) : List Char := '\'' :: cs.flatMap singleForm ++ ['\'']

/-- A quote in a word is written as it is when Bash has a single quote open. -/
theorem toList_singleQuote (word : String) :
    (singleQuote word).toList = quotedForm word.toList := by
  unfold singleQuote
  rw [String.toList_append, String.toList_append]
  exact congrArg (fun cs => '\'' :: cs ++ ['\'']) (toList_escapeBash_single word)

/-- **A quoted word is read as that word**, wherever in a line it stands outside quotes. -/
theorem writes_quotedForm (cs : List Char) : Scan.Writes (quotedForm cs) cs :=
  fun _ hm => spells_single_quoted hm cs

theorem writes_singleQuote (word : String) :
    Scan.Writes (singleQuote word).toList word.toList := by
  rw [toList_singleQuote]
  exact writes_quotedForm word.toList

/-- **Words that are quoted and put in a line with a space between neighbours are read back.** -/
theorem wordTexts_joinWith_singleQuote (ws : List String) (cursor : Nat) :
    wordTexts (joinWith " " (ws.map singleQuote)) cursor = ws := by
  have hwrites : List.Forall₂ Scan.Writes ((ws.map singleQuote).map String.toList)
      (ws.map String.toList) := by
    rw [List.map_map, List.forall₂_map_left_iff, List.forall₂_map_right_iff, List.forall₂_same]
    exact fun word _ => writes_singleQuote word
  have htexts : (words (joinWith " " (ws.map singleQuote)).toList).map (·.text)
      = ws.map String.toList := by
    rw [joinWith_eq_intercalate, String.toList_intercalate]
    exact map_text_words_intercalate hwrites rfl
  rw [wordTexts_eq_map_text, htexts, List.map_map]
  simp

/-- Quotes, backslashes and blanks come back, and so does an empty word. -/
example : wordTexts (joinWith " " (["it's", "", "a \\ b\n"].map singleQuote)) 3
    = ["it's", "", "a \\ b\n"] := by decide

end TabCompletion.Hook
