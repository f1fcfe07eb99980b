import TabCompletion.Text.Basic

/-!
# Joined texts and their parts

* `splitAll_joinWith`: parts that are joined at a separator none of them has are read back;
* `splitAll_append`: what stands behind the last separator is the last part;
* `mem_toList_replaceChar`, `mem_toList_escapeWith`: a replacement or an escape brings in no other
  characters than those it is made of;
* `endsInAny_append`: a text that is not empty ends the same behind another one.
-/

namespace TabCompletion.Text

variable {c d sep : Char} {s by_ : String}

/-! ## 1. Parts between separators -/

theorem joinWith_eq_intercalate (sep : String) (parts : List String) :
    joinWith sep parts = sep.intercalate parts := by
  induction parts with
  | nil => exact String.intercalate_nil.symm
  | cons s parts ih =>
    cases parts with
    | nil => exact String.intercalate_singleton.symm
    | cons t rest => rw [joinWith, ih, String.intercalate_cons_cons]

theorem splitAll_go (sep : Char) (part cs : List Char) : splitAll.go sep part cs =
    ((cs.splitOn sep).modifyHead (part.reverse ++ ·)).map String.ofList := by
  induction cs generalizing part with
  | nil => simp [splitAll.go]
  | cons c cs ih =>
    obtain ⟨first, rest, hparts⟩ := List.exists_cons_of_ne_nil (List.splitOn_ne_nil sep cs)
    rw [splitAll.go, List.splitOn_cons_eq_if_modifyHead]
    by_cases hc : c = sep
    · rw [if_pos hc, if_pos (beq_iff_eq.mpr hc), ih, hparts]
      simp
    · rw [if_neg hc, if_neg (mt beq_iff_eq.mp hc), ih, hparts]
      simp

theorem splitAll_eq_splitOn (sep : Char) (s : String) :
    splitAll sep s = (s.toList.splitOn sep).map String.ofList := by
  unfold splitAll
  rw [splitAll_go]
  exact congrArg (List.map String.ofList) (congrFun List.modifyHead_id _)

/-- **Parts without the separator are read back from the text they are joined to.** -/
theorem splitAll_joinWith {parts : List String} (hne : parts ≠ [])
    (hsep : ∀ s ∈ parts, sep ∉ s.toList) :
    splitAll sep (joinWith (String.singleton sep) parts) = parts := by
  have hchars : ∀ l ∈ parts.map String.toList, sep ∉ l := List.forall_mem_map.mpr hsep
  rw [splitAll_eq_splitOn, joinWith_eq_intercalate, String.toList_intercalate,
    String.toList_singleton,
    List.splitOn_intercalate sep hchars (mt List.map_eq_nil_iff.mp hne), List.map_map]
  simp

/-- What has no separator and stands behind one is a part of its own. -/
theorem splitAll_append {a b : String} (hb : sep ∉ b.toList) :
    splitAll sep (a ++ String.singleton sep ++ b) = splitAll sep a ++ [b] := by
  rw [splitAll_eq_splitOn, splitAll_eq_splitOn, String.toList_append, String.toList_append,
    String.toList_singleton, List.append_assoc, List.singleton_append,
    List.splitOn_append_cons_self, List.splitOn_eq_singleton hb, List.map_append]
  simp

/-! ## 2. The characters of a text -/

theorem mem_toList_replaceChar (h : d ∈ (replaceChar c by_ s).toList) :
    d ∈ by_.toList ∨ d ∈ s.toList ∧ d ≠ c := by
  unfold replaceChar at h
  rw [String.toList_ofList] at h
  obtain ⟨e, he, hd⟩ := List.mem_flatMap.mp h
  split at hd
  · exact .inl hd
  · rename_i hne
    obtain rfl := List.mem_singleton.mp hd
    exact .inr ⟨he, hne⟩

theorem mem_toList_escapeWith {escape : Char} {special : Char → Bool}
    (h : d ∈ (escapeWith escape special s).toList) : d = escape ∨ d ∈ s.toList := by
  unfold escapeWith at h
  rw [String.toList_ofList] at h
  obtain ⟨e, he, hd⟩ := List.mem_flatMap.mp h
  split at hd
  · rcases List.mem_cons.mp hd with rfl | hd
    · exact .inl rfl
    · exact .inr (List.mem_singleton.mp hd ▸ he)
  · exact .inr (List.mem_singleton.mp hd ▸ he)

/-! ## 3. The end of a text -/

theorem endsInAny_append (front : String) (h : s ≠ "") (ends : List Char) :
    endsInAny (front ++ s) ends = endsInAny s ends := by
  have hs : s.toList ≠ [] := mt String.toList_eq_nil_iff.mp h
  unfold endsInAny
  rw [String.toList_append, List.getLast?_append, List.getLast?_eq_some_getLast hs, Option.some_or]

end TabCompletion.Text
