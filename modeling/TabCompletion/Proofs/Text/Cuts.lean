import TabCompletion.Text.Basic
import TabCompletion.Text.Numeral

/-!
# Cuts at a separator, and the characters of a number

* `splitOnce_eq_some_iff`: a cut at the first separator gives the parts before and behind it, and
  the part before holds no separator;
* `splitAfterLast_append`, `exists_splitAfterLast`: a cut behind the last separator;
* `equals_not_mem_of_isFloatLiteral`: a floating-point literal has no equals sign, so that no
  word with an assigned value is a number;
* `length_le_utf8ByteSize`: a text of one byte is a single character;
* `dropBytes?_append`: a text from the end of one of its beginnings on;
* `cutAt`: the cut at a byte, moved back to a character boundary.
-/

namespace TabCompletion.Text

/-! ## 1. The first separator -/

theorem splitOnce_go_of_not_mem {sep : Char} {before l r : List Char} (h : sep ∉ l) :
    splitOnce.go sep before (l ++ sep :: r) =
      some (String.ofList (before.reverse ++ l), String.ofList r) := by
  induction l generalizing before with
  | nil => simp [splitOnce.go]
  | cons c l ih =>
    obtain ⟨hc, hl⟩ := not_or.mp (mt List.mem_cons.mpr h)
    rw [List.cons_append, splitOnce.go, if_neg (Ne.symm hc), ih hl]
    simp

theorem splitOnce_go_eq_none {sep : Char} {before cs : List Char} (h : sep ∉ cs) :
    splitOnce.go sep before cs = none := by
  induction cs generalizing before with
  | nil => rfl
  | cons c cs ih =>
    obtain ⟨hc, hl⟩ := not_or.mp (mt List.mem_cons.mpr h)
    rw [splitOnce.go, if_neg (Ne.symm hc), ih hl]

/-- A text is cut iff it has the separator. -/
theorem splitOnce_eq_none_iff {sep : Char} {s : String} :
    splitOnce sep s = none ↔ sep ∉ s.toList := by
  refine ⟨fun h hm => ?_, splitOnce_go_eq_none⟩
  obtain ⟨l, r, hs, hl⟩ := List.eq_append_cons_of_mem hm
  unfold splitOnce at h
  rw [hs, splitOnce_go_of_not_mem hl] at h
  cases h

/-- A text is cut at its first separator. -/
theorem splitOnce_eq_some_iff {sep : Char} {s a b : String} :
    splitOnce sep s = some (a, b) ↔
      s.toList = a.toList ++ sep :: b.toList ∧ sep ∉ a.toList := by
  constructor
  · intro h
    by_cases hm : sep ∈ s.toList
    · obtain ⟨l, r, hs, hl⟩ := List.eq_append_cons_of_mem hm
      unfold splitOnce at h
      rw [hs, splitOnce_go_of_not_mem hl] at h
      cases h
      simp only [List.reverse_nil, List.nil_append, String.toList_ofList]
      exact ⟨hs, hl⟩
    · rw [splitOnce_eq_none_iff.mpr hm] at h
      cases h
  · intro h
    obtain ⟨hs, ha⟩ := h
    unfold splitOnce
    rw [hs, splitOnce_go_of_not_mem ha]
    simp

/-- A text without the separator is cut off from what stands behind one. -/
theorem splitOnce_append {sep : Char} {a : String} (h : sep ∉ a.toList) (b : String) :
    splitOnce sep (a ++ String.singleton sep ++ b) = some (a, b) := by
  refine splitOnce_eq_some_iff.mpr ⟨?_, h⟩
  rw [String.toList_append, String.toList_append, String.toList_singleton, List.append_assoc,
    List.singleton_append]

/-! ## 2. The last separator -/

/-- A text that is empty or ends with the separator. -/
def Closed (sep : Char) (s : String) : Prop := s = "" ∨ ∃ t, s = t ++ String.singleton sep

/-- What has no separator and stands behind one is cut off. -/
theorem splitAfterLast_append {sep : Char} {a b : String} (ha : Closed sep a)
    (hb : sep ∉ b.toList) : splitAfterLast sep (a ++ b) = (a, b) := by
  have hletters : ∀ c ∈ b.toList.reverse, (c != sep) = true := by
    intro c hc
    refine bne_iff_ne.mpr fun he => hb ?_
    exact he ▸ List.mem_reverse.mp hc
  have hstop : a.toList.reverse.takeWhile (· != sep) = []
      ∧ a.toList.reverse.dropWhile (· != sep) = a.toList.reverse := by
    rcases ha with rfl | ⟨t, rfl⟩
    · exact ⟨rfl, rfl⟩
    · simp
  unfold splitAfterLast
  dsimp only
  rw [String.toList_append, List.reverse_append, List.takeWhile_append_of_pos hletters,
    List.dropWhile_append_of_pos hletters, hstop.1, hstop.2]
  simp

/-- Every text has such a cut. -/
theorem exists_splitAfterLast (sep : Char) (s : String) :
    ∃ a b, s = a ++ b ∧ Closed sep a ∧ sep ∉ b.toList := by
  by_cases hm : sep ∈ s.toList.reverse
  · obtain ⟨l, r, hs, hl⟩ := List.eq_append_cons_of_mem hm
    have hs : s.toList = r.reverse ++ [sep] ++ l.reverse := by
      rw [← List.reverse_reverse s.toList, hs]
      simp
    refine ⟨String.ofList r.reverse ++ String.singleton sep, String.ofList l.reverse, ?_,
      .inr ⟨_, rfl⟩, ?_⟩
    · apply String.ext
      rw [hs]
      simp
    · rw [String.toList_ofList]
      exact mt List.mem_reverse.mp hl
  · exact ⟨"", s, String.empty_append.symm, .inl rfl, mt List.mem_reverse.mpr hm⟩

/-! ## 3. Numbers -/

theorem isDigit_of_digits? {cs : List Char} {n m : Nat} (h : digits? n cs = some m) :
    ∀ c ∈ cs, c.isDigit = true := by
  induction cs generalizing n with
  | nil => exact fun _ hc => absurd hc List.not_mem_nil
  | cons c cs ih =>
    unfold digits? at h
    split at h
    · rename_i hc
      exact List.forall_mem_cons.mpr ⟨hc, ih h⟩
    · cases h

theorem equals_not_mem_of_someDigits? {cs : List Char} (h : (someDigits? cs).isSome = true) :
    '=' ∉ cs := by
  obtain ⟨m, hm⟩ := Option.isSome_iff_exists.mp h
  cases cs with
  | nil => exact List.not_mem_nil
  | cons c cs => exact fun he => absurd (isDigit_of_digits? hm _ he) (by decide)

theorem equals_mem_afterSign {cs : List Char} (h : '=' ∈ cs) : '=' ∈ afterSign cs := by
  unfold afterSign
  split <;> simp_all

theorem equals_not_mem_of_isExponentPart {cs : List Char} (h : isExponentPart cs = true) :
    '=' ∉ cs := by
  cases cs with
  | nil => exact List.not_mem_nil
  | cons c cs =>
    unfold isExponentPart at h
    obtain ⟨hc, hd⟩ := (Bool.and_eq_true_iff).mp h
    intro he
    rcases List.mem_cons.mp he with rfl | he
    · cases hc
    · exact equals_not_mem_of_someDigits? hd (equals_mem_afterSign he)

theorem equals_mem_dropWhile_isDigit {cs : List Char} (h : '=' ∈ cs) :
    '=' ∈ cs.dropWhile Char.isDigit := by
  rw [← List.takeWhile_append_dropWhile (p := Char.isDigit) (l := cs), List.mem_append] at h
  refine h.resolve_left fun ht => ?_
  have ha := List.all_eq_true.mp (List.all_takeWhile (p := Char.isDigit) (l := cs)) _ ht
  cases ha

theorem equals_not_mem_of_isDecimalNumber {cs : List Char} (h : isDecimalNumber cs = true) :
    '=' ∉ cs := by
  intro he
  have hd := equals_mem_dropWhile_isDigit he
  unfold isDecimalNumber at h
  split at h
  · rename_i rest heq
    rw [heq] at hd
    have hr : '=' ∈ rest := (List.mem_cons.mp hd).resolve_left (by decide)
    exact equals_not_mem_of_isExponentPart ((Bool.and_eq_true_iff).mp h).2
      (equals_mem_dropWhile_isDigit hr)
  · exact equals_not_mem_of_isExponentPart ((Bool.and_eq_true_iff).mp h).2 hd

/-- No floating-point literal has an equals sign. -/
theorem equals_not_mem_of_isFloatLiteral {cs : List Char} (h : isFloatLiteral cs = true) :
    '=' ∉ cs := by
  intro he
  have hb := equals_mem_afterSign he
  have hname : '=' ∈ (afterSign cs).map Char.toLower := List.mem_map.mpr ⟨'=', hb, rfl⟩
  unfold isFloatLiteral at h
  simp only [Bool.or_eq_true, decide_eq_true_eq] at h
  rcases h with ((h | h) | h) | h
  · exact equals_not_mem_of_isDecimalNumber h hb
  -- the names of infinity and of the undefined value are spelt with letters alone
  all_goals
    rw [h] at hname
    revert hname
    decide

/-! ## 4. Bytes -/

/-- The size of a text is the size of its characters. -/
theorem utf8ByteSize_ofList_cons (c : Char) (cs : List Char) :
    (String.ofList (c :: cs)).utf8ByteSize = c.utf8Size + (String.ofList cs).utf8ByteSize := by
  have h : String.ofList (c :: cs) = String.singleton c ++ String.ofList cs := by
    rw [String.singleton_eq_ofList, ← String.ofList_append]
    rfl
  rw [h, String.utf8ByteSize_append, String.utf8ByteSize_singleton]

theorem utf8ByteSize_ofList_append (cs ds : List Char) : (String.ofList (cs ++ ds)).utf8ByteSize
    = (String.ofList cs).utf8ByteSize + (String.ofList ds).utf8ByteSize := by
  rw [String.ofList_append, String.utf8ByteSize_append]

theorem utf8ByteSize_replicate (n : Nat) (c : Char) :
    (String.ofList (List.replicate n c)).utf8ByteSize = n * c.utf8Size := by
  induction n with
  | zero => exact (Nat.zero_mul _).symm
  | succ n ih => rw [List.replicate_succ, utf8ByteSize_ofList_cons, ih, Nat.succ_mul, Nat.add_comm]

/-- No text has fewer bytes than characters. -/
theorem length_le_utf8ByteSize (s : String) : s.length ≤ s.utf8ByteSize := by
  rw [← String.ofList_toList (s := s), String.length_ofList]
  induction s.toList with
  | nil => exact Nat.zero_le _
  | cons c cs ih =>
    have hc := c.utf8Size_pos
    rw [utf8ByteSize_ofList_cons, List.length_cons]
    omega

/-- Dropping the bytes of a beginning leaves the rest. -/
theorem dropBytes?_append (l r : List Char) :
    dropBytes? (String.ofList l).utf8ByteSize (l ++ r) = some r := by
  induction l with
  | nil =>
    have h : (String.ofList []).utf8ByteSize = 0 := rfl
    rw [h, List.nil_append]
    cases r <;> rfl
  | cons c l ih =>
    obtain ⟨k, hk⟩ := Nat.exists_eq_add_of_lt c.utf8Size_pos
    have hsize : (String.ofList (c :: l)).utf8ByteSize
        = (k + (String.ofList l).utf8ByteSize) + 1 := by
      rw [utf8ByteSize_ofList_cons]
      omega
    have hrest : k + (String.ofList l).utf8ByteSize + 1 - c.utf8Size
        = (String.ofList l).utf8ByteSize := by omega
    rw [hsize, List.cons_append, dropBytes?, if_pos (by omega), hrest, ih]

/-- The characters of a text from a byte on are characters of the text. -/
theorem mem_of_dropBytes? {d : Char} {n : Nat} {cs rest : List Char}
    (h : dropBytes? n cs = some rest) (hd : d ∈ rest) : d ∈ cs := by
  induction cs generalizing n with
  | nil =>
    cases n with
    | zero => exact Option.some.inj h ▸ hd
    | succ n => cases h
  | cons c cs ih =>
    cases n with
    | zero => exact Option.some.inj h ▸ hd
    | succ n =>
      unfold dropBytes? at h
      split at h
      · exact List.mem_cons_of_mem c (ih h)
      · cases h

/-! ## 5. The part up to a byte -/

/-- The text cut at the greatest character boundary that is at most `n`. -/
def cutAt : List Char → Nat → List Char × List Char
  | [], _ => ([], [])
  | c :: cs, n =>
    if c.utf8Size ≤ n then (c :: (cutAt cs (n - c.utf8Size)).1, (cutAt cs (n - c.utf8Size)).2)
    else ([], c :: cs)

/-- Nothing is lost at the cut. -/
theorem cutAt_append (cs : List Char) (n : Nat) : (cutAt cs n).1 ++ (cutAt cs n).2 = cs := by
  induction cs generalizing n with
  | nil => rfl
  | cons c cs ih =>
    unfold cutAt
    split
    · rw [List.cons_append, ih]
    · rfl

/-- The first part ends at the boundary. -/
theorem utf8ByteSize_cutAt (cs : List Char) (n : Nat) :
    (String.ofList (cutAt cs n).1).utf8ByteSize = floorBoundary cs n := by
  induction cs generalizing n with
  | nil => rfl
  | cons c cs ih =>
    unfold cutAt floorBoundary
    split
    · rw [utf8ByteSize_ofList_cons, ih]
    · rfl

/-- At the end of a text nothing is cut off. -/
theorem cutAt_utf8ByteSize (cs : List Char) :
    cutAt cs (String.ofList cs).utf8ByteSize = (cs, []) := by
  induction cs with
  | nil => rfl
  | cons c cs ih =>
    unfold cutAt
    rw [utf8ByteSize_ofList_cons, if_pos (Nat.le_add_right _ _), Nat.add_sub_cancel_left, ih]

end TabCompletion.Text
