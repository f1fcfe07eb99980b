import TabCompletion.Proofs.Shell.ReadBack

/-!
# What PowerShell reads of an escaped value

A text is read sign by sign. Outside quotes and between double quotes a backtick and the character
behind it are one sign, which stands for that character; between single quotes two single quotes are
one sign, which stands for one of them. Every other character is a sign of its own.

* `Sign`, `signs?`: the signs of a text;
* `isActive`: the characters that have a meaning of their own unless they are part of a longer sign;
* `signs?_escapePowershell`: the signs of an escaped value, whatever follows it;
* `escapePowershell_read_back`: an escaped value is read back, and none of its signs is active.
-/

namespace TabCompletion.Shell

open Text Line

/-! ## 1. Reading -/

/-- What is read at once: a character that stands for itself, or one behind an escape. -/
inductive Sign where
  | bare (c : Char)
  | escaped (c : Char)
deriving DecidableEq, Repr

/-- The character that begins a longer sign. -/
def escapeOf : Quote → Char
  | .none | .double => '\x60'
  | .single => '\''

/-- The character that a sign stands for. -/
def Sign.char : Sign → Char
  | .bare c => c
  | .escaped c => c

/-- The characters of a sign. -/
def Sign.text (q : Quote) : Sign → List Char
  | .bare c => [c]
  | .escaped c => [escapeOf q, c]

/-- Whether a longer sign can go on with this character. A backtick takes any character, a single
    quote only another one. -/
def escapes : Quote → Char → Bool
  | .none, _ | .double, _ => true
  | .single, c => c = '\''

/-- The signs of a text. There are none if the text ends within a sign, or if a single quote stands
    alone between single quotes. -/
def signs? (q : Quote) : List Char → Option (List Sign)
  | [] => some []
  | [c] => if c = escapeOf q then none else some [.bare c]
  | c :: d :: cs =>
    if c = escapeOf q then
      if escapes q d then (signs? q cs).map (.escaped d :: ·) else none
    else (signs? q (d :: cs)).map (.bare c :: ·)

/-- What PowerShell reads where a quote is open. -/
def readPowershell? (q : Quote) (text : String) : Option String :=
  (signs? q text.toList).map fun signs => String.ofList (signs.map Sign.char)

/-- The characters with a meaning of their own: those that end a word or begin something else in it,
    those that end a string in double quotes or begin something else in it, and the quote that ends a
    string in single quotes. -/
def isActive : Quote → Char → Bool
  | .none, c => isPowershellSpecial c
  | .double, c => isPowershellDoubleSpecial c
  | .single, c => c = '\''

theorem signs?_bare {q : Quote} {c : Char} (hc : c ≠ escapeOf q) (cs : List Char) :
    signs? q (c :: cs) = (signs? q cs).map (.bare c :: ·) := by
  cases cs with
  | nil =>
    unfold signs?
    rw [if_neg hc]
    rfl
  | cons d cs =>
    rw [signs?, if_neg hc]

theorem signs?_escaped {q : Quote} {c : Char} (hc : escapes q c = true) (cs : List Char) :
    signs? q (escapeOf q :: c :: cs) = (signs? q cs).map (.escaped c :: ·) := by
  rw [signs?, if_pos rfl, if_pos hc]

/-- Nothing is lost between the signs. -/
theorem flatMap_text_of_signs? {q : Quote} {cs : List Char} {signs : List Sign}
    (h : signs? q cs = some signs) : signs.flatMap (Sign.text q) = cs := by
  fun_induction signs? q cs generalizing signs with
  | case1 => rw [← Option.some.inj h]; rfl
  | case2 => cases h
  | case3 => rw [← Option.some.inj h]; rfl
  | case4 d cs hd ih =>
    obtain ⟨rest, hrest, rfl⟩ := Option.map_eq_some_iff.mp h
    rw [List.flatMap_cons, ih hrest]
    rfl
  | case5 => cases h
  | case6 c d cs hc ih =>
    obtain ⟨rest, hrest, rfl⟩ := Option.map_eq_some_iff.mp h
    rw [List.flatMap_cons, ih hrest]
    rfl

/-! ## 2. Writing -/

/-- The sign that is written for a character. -/
def signOf (q : Quote) (c : Char) : Sign :=
  if isActive q c then .escaped c else .bare c

/-- **An escaped value is written sign by sign.** -/
theorem toList_escapePowershell (v : String) (q : Quote) :
    (escapePowershell v q).toList = (v.toList.map (signOf q)).flatMap (Sign.text q) := by
  have hsign : ∀ c, (signOf q c).text q = if isActive q c then [escapeOf q, c] else [c] := by
    intro c
    unfold signOf
    split <;> rfl
  rw [List.flatMap_map]
  simp only [hsign]
  cases q with
  | none => exact String.toList_ofList
  | double => exact String.toList_ofList
  | single =>
    -- here the escape is the escaped character itself
    refine String.toList_ofList.trans (List.flatMap_congr fun c _ => ?_)
    by_cases hc : c = '\''
    · subst hc
      rfl
    · simp [isActive, hc]

theorem escapes_of_isActive {q : Quote} {c : Char} (h : isActive q c = true) :
    escapes q c = true := by
  cases q with
  | none => rfl
  | double => rfl
  | single => exact h

theorem isActive_escapeOf (q : Quote) : isActive q (escapeOf q) = true := by
  cases q <;> rfl

/-- The sign that is written is read. -/
theorem signs?_signOf (q : Quote) (c : Char) (cs : List Char) :
    signs? q ((signOf q c).text q ++ cs) = (signs? q cs).map (signOf q c :: ·) := by
  unfold signOf
  split
  · rename_i hc
    exact signs?_escaped (escapes_of_isActive hc) cs
  · rename_i hc
    refine signs?_bare (fun he => hc ?_) cs
    rw [he]
    exact isActive_escapeOf q

/-- **The signs of an escaped value are read, and what follows is read as if it stood alone.** -/
theorem signs?_escapePowershell (v : String) (q : Quote) (rest : List Char) :
    signs? q ((escapePowershell v q).toList ++ rest)
      = (signs? q rest).map (v.toList.map (signOf q) ++ ·) := by
  rw [toList_escapePowershell]
  induction v.toList with
  | nil => exact Option.map_id'.symm
  | cons c cs ih =>
    rw [List.map_cons, List.flatMap_cons, List.append_assoc, signs?_signOf, ih, Option.map_map]
    rfl

theorem char_signOf (q : Quote) (c : Char) : (signOf q c).char = c := by
  unfold signOf
  split <;> rfl

/-- Only an inactive character is written as it is. -/
theorem isActive_of_signOf {q : Quote} {c d : Char} (h : signOf q c = .bare d) :
    isActive q d = false := by
  unfold signOf at h
  split at h
  · cases h
  · rename_i hc
    cases h
    exact Bool.eq_false_iff.mpr hc

/-! ## 3. Escaped values -/

/-- **An escaped value is read back, and it ends nothing.** Its signs stand for the characters of the
    value, no character with a meaning of its own is a sign alone, and the text behind the value is
    read on from the start of a sign. -/
theorem escapePowershell_read_back (v : String) (q : Quote) :
    readPowershell? q (escapePowershell v q) = some v
      ∧ ∃ signs, signs? q (escapePowershell v q).toList = some signs
        ∧ signs.flatMap (Sign.text q) = (escapePowershell v q).toList
        ∧ (∀ c, .bare c ∈ signs → isActive q c = false)
        ∧ ∀ rest, signs? q ((escapePowershell v q).toList ++ rest)
          = (signs? q rest).map (signs ++ ·) := by
  have hsigns : signs? q (escapePowershell v q).toList = some (v.toList.map (signOf q)) := by
    have h := signs?_escapePowershell v q []
    rw [List.append_nil] at h
    exact h.trans (congrArg some (List.append_nil _))
  refine ⟨?_, _, hsigns, flatMap_text_of_signs? hsigns, fun c hc => ?_,
    signs?_escapePowershell v q⟩
  · unfold readPowershell?
    rw [hsigns, Option.map_some, List.map_map]
    have hchars : v.toList.map (Sign.char ∘ signOf q) = v.toList :=
      List.map_id'' (char_signOf q) v.toList
    rw [hchars, String.ofList_toList]
  · obtain ⟨d, -, hd⟩ := List.mem_map.mp hc
    exact isActive_of_signOf hd

/-- A backtick in front of a blank, of a dollar sign and of itself. -/
example : readPowershell? .none "a\x60 b\x60$\x60\x60" = some "a b$\x60" := by decide

/-- A single quote alone ends a string in single quotes. -/
example : readPowershell? .single "it's" = none ∧ readPowershell? .single "it''s" = some "it's" := by
  decide

end TabCompletion.Shell
