/-!
# Blanks

The characters with the Unicode property `White_Space`, and trimming by it. Shell words are
separated by blanks, and numbers and names read from the environment are trimmed first.
-/

namespace TabCompletion.Text

/-- The Unicode property `White_Space`. -/
def isBlank (c : Char) : Bool :=
  let n := c.toNat
  (9 ≤ n && n ≤ 13) || n == 0x20 || n == 0x85 || n == 0xA0 || n == 0x1680
    || (0x2000 ≤ n && n ≤ 0x200A) || n == 0x2028 || n == 0x2029 || n == 0x202F
    || n == 0x205F || n == 0x3000

example : isBlank '\u00A0' = true ∧ isBlank '\u200B' = false ∧ isBlank '\uFEFF' = false := by
  decide

/-- The text without its leading and trailing blanks. -/
def trim (s : String) : String :=
  String.ofList (((s.toList.dropWhile isBlank).reverse.dropWhile isBlank).reverse)

/-- Whether the text has no character other than blanks. -/
def isBlankText (s : String) : Bool :=
  s.toList.all isBlank

end TabCompletion.Text
