/-!
# Sets of characters given by ranges

A Unicode property is a list of ranges of code points in ascending order. Membership is found by
halving the table.
-/

namespace TabCompletion.Text

/-- Ranges of code points, both ends included, in ascending order. -/
abbrev CodeRanges := Array (Nat × Nat)

namespace CodeRanges

/-- Look for `n` among the ranges at the places `lo` to `hi - 1`. Each turn halves their number,
    so that `fuel` turns decide among fewer than `2 ^ fuel` ranges. -/
def search (t : CodeRanges) (n : Nat) : Nat → Nat → Nat → Bool
  | 0, _, _ => false
  | fuel + 1, lo, hi =>
    if lo < hi then
      let mid := (lo + hi) / 2
      match t[mid]? with
      | none => false
      | some (first, last) =>
        if n < first then search t n fuel lo mid
        else if last < n then search t n fuel (mid + 1) hi
        else true
    else false

/-- Whether the code point lies in one of the ranges. -/
def has (t : CodeRanges) (n : Nat) : Bool :=
  t.search n (t.size + 1).log2.succ 0 t.size

example : has #[(1, 3), (5, 5), (8, 9)] 3 = true ∧ has #[(1, 3), (5, 5), (8, 9)] 4 = false
    ∧ has #[(1, 3), (5, 5), (8, 9)] 9 = true ∧ has #[] 0 = false := by
  decide

end CodeRanges

end TabCompletion.Text
