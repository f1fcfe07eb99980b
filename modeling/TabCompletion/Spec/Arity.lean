/-!
# Arity

How many values an action takes.
-/

namespace TabCompletion

/-- The number of values of an action. -/
inductive Arity where
  | zero
  | one
  | exactly (n : Nat)
  | optional
  | zeroOrMore
  | oneOrMore
deriving DecidableEq, Repr, Inhabited

namespace Arity

/-- The least number of values. -/
def min : Arity → Nat
  | .zero | .optional | .zeroOrMore => 0
  | .one | .oneOrMore => 1
  | .exactly n => n

/-- The greatest number of values, if there is one. -/
def max? : Arity → Option Nat
  | .zero => some 0
  | .one | .optional => some 1
  | .exactly n => some n
  | .zeroOrMore | .oneOrMore => none

/-- Whether another value is taken after `consumed` ones. -/
def acceptsMore (a : Arity) (consumed : Nat) : Bool :=
  match a.max? with
  | none => true
  | some m => consumed < m

/-- Whether any value is taken. -/
def takesValue (a : Arity) : Bool :=
  a.max? != some 0

/-- Whether there is no greatest number of values. -/
def isVariadic (a : Arity) : Bool :=
  a.max?.isNone

/-- An action takes a value iff it takes a first one. -/
theorem acceptsMore_zero (a : Arity) : a.acceptsMore 0 = a.takesValue := by
  cases a with
  | exactly n => cases n <;> simp [acceptsMore, takesValue, max?]
  | _ => rfl

/-- Below its least number of values an action takes another one. -/
theorem acceptsMore_of_lt_min {a : Arity} {n : Nat} (h : n < a.min) : a.acceptsMore n = true := by
  cases a <;> simp_all [acceptsMore, min, max?]

end Arity

end TabCompletion
