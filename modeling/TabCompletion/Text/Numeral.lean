/-!
# Numbers as text

* `nat?` and `int?` read whole numbers written with ASCII digits and an optional sign.
* `hexNumber?` reads hexadecimal digits.
* `isFloatLiteral` recognises the texts that name a floating-point number.
-/

namespace TabCompletion.Text

/-! ## 1. Whole numbers -/

/-- The numbers that a machine word holds are below this bound. -/
def wordBound : Nat := Nat.pow 2 64

/-- The signed numbers of half a machine word are below this bound. -/
def halfWordBound : Nat := Nat.pow 2 31

/-- The number written by a list of ASCII digits, read onto `n`. -/
def digits? (n : Nat) : List Char → Option Nat
  | [] => some n
  | c :: cs => if c.isDigit then digits? (10 * n + (c.toNat - '0'.toNat)) cs else none

/-- The number written by at least one ASCII digit. -/
def someDigits? : List Char → Option Nat
  | [] => none
  | c :: cs => digits? 0 (c :: cs)

/-- A number without sign or with a plus sign, if it is below `bound`. -/
def nat? (bound : Nat) (s : String) : Option Nat :=
  let unsigned := match s.toList with
    | '+' :: cs => cs
    | cs => cs
  (someDigits? unsigned).filter (· < bound)

/-- A number with an optional sign, if it is at least `-bound` and below `bound`. -/
def int? (bound : Nat) (s : String) : Option Int :=
  match s.toList with
  | '-' :: cs => ((someDigits? cs).filter (· ≤ bound)).map fun n => -(n : Int)
  | '+' :: cs => ((someDigits? cs).filter (· < bound)).map fun n => (n : Int)
  | cs => ((someDigits? cs).filter (· < bound)).map fun n => (n : Int)

example : nat? 100 "+42" = some 42 ∧ nat? 100 "100" = none ∧ nat? 100 "-1" = none
    ∧ nat? 100 "" = none ∧ nat? 100 "+" = none := by decide

example : int? 8 "-8" = some (-8) ∧ int? 8 "8" = none ∧ int? 8 "+7" = some 7
    ∧ int? 8 "-" = none := by decide

/-! ## 2. Hexadecimal numbers -/

/-- The value of a hexadecimal digit of either case. -/
def hexValue? (c : Char) : Option Nat :=
  if c.isDigit then some (c.toNat - '0'.toNat)
  else if 'a' ≤ c ∧ c ≤ 'f' then some (c.toNat - 'a'.toNat + 10)
  else if 'A' ≤ c ∧ c ≤ 'F' then some (c.toNat - 'A'.toNat + 10)
  else none

/-- The number written by hexadecimal digits, read onto `n`. -/
def hexNumber? (n : Nat) : List Char → Option Nat
  | [] => some n
  | c :: cs => (hexValue? c).bind fun d => hexNumber? (16 * n + d) cs

example : hexNumber? 0 "1Fe".toList = some 0x1FE ∧ hexNumber? 0 ['g'] = none := by decide

/-! ## 3. Floating-point literals -/

/-- The text after an optional sign. -/
def afterSign : List Char → List Char
  | '+' :: cs => cs
  | '-' :: cs => cs
  | cs => cs

/-- Whether the text is empty or an exponent: `e` or `E`, an optional sign, and digits. -/
def isExponentPart : List Char → Bool
  | [] => true
  | c :: cs => (c = 'e' || c = 'E') && (someDigits? (afterSign cs)).isSome

/-- Whether the text is a number with digits before or after an optional point. -/
def isDecimalNumber (cs : List Char) : Bool :=
  let whole := cs.takeWhile Char.isDigit
  match cs.dropWhile Char.isDigit with
  | '.' :: rest =>
    (!whole.isEmpty || !(rest.takeWhile Char.isDigit).isEmpty)
      && isExponentPart (rest.dropWhile Char.isDigit)
  | rest => !whole.isEmpty && isExponentPart rest

/-- Whether the text names a floating-point number: an optional sign, and a decimal number or one
    of the names of infinity and of the undefined value, in letters of either case. -/
def isFloatLiteral (cs : List Char) : Bool :=
  let body := afterSign cs
  let name := body.map Char.toLower
  isDecimalNumber body || name = "inf".toList || name = "infinity".toList || name = "nan".toList

example : isFloatLiteral "1.".toList = true ∧ isFloatLiteral ".5e-3".toList = true
    ∧ isFloatLiteral ".".toList = false ∧ isFloatLiteral "-Inf".toList = true
    ∧ isFloatLiteral "1e".toList = false ∧ isFloatLiteral "--1".toList = false := by
  decide

end TabCompletion.Text
