import TabCompletion.Text.Numeral
import TabCompletion.Toml.Value

/-!
# TOML scalars without quotes

Truth values, whole and floating-point numbers, dates and times. A scalar is recognised as a whole;
of numbers and dates only their validity matters.
-/

namespace TabCompletion.Toml

open Text

/-! ## 1. Digits -/

/-- The digits of a number whose groups may be parted by single underscores, each between two
    digits. `last` says whether a digit came just before. -/
def groupedDigits? (isDigit : Char → Bool) (last : Bool) : List Char → Option (List Char)
  | [] => if last then some [] else none
  | c :: cs =>
    if isDigit c then (groupedDigits? isDigit true cs).map (c :: ·)
    else if c = '_' && last then
      match cs with
      | [] => none
      | _ => groupedDigits? isDigit false cs
    else none

/-- The number that digits write in a base. -/
def numberIn (base : Nat) (ds : List Char) : Nat :=
  ds.foldl (fun n c => base * n + (hexValue? c).getD 0) 0

/-! ## 2. Numbers -/

/-- The numbers that a machine can hold without sign are below this bound. -/
def unsignedBound : Nat := Nat.pow 2 128

/-- The negative numbers that a machine can hold are at least minus this bound. -/
def signedBound : Nat := Nat.pow 2 127

/-- Whether the text is a natural number in a base other than ten, its digits after the sign of
    that base. -/
def isBasedNumber (base : Nat) (isDigit : Char → Bool) (cs : List Char) : Bool :=
  match groupedDigits? isDigit false cs with
  | some ds => numberIn base ds < unsignedBound
  | none => false

/-- The digits of a decimal number without leading zeros. -/
def wholeDigits? (cs : List Char) : Option (List Char) :=
  (groupedDigits? Char.isDigit false cs).filter fun ds => ds.head? != some '0' || ds.length == 1

/-- Whether the text is a decimal number that a machine can hold. -/
def isDecimal (cs : List Char) : Bool :=
  match cs with
  | '-' :: ds => match wholeDigits? ds with
    | some ds => numberIn 10 ds ≤ signedBound
    | none => false
  | _ => match wholeDigits? (match cs with
      | '+' :: ds => ds
      | ds => ds) with
    | some ds => numberIn 10 ds < unsignedBound
    | none => false

/-- Whether the text is a whole number. -/
def isInteger : List Char → Bool
  | '0' :: 'x' :: ds => isBasedNumber 16 (fun c => (hexValue? c).isSome) ds
  | '0' :: 'o' :: ds => isBasedNumber 8 (fun c => '0' ≤ c && c ≤ '7') ds
  | '0' :: 'b' :: ds => isBasedNumber 2 (fun c => c = '0' || c = '1') ds
  | cs => isDecimal cs

/-- The parts of an unsigned floating-point number: the digits before the point, those behind it,
    and the exponent. A number needs a point or an exponent. -/
def floatParts? (cs : List Char) : Option (List Char × List Char × Int) := do
  let isDigitOrGroup (c : Char) : Bool := c.isDigit || c = '_'
  let whole ← wholeDigits? (cs.takeWhile isDigitOrGroup)
  let rest := cs.dropWhile isDigitOrGroup
  let (fraction, rest) ← match rest with
    | '.' :: ds => do
      let fraction ← groupedDigits? Char.isDigit false (ds.takeWhile isDigitOrGroup)
      some (fraction, ds.dropWhile isDigitOrGroup)
    | _ => some ([], rest)
  match rest with
  | [] => if cs.contains '.' then some (whole, fraction, 0) else none
  | e :: ds =>
    if e = 'e' || e = 'E' then
      let digits ← groupedDigits? Char.isDigit false (afterSign ds)
      let n : Int := numberIn 10 digits
      some (whole, fraction, if ds.head? = some '-' then -n else n)
    else none

/-- From this number on the nearest floating-point number is infinite. -/
def infiniteFrom : Nat := Nat.pow 2 1024 - Nat.pow 2 970

/-- Whether a number with these digits before and behind the point, and this exponent, is too great
    to be held as a floating-point number. -/
def overflows (whole fraction : List Char) (exponent : Int) : Bool :=
  let digits := (whole ++ fraction).dropWhile (· = '0')
  let shift := exponent - fraction.length
  let places : Int := digits.length + shift
  if digits.isEmpty || places < 309 then false
  else if 309 < places then true
  else
    let n := numberIn 10 digits
    if 0 ≤ shift then infiniteFrom ≤ n * Nat.pow 10 shift.toNat
    else infiniteFrom * Nat.pow 10 (-shift).toNat ≤ n

/-- Whether the text is a floating-point number. -/
def isFloat (cs : List Char) : Bool :=
  let body := afterSign cs
  body = ['i', 'n', 'f'] || body = ['n', 'a', 'n'] || match floatParts? body with
    | some (whole, fraction, exponent) => !overflows whole fraction exponent
    | none => false

/-! ## 3. Dates and times -/

/-- The number that `n` digits at the start of a text write, and the text behind them. -/
def fixedDigits? (n : Nat) (cs : List Char) : Option (Nat × List Char) :=
  let ds := cs.take n
  if ds.length = n ∧ ds.all Char.isDigit then some (numberIn 10 ds, cs.drop n) else none

/-- The text behind a given character. -/
def after? (c : Char) : List Char → Option (List Char)
  | d :: cs => if d = c then some cs else none
  | [] => none

/-- The number of days of a month. -/
def daysOfMonth (year month : Nat) : Nat :=
  if month = 2 then
    if year % 4 = 0 ∧ (year % 100 ≠ 0 ∨ year % 400 = 0) then 29 else 28
  else if month = 4 ∨ month = 6 ∨ month = 9 ∨ month = 11 then 30
  else 31

/-- The text behind a date. -/
def afterDate? (cs : List Char) : Option (List Char) := do
  let (year, cs) ← fixedDigits? 4 cs
  let (month, cs) ← fixedDigits? 2 (← after? '-' cs)
  let (day, cs) ← fixedDigits? 2 (← after? '-' cs)
  if 1 ≤ month ∧ month ≤ 12 ∧ 1 ≤ day ∧ day ≤ daysOfMonth year month then some cs else none

/-- The text behind a fraction of a second, if there is one. -/
def afterSecondFraction? : List Char → Option (List Char)
  | '.' :: cs =>
    if (cs.takeWhile Char.isDigit).isEmpty then none else some (cs.dropWhile Char.isDigit)
  | cs => some cs

/-- The text behind a time. The seconds may be missing. -/
def afterTime? (cs : List Char) : Option (List Char) := do
  let (hour, cs) ← fixedDigits? 2 cs
  let (minute, cs) ← fixedDigits? 2 (← after? ':' cs)
  if 23 < hour ∨ 59 < minute then none
  else match cs with
    | ':' :: cs => do
      let (second, cs) ← fixedDigits? 2 cs
      if 60 < second then none else afterSecondFraction? cs
    | cs => some cs

/-- Whether the text is empty or an offset from universal time. -/
def isOffset : List Char → Bool
  | [] => true
  | ['Z'] => true
  | ['z'] => true
  | c :: cs =>
    (c = '+' || c = '-') && match fixedDigits? 2 cs with
      | some (hour, ':' :: cs) => match fixedDigits? 2 cs with
        | some (minute, []) => hour ≤ 23 && minute ≤ 59
        | _ => false
      | _ => false

/-- Whether the text is a date alone. -/
def isDate (cs : List Char) : Bool :=
  afterDate? cs = some []

/-- Whether the text is a date, a time, or both. -/
def isDateTime (cs : List Char) : Bool :=
  afterTime? cs = some [] || match afterDate? cs with
    | none => false
    | some [] => true
    | some (c :: rest) =>
      (c = 'T' || c = 't' || c = ' ') && match afterTime? rest with
        | some offset => isOffset offset
        | none => false

/-- The value of a scalar without quotes. -/
def scalar? (cs : List Char) : Option Value :=
  if cs = ['t', 'r', 'u', 'e'] then some (.bool true)
  else if cs = ['f', 'a', 'l', 's', 'e'] then some (.bool false)
  else if isInteger cs || isFloat cs then some .number
  else if isDateTime cs then some .date
  else none

example : (scalar? "1_000".toList).isSome ∧ scalar? "01".toList = none
    ∧ scalar? "1__0".toList = none ∧ (scalar? "-0x1".toList).isNone ∧ (scalar? "6.02e23".toList).isSome
    ∧ (scalar? "1.".toList).isNone ∧ (scalar? "1e400".toList).isNone
    ∧ (scalar? "1979-02-29".toList).isNone ∧ (scalar? "1980-02-29 07:32:00Z".toList).isSome := by
  decide

end TabCompletion.Toml
