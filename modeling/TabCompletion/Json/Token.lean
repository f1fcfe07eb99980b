import TabCompletion.Json.Value
import TabCompletion.Text.Numeral

/-!
# The tokens of a JSON text

A JSON text is read character by character into brackets, separators and single values. Texts and
numbers are checked here; how tokens may follow each other is not.
-/

namespace TabCompletion.Json

open Text

/-- A token. A key is an `atom` that holds a text. -/
inductive Token where
  | openList
  | closeList
  | openObject
  | closeObject
  | comma
  | colon
  | atom (v : Value)
deriving Inhabited, Repr

/-! ## 1. Texts -/

/-- The character that a backslash and one letter stand for. -/
def shortEscape? : Char → Option Char
  | '"' => some '"'
  | '\\' => some '\\'
  | '/' => some '/'
  | 'b' => some '\x08'
  | 'f' => some '\x0c'
  | 'n' => some '\n'
  | 'r' => some '\r'
  | 't' => some '\t'
  | _ => none

/-- A part of a text: a character, or a 16-bit unit given by number. -/
inductive TextUnit where
  | char (c : Char)
  | unit (n : Nat)

/-- The parts of a text between its quotes, if every escape in it is well formed. -/
def textUnits? : List Char → Option (List TextUnit)
  | [] => some []
  | '\\' :: 'u' :: a :: b :: c :: d :: rest =>
    (hexNumber? 0 [a, b, c, d]).bind fun n => (textUnits? rest).map (.unit n :: ·)
  | '\\' :: e :: rest =>
    (shortEscape? e).bind fun c => (textUnits? rest).map (.char c :: ·)
  | c :: rest => if c = '\\' then none else (textUnits? rest).map (.char c :: ·)

/-- Whether the unit is the first half of a surrogate pair. -/
def isHighSurrogate (n : Nat) : Bool := 0xD800 ≤ n && n ≤ 0xDBFF

/-- Whether the unit is the second half of a surrogate pair. -/
def isLowSurrogate (n : Nat) : Bool := 0xDC00 ≤ n && n ≤ 0xDFFF

/-- The characters that the parts name, if no half of a surrogate pair stands alone. -/
def joinUnits? : List TextUnit → Option (List Char)
  | [] => some []
  | .char c :: rest => (joinUnits? rest).map (c :: ·)
  | .unit n :: .unit m :: rest =>
    if isHighSurrogate n then
      if isLowSurrogate m then
        (joinUnits? rest).map (Char.ofNat (0x10000 + (n - 0xD800) * 0x400 + (m - 0xDC00)) :: ·)
      else none
    else if isLowSurrogate n then none
    else (joinUnits? (.unit m :: rest)).map (Char.ofNat n :: ·)
  | .unit n :: rest =>
    if isHighSurrogate n || isLowSurrogate n then none
    else (joinUnits? rest).map (Char.ofNat n :: ·)

/-- The text value between two quotes. -/
def textValue? (body : List Char) : Option Value :=
  (textUnits? body).map fun units => .text ((joinUnits? units).map String.ofList)

/-! ## 2. Names and numbers -/

/-- Whether the text is empty or a fraction of at least one digit, with what follows it. -/
def afterFraction? : List Char → Option (List Char)
  | '.' :: rest =>
    if (rest.takeWhile Char.isDigit).isEmpty then none else some (rest.dropWhile Char.isDigit)
  | cs => some cs

/-- Whether the text is empty or an exponent of at least one digit. -/
def isExponent : List Char → Bool
  | [] => true
  | e :: rest =>
    let digits := match rest with
      | '+' :: ds => ds
      | '-' :: ds => ds
      | ds => ds
    (e = 'e' || e = 'E') && !digits.isEmpty && digits.all Char.isDigit

/-- Whether the text is a number without sign. A leading zero stands alone. -/
def isUnsignedNumber (cs : List Char) : Bool :=
  let whole := cs.takeWhile Char.isDigit
  !whole.isEmpty && (whole.head? != some '0' || whole.length == 1)
    && ((afterFraction? (cs.dropWhile Char.isDigit)).map isExponent).getD false

/-- The number that a list of decimal digits writes. -/
def decimalNumber (ds : List Char) : Nat :=
  ds.foldl (fun n c => 10 * n + (c.toNat - '0'.toNat)) 0

/-- The value of a run of letters, digits and signs. -/
def bareValue? (run : List Char) : Option Value :=
  if run = ['n', 'u', 'l', 'l'] then some .null
  else if run = ['t', 'r', 'u', 'e'] then some (.bool true)
  else if run = ['f', 'a', 'l', 's', 'e'] then some (.bool false)
  else match run with
    | '-' :: cs => if isUnsignedNumber cs then some (.number none) else none
    | cs =>
      if isUnsignedNumber cs then
        some (.number (if cs.all Char.isDigit then some (decimalNumber cs) else none))
      else none

/-! ## 3. Tokens -/

/-- Where the reading stands: between tokens, in a run of letters and digits, or in a text. The
    characters read are kept with the last one first. -/
inductive LexMode where
  | between
  | bare (run : List Char)
  | text (body : List Char)
  | escape (body : List Char)

/-- The tokens read so far, the last one first, and where the reading stands. -/
structure Lexing where
  mode : LexMode
  done : List Token

/-- Whether the character separates tokens and is nothing else. -/
def isSpace (c : Char) : Bool :=
  c = ' ' || c = '\n' || c = '\t' || c = '\r'

/-- Whether the character may stand in a name or number. -/
def isBare (c : Char) : Bool :=
  c.isAlphanum || c = '+' || c = '-' || c = '.'

/-- The token that the character is on its own. -/
def punctuation? : Char → Option Token
  | '[' => some .openList
  | ']' => some .closeList
  | '{' => some .openObject
  | '}' => some .closeObject
  | ',' => some .comma
  | ':' => some .colon
  | _ => none

/-- End a run of letters and digits. -/
def Lexing.flush (l : Lexing) : Option (List Token) :=
  match l.mode with
  | .between => some l.done
  | .bare run => (bareValue? run.reverse).map fun v => .atom v :: l.done
  | _ => none

/-- A character outside of texts. -/
def Lexing.stepOutside (l : Lexing) (c : Char) : Option Lexing :=
  if isBare c then
    match l.mode with
    | .bare run => some ⟨.bare (c :: run), l.done⟩
    | _ => some ⟨.bare [c], l.done⟩
  else
    l.flush.bind fun done =>
      if isSpace c then some ⟨.between, done⟩
      else if c = '"' then some ⟨.text [], done⟩
      else (punctuation? c).map fun t => ⟨.between, t :: done⟩

/-- Read one character. -/
def Lexing.step (l : Lexing) (c : Char) : Option Lexing :=
  match l.mode with
  | .text body =>
    if c = '"' then (textValue? body.reverse).map fun v => ⟨.between, .atom v :: l.done⟩
    else if c = '\\' then some ⟨.escape (c :: body), l.done⟩
    else if c.toNat < 0x20 then none
    else some ⟨.text (c :: body), l.done⟩
  | .escape body => some ⟨.text (c :: body), l.done⟩
  | _ => l.stepOutside c

/-- The tokens of a text, if it is made of tokens. -/
def tokens? (cs : List Char) : Option (List Token) :=
  ((cs.foldlM Lexing.step ⟨.between, []⟩).bind Lexing.flush).map List.reverse

end TabCompletion.Json
