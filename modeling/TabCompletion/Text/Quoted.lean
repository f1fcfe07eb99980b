import TabCompletion.Text.Printable

/-!
# Quoted text

A text shown to a reader: quotes and backslashes are escaped, line breaks have their short names,
and every other character that cannot be shown is given by its number.
-/

namespace TabCompletion.Text

/-- The lower-case hexadecimal digits of a number. -/
def hexDigits (n : Nat) : List Char :=
  Nat.toDigits 16 n

/-- Which characters are escaped besides the backslash and those that cannot be shown. -/
structure QuotedStyle where
  singleQuote : Bool
  doubleQuote : Bool
  graphemeExtend : Bool

/-- One character in a given style. -/
def QuotedStyle.char (st : QuotedStyle) (c : Char) : List Char :=
  if c = '\x00' then ['\\', '0']
  else if c = '\t' then ['\\', 't']
  else if c = '\r' then ['\\', 'r']
  else if c = '\n' then ['\\', 'n']
  else if c = '\\' then ['\\', '\\']
  else if c = '"' && st.doubleQuote then ['\\', '"']
  else if c = '\'' && st.singleQuote then ['\\', '\'']
  else if (st.graphemeExtend && isGraphemeExtend c) || !isPrintable c then
    ['\\', 'u', '\x7b'] ++ hexDigits c.toNat ++ ['\x7d']
  else [c]

/-- The text between double quotes. -/
def quoted (s : String) : String :=
  String.ofList (['"'] ++ s.toList.flatMap (QuotedStyle.char ⟨false, true, true⟩) ++ ['"'])

/-- The text without surrounding quotes; both kinds of quote are escaped in it. Only its first
    character could join something before it. -/
def escaped (s : String) : String :=
  match s.toList with
  | [] => ""
  | c :: cs =>
    String.ofList
      (QuotedStyle.char ⟨true, true, true⟩ c ++ cs.flatMap (QuotedStyle.char ⟨true, true, false⟩))

example : quoted "a\"b'\n\x01" = "\"a\\\"b'\\n\\u\x7b1\x7d\"" := by decide

example : escaped "a\"b'" = "a\\\"b\\'" := by decide

end TabCompletion.Text
