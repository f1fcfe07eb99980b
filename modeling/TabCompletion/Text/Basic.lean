/-!
# Operations on text

Prefixes, cuts and replacements on `String`, each given through the list of characters so that a
statement about text is a statement about lists. Offsets count the bytes of the UTF-8 form.
-/

namespace TabCompletion.Text

/-! ## 1. Prefixes and suffixes -/

/-- Whether `s` begins with `p`. -/
def startsWith (s p : String) : Bool :=
  p.toList.isPrefixOf s.toList

theorem startsWith_iff {s p : String} : startsWith s p = true ↔ p.toList <+: s.toList := by
  simp [startsWith]

/-- Whether `s` ends with `p`. -/
def endsWith (s p : String) : Bool :=
  p.toList.isSuffixOf s.toList

/-- Whether the last character of `s` is one of `cs`. -/
def endsInAny (s : String) (cs : List Char) : Bool :=
  match s.toList.getLast? with
  | some c => cs.contains c
  | none => false

/-- Whether `c` occurs in `s`. -/
def contains (s : String) (c : Char) : Bool :=
  s.toList.contains c

/-- Whether `p` occurs in `s` as a run of neighbouring characters. -/
def containsRun (s p : String) : Bool :=
  go s.toList
where
  go : List Char → Bool
    | [] => p.toList.isEmpty
    | c :: cs => p.toList.isPrefixOf (c :: cs) || go cs

/-! ## 2. Cuts -/

/-- The parts before and after the first `sep`, if there is one. -/
def splitOnce (sep : Char) (s : String) : Option (String × String) :=
  go [] s.toList
where
  go (before : List Char) : List Char → Option (String × String)
    | [] => none
    | c :: cs =>
      if c = sep then some (String.ofList before.reverse, String.ofList cs) else go (c :: before) cs

/-- The parts up to and including the last `sep`, and after it; the first is empty if there is
    no `sep`. -/
def splitAfterLast (sep : Char) (s : String) : String × String :=
  let after := (s.toList.reverse.takeWhile (· != sep)).reverse
  let before := (s.toList.reverse.dropWhile (· != sep)).reverse
  (String.ofList before, String.ofList after)

/-- All parts between occurrences of `sep`; one more than there are occurrences. -/
def splitAll (sep : Char) (s : String) : List String :=
  go [] s.toList
where
  go (part : List Char) : List Char → List String
    | [] => [String.ofList part.reverse]
    | c :: cs => if c = sep then String.ofList part.reverse :: go [] cs else go (c :: part) cs

/-- The characters from byte offset `n` on, if `n` is a character boundary of the text. -/
def dropBytes? : Nat → List Char → Option (List Char)
  | 0, cs => some cs
  | _ + 1, [] => none
  | n + 1, c :: cs => if c.utf8Size ≤ n + 1 then dropBytes? (n + 1 - c.utf8Size) cs else none
termination_by structural _ cs => cs

/-- The greatest character boundary of the text that is at most `n`. -/
def floorBoundary : List Char → Nat → Nat
  | [], _ => 0
  | c :: cs, n =>
    if c.utf8Size ≤ n then c.utf8Size + floorBoundary cs (n - c.utf8Size) else 0

/-! ## 3. Replacements -/

/-- The text with each `c` replaced by `by_`. -/
def replaceChar (c : Char) (by_ : String) (s : String) : String :=
  String.ofList (s.toList.flatMap fun d => if d = c then by_.toList else [d])

/-- The text with an escape in front of each character that `special` names. -/
def escapeWith (escape : Char) (special : Char → Bool) (s : String) : String :=
  String.ofList (s.toList.flatMap fun c => if special c then [escape, c] else [c])

/-- The texts with `sep` between neighbours. -/
def joinWith (sep : String) : List String → String
  | [] => ""
  | [s] => s
  | s :: t :: rest => s ++ sep ++ joinWith sep (t :: rest)

end TabCompletion.Text
