/-!
# What a terminal shows of a text

A help text may carry control sequences for a terminal. Its plain form is without them, and without
all other control characters that do not lay out a text.

* `visible` gives the plain form.
-/

namespace TabCompletion.Text

/-- What a character may belong to: the text that is shown; the start of a control sequence or what
    follows its first characters; a sequence that a letter ends; a command that the bell ends; or a
    string that only the start of another sequence ends. -/
inductive ControlMode where
  | shown
  | start
  | startRest
  | sequence
  | command
  | string
deriving DecidableEq, Repr

/-- Whether the character lays out a text: a tab or a break of a line or page. -/
def isLayout (c : Char) : Bool :=
  c = '\t' || c = '\n' || c = '\x0c' || c = '\r'

/-- Whether the character is one of the ASCII control characters. -/
def isAsciiControl (c : Char) : Bool :=
  c.toNat < 0x20 || c = '\x7f'

/-- The mode behind the character that follows the start of a sequence. -/
def ControlMode.afterStart (c : Char) : ControlMode :=
  if c = '[' then .sequence
  else if c = ']' then .command
  else if c = 'P' ∨ c = 'X' ∨ c = '^' ∨ c = '_' then .string
  else if c.toNat < 0x30 then .startRest
  else .shown

/-- The mode behind a character, and whether the character is shown. The start of another sequence
    and the two cancelling characters break off whatever they stand in; in most sequences a
    character that lays out the text does so too. -/
def ControlMode.step (m : ControlMode) (c : Char) : ControlMode × Bool :=
  if c = '\x1b' then (.start, false)
  else if c = '\x18' ∨ c = '\x1a' then (.shown, false)
  else match m with
    | .shown => (.shown, isLayout c || !isAsciiControl c)
    | .command => (if c = '\x07' then .shown else .command, false)
    | .string => (.string, false)
    | _ =>
      if isLayout c then (.shown, true)
      else if isAsciiControl c then (m, false)
      else match m with
        | .start => (.afterStart c, false)
        | .startRest => (if c.toNat < 0x30 then .startRest else .shown, false)
        | _ => (if c.toNat < 0x40 then .sequence else .shown, false)

/-- The characters that are shown. -/
def visibleFrom (m : ControlMode) : List Char → List Char
  | [] => []
  | c :: cs =>
    let (next, shown) := m.step c
    if shown then c :: visibleFrom next cs else visibleFrom next cs

/-- The text as it is shown. -/
def visible (s : String) : String :=
  String.ofList (visibleFrom .shown s.toList)

example : visible "a\x1b[1;31mred\x1b[0m\tb\x07" = "ared\tb" := by
  decide

end TabCompletion.Text
