import TabCompletion.Completion.Candidate
import TabCompletion.Line.Word
import TabCompletion.Text.Basic
import TabCompletion.Text.Blank

/-!
# Shells

What the supported shells expect of an answer: separators, how a value is escaped for the quote at
the cursor, how a candidate is shown with its description, and what a finished candidate gets.

* `escape` writes a value so that the shell reads it back.
* `render` adds the description.
-/

namespace TabCompletion

open Text Line

/-- A supported shell. -/
inductive Shell where
  | bash
  | zsh
  | tcsh
  | fish
  | powershell
deriving DecidableEq, Repr, Inhabited

namespace Shell

/-- All shells. -/
def all : List Shell := [.bash, .zsh, .tcsh, .fish, .powershell]

/-- The name of the shell. -/
def name : Shell → String
  | .bash => "bash"
  | .zsh => "zsh"
  | .tcsh => "tcsh"
  | .fish => "fish"
  | .powershell => "powershell"

/-- The shell of a name in lower case. -/
def ofLowerName? : String → Option Shell
  | "bash" => some .bash
  | "zsh" => some .zsh
  | "tcsh" => some .tcsh
  | "csh" => some .tcsh
  | "fish" => some .fish
  | "powershell" => some .powershell
  | "pwsh" => some .powershell
  | _ => none

/-- The shell of a name in any case, blanks around it ignored. No character beyond ASCII has a
    lower-case form that occurs in the names. -/
def ofName? (s : String) : Option Shell :=
  ofLowerName? (String.ofList ((trim s).toList.map Char.toLower))

/-! ## 1. Separators -/

/-- What separates candidates if the request does not say. -/
def defaultSeparator : Shell → String
  | .bash | .zsh => "\x0b"
  | .tcsh | .fish | .powershell => "\n"

/-- What separates a value from its description if the request does not say; without it there are
    no descriptions. -/
def defaultDescriptionSeparator? : Shell → Option String
  | .zsh => some ":"
  | .fish => some "\t"
  | _ => none

/-- What follows the last candidate. -/
def listTerminator : Shell → String
  | .tcsh | .powershell => "\n"
  | _ => ""

/-! ## 2. Duties -/

/-- Whether the shell replaces only the part of the word behind its last word break. -/
def stripsWordbreaks : Shell → Bool
  | .bash => true
  | _ => false

/-- Whether a finished candidate gets a space from us. -/
def appendsSpace : Shell → Bool
  | .bash | .tcsh => true
  | _ => false

/-- Whether a finished candidate gets the closing quote from us. -/
def closesQuotes : Shell → Bool
  | .zsh => false
  | _ => true

/-! ## 3. Escaping -/

/-- The characters that Bash gives a meaning outside of quotes. -/
def isBashSpecial (c : Char) : Bool :=
  "\\();<>|&!\x60$* \t\n\"'".toList.contains c

/-- The characters that Bash gives a meaning inside double quotes. -/
def isBashDoubleSpecial (c : Char) : Bool :=
  "\\\x60$\"!".toList.contains c

/-- The characters that PowerShell gives a meaning outside of quotes. -/
def isPowershellSpecial (c : Char) : Bool :=
  " \t\x60$'\"()\x7b\x7d;,|&@#<>".toList.contains c

/-- The characters that PowerShell gives a meaning inside double quotes. -/
def isPowershellDoubleSpecial (c : Char) : Bool :=
  "\x60$\"".toList.contains c

/-- A value as Bash reads it back. A single quote between single quotes closes them, stands
    escaped, and opens them again. -/
def escapeBash (value : String) : Quote → String
  | .none => escapeWith '\\' isBashSpecial value
  | .double => escapeWith '\\' isBashDoubleSpecial value
  | .single => replaceChar '\'' "'\\''" value

/-- A value as PowerShell reads it back. A single quote between single quotes is doubled. -/
def escapePowershell (value : String) : Quote → String
  | .none => escapeWith '\x60' isPowershellSpecial value
  | .double => escapeWith '\x60' isPowershellDoubleSpecial value
  | .single => replaceChar '\'' "''" value

/-- A value as the shell reads it back inside the quote. The other shells escape it themselves. -/
def escape (sh : Shell) (value : String) (quote : Quote) : String :=
  match sh with
  | .bash => escapeBash value quote
  | .powershell => escapePowershell value quote
  | _ => value

/-! ## 4. Descriptions -/

/-- A value with its description on one line; an empty description counts as none. -/
def withDescription (separator value : String) : Option String → String
  | none => value
  | some help => if help.isEmpty then value else value ++ separator ++ replaceChar '\n' " " help

/-- The text for a candidate whose value has been escaped. Zsh reads a value up to the first colon
    that is not escaped, but only if descriptions are in use. -/
def render (sh : Shell) (value : String) (description separator : Option String) : String :=
  match sh with
  | .zsh => match separator with
    | none => value
    | some sep => withDescription sep (replaceChar ':' "\\:" value) description
  | .fish => withDescription (separator.getD "\t") value description
  | _ => value

end Shell

end TabCompletion
