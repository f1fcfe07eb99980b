import TabCompletion.Host.Basic
import TabCompletion.Line.Token
import TabCompletion.Shell.Kind
import TabCompletion.Text.Numeral

/-!
# Requests of a shell

A shell asks for completions through variables of the environment. A request that is malformed in
any part is no request, and the program runs as usual.
-/

namespace TabCompletion

open Text

/-- Where the answer is written. -/
inductive Channel where
  | descriptor (n : Int)
  | tempFile (path : String)
  | stdout
deriving DecidableEq, Repr, Inhabited

/-- A request: the line and the cursor in it, the shell that asks, where the answer goes, the
    separators and word breaks to use, and whether the shell adds spaces itself. -/
structure ShellRequest where
  line : String
  cursor : Nat
  shell : Shell
  channel : Channel
  separator : String
  descriptionSeparator : Option String
  wordbreaks : String
  suppressSpace : Bool
  debug : Bool
deriving DecidableEq, Repr, Inhabited

/-! ## 1. Variables -/

/-- The names of the variables of a request. -/
inductive RequestVar where
  | request
  | shell
  | line
  | point
  | tcshLine
  | separator
  | descriptionSeparator
  | wordbreaks
  | suppressSpace
  | useTempFile
  | tempFileName
  | descriptor
  | debug
deriving DecidableEq, Repr

/-- The name of the variable. -/
def RequestVar.name : RequestVar → String
  | .request => "_ARGCOMP"
  | .shell => "_ARGCOMP_SHELL"
  | .line => "COMP_LINE"
  | .point => "COMP_POINT"
  | .tcshLine => "COMMAND_LINE"
  | .separator => "_ARGCOMP_IFS"
  | .descriptionSeparator => "_ARGCOMP_DFS"
  | .wordbreaks => "_ARGCOMP_COMP_WORDBREAKS"
  | .suppressSpace => "_ARGCOMP_SUPPRESS_SPACE"
  | .useTempFile => "_ARGCOMP_USE_TEMPFILE"
  | .tempFileName => "_ARGCOMP_STDOUT_FILENAME"
  | .descriptor => "_ARGCOMP_OUTPUT_FD"
  | .debug => "_ARGCOMP_DEBUG"

namespace ShellRequest

/-- The descriptor that the hooks open for the answer. -/
def defaultDescriptor : Int := 8

/-- The word breaks of Bash if the request does not say. -/
def defaultWordbreaks : String := " \t\n\"'><=;|&(:"

/-- A request made by hand, answered on standard output. -/
def byHand (shell : Shell) (line : String) (cursor : Nat) : ShellRequest :=
  ⟨line, Line.clampCursor line cursor, shell, .stdout, shell.defaultSeparator,
    shell.defaultDescriptionSeparator?, defaultWordbreaks, false, false⟩

/-! ## 2. Decoding -/

/-- Whether the value of a variable switches something on. -/
def isTruthy (value : String) : Bool :=
  !value.isEmpty && value != "0"

/-- The value of a variable of the request. -/
def value? (env : Environment) (v : RequestVar) : Option String :=
  env.value? v.name

/-- The value of a variable, an empty one counting as unset. -/
def nonEmpty? (env : Environment) (v : RequestVar) : Option String :=
  (value? env v).filter (!·.isEmpty)

/-- Whether a variable is set and switches something on. -/
def isOn (env : Environment) (v : RequestVar) : Bool :=
  match value? env v with
  | some s => isTruthy s
  | none => false

/-- The shell that asks; Bash if the request does not say. -/
def shell? (env : Environment) : Option Shell :=
  match nonEmpty? env .shell with
  | some name => Shell.ofName? name
  | none => some .bash

/-- The line and the cursor of a request that gives both. -/
def pointedLine? (env : Environment) : Option (String × Nat) := do
  let line ← value? env .line
  let point ← value? env .point
  let cursor ← nat? wordBound (trim point)
  some (line, Line.clampCursor line cursor)

/-- The line and the cursor. Tcsh gives the line up to the cursor. -/
def line? (env : Environment) (shell : Shell) : Option (String × Nat) :=
  match if shell = .tcsh then value? env .tcshLine else none with
  | some line => some (line, line.utf8ByteSize)
  | none => pointedLine? env

/-- The descriptor for the answer. -/
def descriptor? (env : Environment) : Option Int :=
  match value? env .descriptor with
  | some value => (int? halfWordBound (trim value)).filter (0 ≤ ·)
  | none => some defaultDescriptor

/-- Where the answer goes. PowerShell always reads a file, and Tcsh never a descriptor. -/
def channel? (env : Environment) (shell : Shell) : Option Channel :=
  if isOn env .useTempFile || shell = .powershell then
    (nonEmpty? env .tempFileName).map .tempFile
  else if shell = .tcsh then some .stdout
  else (descriptor? env).map .descriptor

/-- The request that the environment holds, if it holds one. -/
def decode? (env : Environment) : Option ShellRequest :=
  if isOn env .request then do
    let shell ← shell? env
    let (line, cursor) ← line? env shell
    let channel ← channel? env shell
    some {
      line, cursor, shell, channel
      separator := (nonEmpty? env .separator).getD shell.defaultSeparator
      descriptionSeparator :=
        (nonEmpty? env .descriptionSeparator).or shell.defaultDescriptionSeparator?
      wordbreaks := (value? env .wordbreaks).getD defaultWordbreaks
      suppressSpace := value? env .suppressSpace = some "1"
      debug := isOn env .debug }
  else none

end ShellRequest

end TabCompletion
