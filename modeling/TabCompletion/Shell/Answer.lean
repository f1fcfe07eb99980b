import TabCompletion.Completion.Engine
import TabCompletion.Shell.Request

/-!
# Answers to a shell

The outcome of a completion as the text that the shell reads, and the place it is written to.

* `encode` writes the candidates one after the other.
* `Channel.write` says what a write leaves behind.
-/

namespace TabCompletion

open Text Line

/-! ## 1. The text -/

/-- Whether a character of the word is a word break. Blanks and quotes are none, because they have
    been resolved when the line was split. -/
def isWordbreak (wordbreaks : String) (c : Char) : Bool :=
  !isBlank c && c != '"' && c != '\'' && contains wordbreaks c

/-- The number of bytes of `word` up to and including the last word break in it. -/
def wordbreakOffset (word wordbreaks : String) : Nat :=
  let kept := (word.toList.reverse.dropWhile fun c => !isWordbreak wordbreaks c).reverse
  (String.ofList kept).utf8ByteSize

/-- The text from a byte offset on; the whole text if the offset is no character boundary. -/
def dropBytesOrAll (n : Nat) (s : String) : String :=
  match dropBytes? n s.toList with
  | some rest => String.ofList rest
  | none => s

namespace ShellRequest

/-- The number of bytes of the word that the shell keeps in front of each candidate. -/
def keptBytes (r : ShellRequest) (o : Outcome) : Nat :=
  if r.shell.stripsWordbreaks && o.quote = .none then wordbreakOffset o.wordPrefix r.wordbreaks
  else 0

/-- What a finished candidate gets: the closing quote, and a space. -/
def ending (r : ShellRequest) (o : Outcome) : String :=
  let close := match o.quote.closing? with
    | some c => if r.shell.closesQuotes then String.ofList [c] else ""
    | none => ""
  close ++ if o.appendSpace && r.shell.appendsSpace && !r.suppressSpace then " " else ""

/-- The text of one candidate. -/
def item (r : ShellRequest) (o : Outcome) (c : Candidate) : String :=
  let value := r.shell.escape (dropBytesOrAll (r.keptBytes o) c.value) o.quote
  r.shell.render (if c.finished then value ++ r.ending o else value) c.description
    r.descriptionSeparator

/-- The text of the whole answer. -/
def encode (r : ShellRequest) (o : Outcome) : String :=
  joinWith r.separator (o.candidates.map (r.item o)) ++ r.shell.listTerminator

end ShellRequest

/-! ## 2. Writing it -/

/-- Why an answer could not be given. -/
inductive ProtocolError where
  | channelUnavailable (message : String)
  | writeFailed (message : String)
  | unknownShell (name : String)
deriving DecidableEq, Repr

/-- The wording of an error. -/
def ProtocolError.message : ProtocolError → String
  | .channelUnavailable message => s!"Output channel unavailable: {message}"
  | .writeFailed message => s!"Failed to write response: {message}"
  | .unknownShell name => s!"Unknown shell: {name}"

/-- The shell of a name. -/
def Shell.parse (name : String) : Except ProtocolError Shell :=
  match Shell.ofName? name with
  | some sh => .ok sh
  | none => .error (.unknownShell name)

/-- What can be written to: the descriptor that is open besides the standard ones, standard output,
    which may refuse every write with a message, and the files. -/
structure Outlets where
  openDescriptor : Option Int
  stdoutFault : Option String
  files : FileSystem
deriving Inhabited

/-- What has reached the outlets. `descriptor` is the text that the open descriptor got, and
    `descriptorOpen` whether it is still open; both are missing if none was open at first. -/
structure Written where
  stdout : String
  descriptor : Option String
  descriptorOpen : Option Bool
  tempFile : Option String
deriving DecidableEq, Repr, Inhabited

namespace Channel

/-- Nothing has been written. -/
def untouched (out : Outlets) : Written :=
  ⟨"", out.openDescriptor.map fun _ => "", out.openDescriptor.map fun _ => true, none⟩

/-- Write a text to the channel and close it. -/
def write (c : Channel) (out : Outlets) (text : String) : Except ProtocolError Written :=
  match c with
  | .stdout => match out.stdoutFault with
    | some message =>
      if text.isEmpty then .ok (untouched out) else .error (.writeFailed message)
    | none => .ok { untouched out with stdout := text }
  | .tempFile path => match out.files.createFault? path with
    | some fault => .error (.channelUnavailable s!"{path}: {fault.message}")
    | none => .ok { untouched out with tempFile := some text }
  | .descriptor n =>
    if out.openDescriptor = some n then
      .ok { untouched out with descriptor := some text, descriptorOpen := some false }
    else .error (.channelUnavailable s!"descriptor {n} is not open")

end Channel

end TabCompletion
