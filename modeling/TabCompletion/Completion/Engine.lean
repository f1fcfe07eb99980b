import TabCompletion.Completion.Source
import TabCompletion.Config.Basic
import TabCompletion.Walk.Context

/-!
# Candidates for the word under the cursor

The candidates come from the sources that the context of the word names. Those that do not match
what has been typed are dropped, repeated values too, and a sole candidate is finished unless more
input is expected behind it. A source that fails adds a warning and no candidates.
-/

namespace TabCompletion

open Text Line

/-- Everything that is produced for one request. `wordPrefix` is the text of the word up to the
    cursor, with the part `flag=`. -/
structure Outcome where
  candidates : List Candidate
  warnings : List String
  wordPrefix : String
  quote : Quote
  appendSpace : Bool
deriving Inhabited

/-- The source of an action's values: its completer, or else its choices, or else its hint. -/
def Action.source? (a : Action) : Option Completer :=
  match a.completer with
  | some c => some c
  | none =>
    if !a.choices.isEmpty then some (.choices a.choices)
    else match a.hint with
      | .any | .filePath => some .files
      | .dirPath => some .directories
      | .envVar => some .environ
      | .nothing => none

/-! ## 1. Lists of candidates -/

namespace Candidate

/-- The candidates without those whose value came before. -/
def distinct : List Candidate → List Candidate
  | [] => []
  | c :: cs => c :: (distinct cs).filter (·.value != c.value)

/-- Whether `a` stays in front of `b` when candidates are ranked: a value that equals what has been
    typed comes first, then the shorter one, then by the alphabet. -/
def rankLe (typed : String) (a b : Candidate) : Bool :=
  let exactA := !typed.isEmpty && a.value == typed
  let exactB := !typed.isEmpty && b.value == typed
  if exactA != exactB then exactA
  else if a.value.utf8ByteSize != b.value.utf8ByteSize then
    a.value.utf8ByteSize < b.value.utf8ByteSize
  else Completer.textLe a.value b.value

/-- The candidate with a text in front of its value. -/
def prepend (front : String) (c : Candidate) : Candidate :=
  { c with value := front ++ c.value }

/-- Finish a sole candidate unless more input is expected behind it. -/
def finishSole : List Candidate → List Candidate
  | [c] => [{ c with finished := !c.continues }]
  | cs => cs

end Candidate

/-! ## 2. Sources -/

/-- A configuration, and the check that takes the place of comparing beginnings, if there is one. It
    gets the candidate's value and what has been typed. -/
structure Engine where
  config : Config
  validator : Option (String → String → Bool)
deriving Inhabited

namespace Engine

/-- Whether a value matches what has been typed. -/
def accepts (e : Engine) (value typed : String) : Bool :=
  match e.validator with
  | some check => check value typed
  | none => startsWith value typed

/-- Whether a flag of the scope is still to be offered. -/
def offersFlag (e : Engine) (s : ParseState) (slot : Slot) : Bool :=
  (!s.isSatisfied slot.index || slot.action.repeatable)
    && (!slot.action.hidden || e.config.printHidden)

/-- The names of the flags of the scope, as far as `admits` lets them pass. -/
def flagCandidates (e : Engine) (s : ParseState) (admits : String → Bool) : List Candidate :=
  (s.scope.flags.filter (e.offersFlag s)).flatMap fun slot =>
    (slot.action.names.filter fun n => e.config.allowsFlag n && admits n).map
      (Candidate.described · slot.action.help)

/-- The names of the sub-commands of the scope. -/
def subcommandCandidates (s : ParseState) : List Candidate :=
  s.scope.subcommands.flatMap fun c => c.allNames.map (Candidate.described · c.help)

/-- The request that a completer gets. -/
def request (w : Walk) (a : Action) : CompletionRequest :=
  ⟨w.word.typed, a, w.state.scope, w.state.parsed⟩

/-- The values of an action, and the warning of its source if it fails. -/
def valueCandidates (host : Host) (w : Walk) (a : Action) : List Candidate × List String :=
  match a.source? with
  | none => ([], [])
  | some source =>
    match source.run host (request w a) with
    | .ok cs => (cs, [])
    | .error e => ([], [e.message])

/-- The candidates where a positional or a sub-command may come: sub-commands, values, and the
    flags that are offered everywhere. -/
def positionalCandidates (e : Engine) (host : Host) (w : Walk) (next : Option Slot)
    (subcommands : Bool) : List Candidate × List String :=
  let names := if subcommands then subcommandCandidates w.state else []
  let matched := names.any fun c => e.accepts c.value w.word.typed
  let skip := matched && e.config.subcommandPolicy = .preferSubcommands
  let (values, warnings) := match next with
    | some slot => if skip then ([], []) else valueCandidates host w slot.action
    | none => ([], [])
  let options := e.config.optionCompletion
  let flags :=
    if options != .never && !w.state.afterTerminator then e.flagCandidates w.state options.admits
    else []
  (names ++ values ++ flags, warnings)

/-- All candidates that the context names, and the warnings of their sources. -/
def sourceCandidates (e : Engine) (host : Host) (w : Walk) : List Candidate × List String :=
  match w.word.context with
  | .none => ([], [])
  | .flagName => (e.flagCandidates w.state fun _ => true, [])
  | .valueOf slot => valueCandidates host w slot.action
  | .positional next subcommands => e.positionalCandidates host w next subcommands

/-! ## 3. Outcomes -/

/-- The candidates that match, each value once, in the order that the configuration asks for. -/
def select (e : Engine) (typed : String) (cs : List Candidate) : List Candidate :=
  let kept := Candidate.distinct (cs.filter fun c => e.accepts c.value typed)
  match e.config.order with
  | .declared => kept
  | .ranked => kept.mergeSort (Candidate.rankLe typed)

/-- Complete the word under the cursor. -/
def complete (e : Engine) (host : Host) (w : Walk) : Outcome :=
  let (cs, warnings) := e.sourceCandidates host w
  let front := w.word.assignment.getD ""
  ⟨Candidate.finishSole ((e.select w.word.typed cs).map (Candidate.prepend front)), warnings,
    front ++ w.word.typed, w.word.quote, e.config.appendSpace⟩

/-- Complete a line at a cursor. -/
def completeLine (e : Engine) (host : Host) (root : Command) (line : String) (cursor : Nat) :
    Outcome :=
  e.complete host (.ofLine root line cursor)

end Engine

end TabCompletion
