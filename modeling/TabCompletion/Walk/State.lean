import TabCompletion.Completion.ParsedValues
import TabCompletion.Spec.Command

/-!
# Walking words through a command

The words before the cursor are replayed against a command the way the program's own argument
parser would read them. Nothing is refused: an unknown flag is skipped and a value too many is
dropped.

* `ParseState.consume` reads one finished word.
* A flag that takes values becomes pending. It takes words until its least number is reached, and
  after that as long as they are no flags and its arity allows.
* The name of a sub-command leads into it and starts its scope afresh.
* All other words fill the positionals in the order of their declaration.
-/

namespace TabCompletion

open Text

/-- A flag that waits for values, and how many it has. -/
structure Pending where
  slot : Slot
  consumed : Nat
deriving Inhabited

namespace Pending

/-- Whether the flag is still below its least number of values. -/
def needsValue (p : Pending) : Bool :=
  p.consumed < p.slot.action.arity.min

/-- Whether the flag can take another value. -/
def acceptsMore (p : Pending) : Bool :=
  p.slot.action.arity.acceptsMore p.consumed

end Pending

/-- Where the reading of the words stands. `route` and `commandPath` lead from the root to the
    scope, by the places of the sub-commands and by their names. `satisfied` holds the places of
    the flags given in the scope. The next word for a positional is tried on the one at
    `positionalCursor`, which has `positionalCount` values already. -/
structure ParseState where
  root : Command
  scope : Command
  route : List Nat
  commandPath : List String
  satisfied : List Nat
  pending : Option Pending
  positionalCursor : Nat
  positionalCount : Nat
  parsed : ParsedValues
  afterTerminator : Bool
deriving Inhabited

namespace ParseState

/-- The state before the first word behind the program's name. -/
def start (root : Command) : ParseState :=
  ⟨root, root, [], [root.name], [], none, 0, 0, .empty, false⟩

/-- Whether the flag at a place of the scope has been given. -/
def isSatisfied (s : ParseState) (index : Nat) : Bool :=
  s.satisfied.contains index

/-! ## 1. Values -/

/-- Record a value of an action. -/
def record (s : ParseState) (a : Action) (value : String) : ParseState :=
  { s with parsed := s.parsed.record a.dest value }

/-- Give a word to the pending flag, which stays pending as long as it can take more. -/
def feed (s : ParseState) (p : Pending) (word : String) : ParseState :=
  let p' : Pending := ⟨p.slot, p.consumed + 1⟩
  { s.record p.slot.action word with pending := if p'.acceptsMore then some p' else none }

/-! ## 2. Flags -/

/-- A flag has been given, perhaps with a value in the same word. With such a value it stays
    pending only if it needs more. -/
def bind (s : ParseState) (slot : Slot) (inlineValue : Option String) : ParseState :=
  let a := slot.action
  let s := { s with
    satisfied := s.satisfied.insert slot.index
    parsed := s.parsed.touch a.dest
    afterTerminator := s.afterTerminator || a.terminator }
  if !a.arity.takesValue then s
  else match inlineValue with
    | none => { s with pending := some ⟨slot, 0⟩ }
    | some v =>
      let s := s.record a v
      if 1 < a.arity.min then { s with pending := some ⟨slot, 1⟩ } else s

/-- The flag that a word gives together with a value behind its first equals sign. -/
def inlineFlag? (scope : Command) (word : String) : Option (Slot × String × String) :=
  match splitOnce '=' word with
  | none => none
  | some (name, value) =>
    match scope.findFlag? name with
    | some slot => if slot.action.arity.takesValue then some (slot, name, value) else none
    | none => none

/-- Read the characters of a word as short flags introduced by `lead`. The first one that takes a
    value has the rest of the word for it; an unknown one ends the reading. -/
def bindCluster (s : ParseState) (lead : Char) : List Char → ParseState
  | [] => s
  | c :: rest =>
    match s.scope.findFlag? (String.ofList [lead, c]) with
    | none => s
    | some slot =>
      if slot.action.arity.takesValue then
        s.bind slot (if rest.isEmpty then none else some (String.ofList rest))
      else (s.bind slot none).bindCluster lead rest

/-- Read a word as a group of short flags, unless its first character is doubled. -/
def consumeCluster (s : ParseState) (word : String) : ParseState :=
  match word.toList with
  | [] => s
  | lead :: rest => if rest.head? = some lead then s else s.bindCluster lead rest

/-- Read a word that is a flag: a declared name, a declared name with a value, or a group of short
    flags. -/
def consumeFlag (s : ParseState) (word : String) : ParseState :=
  match s.scope.findFlag? word with
  | some slot => s.bind slot none
  | none =>
    match inlineFlag? s.scope word with
    | some (slot, _, value) => s.bind slot (some value)
    | none => s.consumeCluster word

/-! ## 3. Sub-commands -/

/-- Enter a sub-command. The values parsed so far are kept. -/
def descend (s : ParseState) (place : Nat) (child : Command) : ParseState :=
  { s with
    scope := child
    route := s.route ++ [place]
    commandPath := s.commandPath ++ [child.name]
    satisfied := []
    pending := none
    positionalCursor := 0
    positionalCount := 0 }

/-! ## 4. Positionals -/

/-- The first of some positionals that can take another value, where the first one has `count`
    values and stands at place `cursor`. The numbers in the result are its place and its count. -/
def seek (cursor count : Nat) : List Slot → Nat × Nat × Option Slot
  | [] => (cursor, count, none)
  | p :: ps =>
    if p.action.arity.acceptsMore count then (cursor, count, some p) else seek (cursor + 1) 0 ps

/-- Look for the positional that takes the next word. -/
def seekPositional (s : ParseState) : Nat × Nat × Option Slot :=
  seek s.positionalCursor s.positionalCount (s.scope.positionals.drop s.positionalCursor)

/-- The positional that takes the next word. -/
def nextPositional? (s : ParseState) : Option Slot :=
  s.seekPositional.2.2

/-- Give a word to the next positional. Without one the word is dropped. -/
def fillPositional (s : ParseState) (word : String) : ParseState :=
  match s.seekPositional with
  | (cursor, count, none) => { s with positionalCursor := cursor, positionalCount := count }
  | (cursor, count, some p) =>
    let s := s.record p.action word
    if p.action.arity.acceptsMore (count + 1) then
      { s with positionalCursor := cursor, positionalCount := count + 1 }
    else { s with positionalCursor := cursor + 1, positionalCount := 0 }

/-- A flag closes a positional that has at least one value and its least number of them. -/
def closePositional (s : ParseState) : ParseState :=
  if s.positionalCount = 0 then s
  else match s.scope.positionals[s.positionalCursor]? with
    | none => s
    | some p =>
      if p.action.arity.min ≤ s.positionalCount then
        { s with positionalCursor := s.positionalCursor + 1, positionalCount := 0 }
      else s

/-! ## 5. Words -/

/-- Read a word that no pending flag takes. -/
def consumeFree (s : ParseState) (word : String) : ParseState :=
  if s.afterTerminator then s.fillPositional word
  else if word = "--" ∧ (s.scope.findFlag? "--").isNone then { s with afterTerminator := true }
  else if s.scope.isFlagLike word then s.closePositional.consumeFlag word
  else match s.scope.findChild? word with
    | some (place, child) => s.descend place child
    | none => s.fillPositional word

/-- Whether a pending flag takes a word. -/
def takes (s : ParseState) (p : Pending) (word : String) : Bool :=
  p.needsValue || (!(!s.afterTerminator && s.scope.isFlagLike word) && p.acceptsMore)

/-- Read one finished word. -/
def consume (s : ParseState) (word : String) : ParseState :=
  match s.pending with
  | none => s.consumeFree word
  | some p =>
    if s.takes p word then s.feed p word else { s with pending := none }.consumeFree word

/-- Read finished words one after the other. -/
def consumeAll (s : ParseState) (words : List String) : ParseState :=
  words.foldl consume s

end ParseState

end TabCompletion
