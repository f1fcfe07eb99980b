import TabCompletion.Interface.Basic
import TabCompletion.Text.Basic
import TabCompletion.Text.Numeral

/-!
# Reading arguments

The arguments of a program are read from left to right against its interface. A sub-command takes
all arguments behind its name; what was given before it is judged after it. The values of an option
are judged as soon as the next parameter begins or the arguments end.

* `readWord` reads one argument, `readFrom` all of them.
* `read` gives the values of each command on the way from the root.
-/

namespace TabCompletion

open Text

/-- Why arguments cannot be used, or what they ask for instead of running the program. -/
inductive UsageError where
  | helpRequested
  | versionRequested
  | nothingGiven
  | missingSubcommand
  | unknownSubcommand
  | unknownArgument
  | missingArgument
  | givenTwice
  | invalidValue
  | malformedValue
  | wrongNumberOfValues
  | tooFewValues
  | tooManyValues
deriving DecidableEq, Repr

/-- What was given for one command: its name, and the values by the parameters' identifiers in the
    order in which they were settled. -/
structure Match where
  command : String
  values : List (String × List String)
deriving DecidableEq, Repr, Inhabited

namespace Match

/-- Whether a parameter was given. -/
def has (m : Match) (id : String) : Bool :=
  m.values.any (·.1 == id)

/-- The first value of a parameter. -/
def value? (m : Match) (id : String) : Option String :=
  (m.values.lookup id).bind (·.head?)

end Match

/-- What the next argument may belong to. -/
inductive Expecting where
  | anything
  | option (p : Parameter)
  | positional (p : Parameter)
deriving DecidableEq, Repr, Inhabited

/-- Where the reading of a command's arguments stands: what has been settled, the parameter whose
    values are being collected, the place of the next positional, and whether `--` has been seen. -/
structure Reading where
  scope : Interface
  parameters : List Parameter
  settled : List (String × List String)
  pending : Option (Parameter × List String)
  expecting : Expecting
  place : Nat
  escaped : Bool
deriving Inhabited

/-! ## 1. Values -/

/-- Check the form of a value. -/
def Parameter.checkValue (p : Parameter) (value : String) : Except UsageError Unit :=
  if !p.choices.isEmpty then
    if p.choices.any (·.value == value) then .ok () else .error .invalidValue
  else match p.shape with
    | .text => .ok ()
    | .path => if value.isEmpty then .error .invalidValue else .ok ()
    | .number => if (nat? wordBound value).isSome then .ok () else .error .malformedValue

/-- Check the form of values in their order. -/
def Parameter.checkValues (p : Parameter) : List String → Except UsageError Unit
  | [] => .ok ()
  | v :: vs => do
    p.checkValue v
    p.checkValues vs

/-- Check the number of values of one occurrence. -/
def Parameter.checkCount (p : Parameter) (n : Nat) : Except UsageError Unit :=
  let c := p.count
  if 0 < c.min ∧ n = 0 then .error .invalidValue
  else if c.max = some c.min then
    if n = c.min then .ok () else .error .wrongNumberOfValues
  else if n < c.min then .error .tooFewValues
  else match c.max with
    | some m => if m < n then .error .tooManyValues else .ok ()
    | none => .ok ()

namespace Reading

/-- Begin with a command. -/
def start (scope : Interface) (above : Inheritance) : Reading :=
  ⟨scope, scope.allParameters above, [], none, .anything, 0, false⟩

/-- Note one occurrence of a parameter with its values. -/
def occur (r : Reading) (p : Parameter) (values : List String) : Except UsageError Reading := do
  p.checkCount values.length
  match p.effect with
  | .help => .error .helpRequested
  | .version => .error .versionRequested
  | e =>
    if !e.accumulates && r.settled.any (·.1 == p.id) then .error .givenTwice
    else do
      p.checkValues values
      .ok { r with settled := r.settled ++ [(p.id, values)] }

/-- Settle the parameter whose values have been collected. -/
def settle (r : Reading) : Except UsageError Reading :=
  match r.pending with
  | none => .ok r
  | some (p, values) => { r with pending := none }.occur p values

/-! ## 2. Flags and options -/

/-- Settle what is pending, and note an occurrence that is complete. -/
def finish (r : Reading) (p : Parameter) (values : List String) : Except UsageError Reading := do
  let r ← r.settle
  let r ← r.occur p values
  .ok { r with expecting := .anything }

/-- Begin to collect the values of an option. -/
def await (r : Reading) (p : Parameter) : Except UsageError Reading := do
  let r ← r.settle
  .ok { r with pending := some (p, []), expecting := .option p }

/-- Read a word `--name` or `--name=value`. -/
def readLong (r : Reading) (name : String) (value : Option String) : Except UsageError Reading :=
  match r.parameters.find? (·.answersToLong name) with
  | none => .error .unknownArgument
  | some p => match p.effect.takesValues, value with
    | true, some v => r.finish p [v]
    | true, none => r.await p
    | false, some _ => .error .tooManyValues
    | false, none => r.finish p []

/-- Read short names behind one hyphen. What follows the name of an option is its value, with or
    without `=`. -/
def readShort (r : Reading) : List Char → Except UsageError Reading
  | [] => .ok r
  | c :: cs => match r.parameters.find? (·.answersToShort c) with
    | none => .error .unknownArgument
    | some p =>
      if p.effect.takesValues then
        match cs with
        | [] => r.await p
        | '=' :: v => r.finish p [String.ofList v]
        | v => r.finish p [String.ofList v]
      else do
        let r ← r.finish p []
        r.readShort cs

/-! ## 3. Values and positionals -/

/-- Add a value to the option that waits for it. -/
def addValue (r : Reading) (p : Parameter) (word : String) : Reading :=
  let values := (match r.pending with
    | some (_, vs) => vs
    | none => []) ++ [word]
  { r with
    pending := some (p, values)
    expecting := if p.count.acceptsMore values.length then .option p else .anything }

/-- The positional that takes the next word. Behind `--` the one that can only be given there comes
    first. -/
def positional? (r : Reading) : Option (Nat × Parameter) :=
  let ps := r.parameters.filter (·.isPositional)
  let place := if r.escaped && ps.any (·.last) then ps.length - 1 else r.place
  ps[place]?.map (place, ·)

/-- Whether a positional takes more than one word. -/
def takesMany (p : Parameter) : Bool :=
  p.effect.accumulates || p.count.max != some p.count.min || 1 < p.count.min

/-- What is wrong with a word that no parameter takes. -/
def strayWord (r : Reading) (word : String) : UsageError :=
  let named := r.scope.subcommands.any fun c => c.name == word || c.aliases.contains word
  if r.escaped && (named || (word = "help" && r.scope.hasHelpCommand)) then .unknownArgument
  else if !r.scope.subcommands.isEmpty && !r.parameters.any (·.isPositional) then
    .unknownSubcommand
  else .unknownArgument

/-- Read a word that belongs to a positional. -/
def readPositional (r : Reading) (word : String) : Except UsageError Reading :=
  match r.positional? with
  | none => .error (r.strayWord word)
  | some (place, p) =>
    if p.last && !r.escaped then .error .unknownArgument
    else do
      let collecting := r.expecting = .positional p
      let r ← if collecting then .ok r else r.settle
      let r := r.addValue p word
      .ok (if takesMany p then { r with place, expecting := .positional p }
        else { r with place := place + 1, expecting := .anything })

/-- Read a word that is neither a sub-command nor the value of an option with hyphens. -/
def readPlain (r : Reading) (word : String) : Except UsageError Reading :=
  match r.expecting with
  | .option p => .ok (r.addValue p word)
  | _ => r.readPositional word

/-- Whether the next word is a value even if it looks like a flag. -/
def takesHyphens (r : Reading) : Bool :=
  match r.expecting with
  | .option p => p.hyphens
  | _ => false

/-- Read one word that is no sub-command. -/
def readWord (r : Reading) (word : String) : Except UsageError Reading :=
  if r.escaped then r.readPositional word
  else if r.takesHyphens then r.readPlain word
  else match word.toList with
    | ['-', '-'] => .ok { r with escaped := true }
    | '-' :: '-' :: body => match splitOnce '=' (String.ofList body) with
      | some (name, value) => r.readLong name (some value)
      | none => r.readLong (String.ofList body) none
    | '-' :: c :: cs => r.readShort (c :: cs)
    | _ => r.readPlain word

/-! ## 4. Commands -/

/-- Whether the next word may be a sub-command. -/
def atCommand (r : Reading) : Bool :=
  !r.escaped && match r.expecting with
    | .anything => true
    | _ => false

/-- The sub-command that a word means. -/
def subcommand? (r : Reading) (word : String) : Option Interface :=
  if r.atCommand then
    r.scope.subcommands.find? fun c => c.name == word || c.aliases.contains word
  else none

/-- Judge a command when its arguments have ended or its sub-command has been read. -/
def close (r : Reading) (subcommand : Bool) : Except UsageError Match := do
  let r ← r.settle
  if r.scope.needsSubcommand && !subcommand then
    .error (if r.settled.isEmpty then .nothingGiven else .missingSubcommand)
  else if r.parameters.any fun p => p.required && !r.settled.any (·.1 == p.id) then
    .error .missingArgument
  else .ok ⟨r.scope.name, r.settled⟩

end Reading

namespace Interface

/-- Whether help can be had for the sub-command that a list of words leads to. -/
def helpOn (i : Interface) : List String → UsageError
  | [] => .helpRequested
  | w :: ws =>
    match i.subcommands.find? fun c => c.name == w || c.aliases.contains w with
    | some c => c.helpOn ws
    | none =>
      if w = "help" ∧ i.hasHelpCommand = true ∧ ws.isEmpty then .helpRequested
      else .unknownSubcommand
termination_by structural ws => ws

/-- Read the arguments of a command. -/
def readFrom (above : Inheritance) (r : Reading) :
    List String → Except UsageError (List Match)
  | [] => do
    let m ← r.close false
    .ok [m]
  | w :: ws =>
    match r.subcommand? w with
    | some child => do
      let below := r.scope.inheritance above
      let ms ← readFrom below (.start child below) ws
      let m ← r.close true
      .ok (m :: ms)
    | none =>
      if w = "help" ∧ r.atCommand = true ∧ r.scope.hasHelpCommand = true then
        .error (r.scope.helpOn ws)
      else do
        let r ← r.readWord w
        readFrom above r ws

/-- What arguments give for the commands from the root to the sub-command that they name. -/
def read (i : Interface) (args : List String) : Except UsageError (List Match) :=
  readFrom rootInheritance (.start i rootInheritance) args

end Interface

end TabCompletion
