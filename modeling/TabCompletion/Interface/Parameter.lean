import TabCompletion.Spec.Action
import TabCompletion.Text.Visible

/-!
# Parameters

A parameter is one flag, option or positional that a program declares. What the declaration leaves
open is settled from the rest of it: what an occurrence does, and how many values it takes.

* `effect` and `count` settle what was left open.
* `toAction` is the parameter as completion sees it.
-/

namespace TabCompletion

/-- What an occurrence of a parameter does. -/
inductive Effect where
  | set
  | append
  | setTrue
  | setFalse
  | count
  | help
  | version
deriving DecidableEq, Repr, Inhabited

namespace Effect

/-- Whether an occurrence takes values. -/
def takesValues : Effect → Bool
  | .set | .append => true
  | _ => false

/-- Whether occurrences add up. -/
def accumulates : Effect → Bool
  | .append | .count => true
  | _ => false

end Effect

/-- How many values one occurrence takes; without `max` there is no bound. -/
structure ValueCount where
  min : Nat
  max : Option Nat
deriving DecidableEq, Repr, Inhabited

namespace ValueCount

/-- Exactly `n` values. -/
def exactly (n : Nat) : ValueCount := ⟨n, some n⟩

/-- Whether another value is taken after `taken` ones. -/
def acceptsMore (c : ValueCount) (taken : Nat) : Bool :=
  match c.max with
  | some m => taken < m
  | none => true

/-- The arity for completion. A range that no arity names is taken for one without a bound. -/
def arity (c : ValueCount) : Arity :=
  match c.min, c.max with
  | _, some 0 => .zero
  | 0, some 1 => .optional
  | 1, some 1 => .one
  | 0, none => .zeroOrMore
  | 1, none => .oneOrMore
  | n, some m => if n = m then .exactly n else if n = 0 then .zeroOrMore else .oneOrMore
  | _, none => .oneOrMore

end ValueCount

/-- What the values of a parameter are about. -/
inductive ValueTopic where
  | unknown
  | other
  | anyPath
  | filePath
  | dirPath
  | executablePath
  | commandName
  | commandString
  | commandWithArguments
  | username
  | hostname
  | url
  | emailAddress
deriving DecidableEq, Repr, Inhabited

/-- The source of values for a topic. Nothing is offered for topics that have no source. -/
def ValueTopic.hint : ValueTopic → ValueHint
  | .unknown => .any
  | .dirPath => .dirPath
  | .anyPath | .filePath | .executablePath => .filePath
  | _ => .nothing

/-- What a value has to look like: any text, a text that is not empty, or a number. -/
inductive ValueShape where
  | text
  | path
  | number
deriving DecidableEq, Repr, Inhabited

/-- One of the values that a parameter admits. -/
structure Choice where
  value : String
  hidden : Bool
deriving DecidableEq, Repr, Inhabited

/-- A declared flag, option or positional. Without a short and a long name it is a positional.
    `last` marks a positional that can only be given behind `--`, `inherited` a parameter that all
    sub-commands have too, and `hyphens` one whose value may look like a flag. -/
structure Parameter where
  id : String
  short : Option Char
  long : Option String
  shortAliases : List Char
  longAliases : List String
  givenEffect : Option Effect
  givenCount : Option ValueCount
  valueNames : List String
  shape : ValueShape
  choices : List Choice
  topic : ValueTopic
  help : Option String
  hidden : Bool
  last : Bool
  inherited : Bool
  required : Bool
  hyphens : Bool
deriving DecidableEq, Repr, Inhabited

namespace Parameter

/-- A positional of which nothing else is said. -/
def named (id : String) : Parameter where
  id := id
  short := none
  long := none
  shortAliases := []
  longAliases := []
  givenEffect := none
  givenCount := none
  valueNames := []
  shape := .text
  choices := []
  topic := .unknown
  help := none
  hidden := false
  last := false
  inherited := false
  required := false
  hyphens := false

/-- Whether this is a positional. -/
def isPositional (p : Parameter) : Bool :=
  p.short.isNone && p.long.isNone

/-! ## 1. What is left open -/

/-- What an occurrence does. If nothing is said, it sets a value; a parameter that takes no values
    is a switch, and a positional with any number of values collects them. -/
def effect (p : Parameter) : Effect :=
  match p.givenEffect with
  | some e => e
  | none => match p.givenCount with
    | some c =>
      if c.max = some 0 then .setTrue
      else if p.isPositional && c.max.isNone then .append
      else .set
    | none => .set

/-- How many values an occurrence takes. If nothing is said, one for each name of a value, or else
    one if it takes values at all. -/
def count (p : Parameter) : ValueCount :=
  match p.givenCount with
  | some c => c
  | none =>
    if 1 < p.valueNames.length then .exactly p.valueNames.length
    else if p.effect.takesValues then .exactly 1
    else .exactly 0

/-! ## 2. Names -/

/-- A short name as it is given. -/
def shortName (c : Char) : String :=
  String.ofList ['-', c]

/-- A long name as it is given. -/
def longName (name : String) : String :=
  "--" ++ name

/-- Whether the parameter has a short name. -/
def answersToShort (p : Parameter) (c : Char) : Bool :=
  p.short = some c || p.shortAliases.contains c

/-- Whether the parameter has a long name. -/
def answersToLong (p : Parameter) (name : String) : Bool :=
  p.long = some name || p.longAliases.contains name

/-- All names of a flag. -/
def flagNames (p : Parameter) : List String :=
  (p.short.toList ++ p.shortAliases).map shortName ++ (p.long.toList ++ p.longAliases).map longName

/-! ## 3. Completion -/

/-- The parameter as an action. -/
def toAction (p : Parameter) : Action where
  names := if p.isPositional then [p.id] else p.flagNames
  positional := p.isPositional
  arity := if p.effect.takesValues then p.count.arity else .zero
  choices :=
    if p.effect.takesValues then (p.choices.filter (!·.hidden)).map (·.value) else []
  completer := none
  hint := p.topic.hint
  terminator := p.last
  repeatable := p.effect.accumulates
  hidden := p.hidden
  help := p.help.map Text.visible

end Parameter

end TabCompletion
