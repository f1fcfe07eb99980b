import TabCompletion.Line.Token
import TabCompletion.Walk.State

/-!
# What the word under the cursor is

After the words before it have been read, the word under the cursor is the name of a flag, a value
of a certain action, or a word for a positional or a sub-command. Only its text up to the cursor
decides.
-/

namespace TabCompletion

open Text Line

/-- What the word under the cursor can be completed to. -/
inductive Context where
  | none
  | flagName
  | valueOf (slot : Slot)
  | positional (next : Option Slot) (subcommands : Bool)
deriving Inhabited

namespace Context

/-- Whether there is nothing to complete. -/
def isNone : Context → Bool
  | .none => true
  | _ => false

/-- The action whose values are completed. -/
def valueAction? : Context → Option Action
  | .valueOf slot => some slot.action
  | .positional next _ => next.map (·.action)
  | _ => Option.none

/-- A short description. -/
def label : Context → String
  | .none => "none"
  | .flagName => "flag name"
  | .valueOf slot => s!"value of {slot.action.displayName}"
  | .positional next subcommands =>
    let parts := (if subcommands then ["sub-command"] else [])
      ++ match next with
        | some slot => [s!"positional {slot.action.displayName}"]
        | Option.none => []
    if parts.isEmpty then "positional (exhausted)" else joinWith " | " parts

end Context

/-- The word under the cursor: the text of it that is completed, the part `flag=` in front of that
    text, the quote open at the cursor, and what it is. -/
structure ActiveWord where
  typed : String
  assignment : Option String
  quote : Quote
  context : Context
deriving Inhabited

/-- The words before the cursor read, and the word under the cursor judged. -/
structure Walk where
  state : ParseState
  word : ActiveWord
deriving Inhabited

namespace ParseState

/-- Whether a pending flag still needs a value. -/
def mustTakeValue (s : ParseState) : Bool :=
  match s.pending with
  | some p => p.needsValue
  | none => false

/-- Whether a word is the name of a flag or the beginning of one. A single character that
    introduces flags always is; of other words a pending flag takes those that are no flags. -/
def namesFlag (s : ParseState) (typed : String) : Bool :=
  s.pending.isNone || s.scope.isFlagLike typed || typed.utf8ByteSize = 1

/-- What a word is that cannot be a flag. -/
def valueContext (s : ParseState) : Context :=
  match s.pending with
  | some p => .valueOf p.slot
  | none => .positional s.nextPositional? (!s.afterTerminator && !s.scope.subcommands.isEmpty)

/-- Judge the word under the cursor by its text up to the cursor. -/
def resolve (s : ParseState) (typed : String) (quote : Quote) : ActiveWord :=
  if !s.afterTerminator && !s.mustTakeValue && s.scope.startsLikeFlag typed then
    match inlineFlag? s.scope typed with
    | some (slot, name, value) => ⟨value, some (name ++ "="), quote, .valueOf slot⟩
    | none =>
      ⟨typed, none, quote, if s.namesFlag typed then .flagName else s.valueContext⟩
  else ⟨typed, none, quote, s.valueContext⟩

end ParseState

namespace Walk

/-- The tokens before the active one, and the active one. -/
def splitActive? : List Token → Option (List Token × Token)
  | [] => none
  | t :: ts =>
    if t.active then some ([], t)
    else (splitActive? ts).map fun (before, active) => (t :: before, active)

/-- Read the tokens of a line whose first word is the name of the program. -/
def ofTokens (root : Command) (tokens : List Token) : Walk :=
  let start := ParseState.start root
  match splitActive? tokens with
  | none => ⟨start, ⟨"", none, .none, .none⟩⟩
  | some ([], active) => ⟨start, ⟨active.typed, none, active.quote, .none⟩⟩
  | some (_ :: before, active) =>
    let state := start.consumeAll (before.map (·.text))
    ⟨state, state.resolve active.typed active.quote⟩

/-- Read a line up to the cursor. -/
def ofLine (root : Command) (line : String) (cursor : Nat) : Walk :=
  ofTokens root (tokens line cursor)

/-- Whether two walks ended in the same context. Actions in it have to be the same ones of the
    same scope, and of one tree. -/
def sameContext (oneTree : Bool) (a b : Walk) : Bool :=
  let sameSlot (x y : Slot) : Bool :=
    oneTree && a.state.route = b.state.route && x.index = y.index
  match a.word.context, b.word.context with
  | .none, .none => true
  | .flagName, .flagName => true
  | .valueOf x, .valueOf y => sameSlot x y
  | .positional x m, .positional y n =>
    m = n && match x, y with
      | some x, some y => sameSlot x y
      | none, none => true
      | _, _ => false
  | _, _ => false

end Walk

end TabCompletion
