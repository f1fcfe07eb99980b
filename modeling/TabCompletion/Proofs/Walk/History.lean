import TabCompletion.Proofs.Walk.Move

/-!
# What happened while the words were read

A state tells what has been parsed, but not how that came about: which flag took which words, and
which words went to which positional. This module writes it down. Reading a word makes a few events
happen, and the events of all words are the history of a run.

* `Event`, `ParseState.after`: what can happen, and the state behind it;
* `ParseState.Happens`: the condition under which an event happens;
* `ParseState.events`, `ParseState.history`: what happens when words are read;
* `leads_history`: the history, event by event, leads to the state behind the words;
* `keep_run`: what every event keeps, of the history so far and the state, every run keeps.
-/

namespace TabCompletion

/-- What can happen when a word is read: the flag that waits takes it or is released, the matching
    of flags stops, a positional is closed, a flag is given (perhaps with a value in the same word),
    a sub-command is entered, or the word is given to a positional, if there is one for it. -/
inductive Event where
  | feed (p : Pending) (word : String)
  | release (p : Pending)
  | stopFlags
  | close
  | bind (slot : Slot) (inlineValue : Option String)
  | enter (place : Nat) (child : Command)
  | fill (target : Option Slot) (word : String)

namespace ParseState

/-! ## 1. Single events -/

/-- The state behind an event. -/
def after (s : ParseState) : Event → ParseState
  | .feed p word => s.feed p word
  | .release _ => { s with pending := none }
  | .stopFlags => { s with afterTerminator := true }
  | .close => s.closePositional
  | .bind slot inlineValue => s.bind slot inlineValue
  | .enter place child => s.descend place child
  | .fill _ word => s.fillPositional word

/-- The condition under which an event happens. Only the flag that waits takes a word or is
    released; everything else happens when no flag waits. -/
inductive Happens (s : ParseState) : Event → Prop where
  | feed {p : Pending} {w : String} (hp : s.pending = some p) (ht : s.takes p w = true) :
      Happens s (.feed p w)
  | release {p : Pending} {w : String} (hp : s.pending = some p) (ht : s.takes p w = false) :
      Happens s (.release p)
  | stopFlags (hp : s.pending = none) (ha : s.afterTerminator = false) : Happens s .stopFlags
  | close (hp : s.pending = none) (ha : s.afterTerminator = false) : Happens s .close
  | bind {slot : Slot} {v : Option String} (hp : s.pending = none) (hs : slot ∈ s.scope.flags)
      (hv : v.isSome = true → slot.action.arity.takesValue = true) : Happens s (.bind slot v)
  | enter {place : Nat} {child : Command} (hp : s.pending = none) (ha : s.afterTerminator = false)
      (hc : s.scope.subcommands[place]? = some child) : Happens s (.enter place child)
  | fill {w : String} (hp : s.pending = none) : Happens s (.fill s.nextPositional? w)

/-! ## 2. The events of a word -/

/-- The flags that the characters of a word give, introduced by `lead`. -/
def clusterEvents (scope : Command) (lead : Char) : List Char → List Event
  | [] => []
  | c :: rest =>
    match scope.findFlag? (String.ofList [lead, c]) with
    | none => []
    | some slot =>
      if slot.action.arity.takesValue then
        [.bind slot (if rest.isEmpty then none else some (String.ofList rest))]
      else .bind slot none :: clusterEvents scope lead rest

/-- The flags that a word gives. -/
def flagEvents (scope : Command) (word : String) : List Event :=
  match scope.findFlag? word with
  | some slot => [.bind slot none]
  | none =>
    match inlineFlag? scope word with
    | some (slot, _, value) => [.bind slot (some value)]
    | none =>
      match word.toList with
      | [] => []
      | lead :: rest => if rest.head? = some lead then [] else clusterEvents scope lead rest

/-- What happens when a word is read that no pending flag takes. -/
def freeEvents (s : ParseState) (word : String) : List Event :=
  if s.afterTerminator then [.fill s.nextPositional? word]
  else if word = "--" ∧ (s.scope.findFlag? "--").isNone then [.stopFlags]
  else if s.scope.isFlagLike word then .close :: flagEvents s.scope word
  else match s.scope.findChild? word with
    | some (place, child) => [.enter place child]
    | none => [.fill s.nextPositional? word]

/-- What happens when a word is read. -/
def events (s : ParseState) (word : String) : List Event :=
  match s.pending with
  | none => s.freeEvents word
  | some p =>
    if s.takes p word then [.feed p word]
    else .release p :: { s with pending := none }.freeEvents word

/-- What happens when words are read one after the other. -/
def history (s : ParseState) : List String → List Event
  | [] => []
  | w :: ws => s.events w ++ (s.consume w).history ws

/-! ## 3. Events in a row -/

/-- The events happen one after the other, each under its condition, and lead from `s` to `t`. -/
inductive Leads : ParseState → List Event → ParseState → Prop where
  | nil (s : ParseState) : Leads s [] s
  | cons {s t : ParseState} {e : Event} {es : List Event} (h : s.Happens e)
      (hl : Leads (s.after e) es t) : Leads s (e :: es) t

theorem Happens.leads {s : ParseState} {e : Event} (h : s.Happens e) : Leads s [e] (s.after e) :=
  .cons h (.nil _)

theorem Leads.trans {s t u : ParseState} {es fs : List Event} (hst : Leads s es t)
    (htu : Leads t fs u) : Leads s (es ++ fs) u := by
  induction hst with
  | nil => exact htu
  | cons h _ ih => exact .cons h (ih htu)

/-- **What every event keeps, every row of events keeps.** The property may speak of all events so
    far. -/
theorem Leads.keep {P : List Event → ParseState → Prop}
    (hstep : ∀ past s e, P past s → s.Happens e → P (past ++ [e]) (s.after e))
    {s t : ParseState} {es : List Event} (h : Leads s es t) {past : List Event} (hs : P past s) :
    P (past ++ es) t := by
  induction h generalizing past with
  | nil => rwa [List.append_nil]
  | cons he _ ih =>
    rw [List.append_cons]
    exact ih (hstep _ _ _ hs he)

theorem leads_clusterEvents {s : ParseState} (hp : s.pending = none) (lead : Char)
    (cs : List Char) : Leads s (clusterEvents s.scope lead cs) (s.bindCluster lead cs) := by
  induction cs generalizing s with
  | nil => exact .nil s
  | cons c rest ih =>
    unfold clusterEvents bindCluster
    cases hf : s.scope.findFlag? (String.ofList [lead, c]) with
    | none => exact .nil s
    | some slot =>
      have hs : slot ∈ s.scope.flags := (Command.findFlag?_mem hf).1
      dsimp only
      split
      · rename_i hv
        exact (Happens.bind hp hs fun _ => hv).leads
      · rename_i hv
        have hp' : (s.bind slot none).pending = none := by
          rw [bind_of_switch s slot none (by simpa using hv)]
          exact hp
        -- the scope in which the rest is looked up is still the same
        have hrest := ih hp'
        rw [bind_scope] at hrest
        exact .cons (.bind hp hs fun h => absurd h Bool.false_ne_true) hrest

theorem leads_flagEvents {s : ParseState} (hp : s.pending = none) (w : String) :
    Leads s (flagEvents s.scope w) (s.consumeFlag w) := by
  unfold flagEvents consumeFlag
  cases hf : s.scope.findFlag? w with
  | some slot =>
    have hb : s.Happens (.bind slot none) :=
      .bind hp (Command.findFlag?_mem hf).1 fun h => absurd h Bool.false_ne_true
    exact hb.leads
  | none =>
    cases hi : inlineFlag? s.scope w with
    | some found =>
      obtain ⟨slot, name, value⟩ := found
      obtain ⟨-, hf, hv⟩ := inlineFlag?_eq_some_iff.mp hi
      exact (Happens.bind hp (Command.findFlag?_mem hf).1 fun _ => hv).leads
    | none =>
      dsimp only
      unfold consumeCluster
      cases w.toList with
      | nil => exact .nil s
      | cons lead rest =>
        dsimp only
        split
        · exact .nil s
        · exact leads_clusterEvents hp lead rest

theorem leads_freeEvents {s : ParseState} (hp : s.pending = none) (w : String) :
    Leads s (s.freeEvents w) (s.consumeFree w) := by
  unfold freeEvents consumeFree
  cases ha : s.afterTerminator with
  | true => exact (Happens.fill hp).leads
  | false =>
    rw [if_neg Bool.false_ne_true, if_neg Bool.false_ne_true]
    split
    · exact (Happens.stopFlags hp ha).leads
    · split
      · obtain ⟨cursor, count, hc⟩ := s.closePositional_eq
        have hp' : s.closePositional.pending = none := by
          rw [hc]
          exact hp
        have hscope : s.closePositional.scope = s.scope := by rw [hc]
        have hflag := leads_flagEvents hp' w
        rw [hscope] at hflag
        exact .cons (.close hp ha) hflag
      · cases hf : s.scope.findChild? w with
        | some found => exact (Happens.enter hp ha (Command.findChild?_mem hf).1).leads
        | none => exact (Happens.fill hp).leads

/-- **The events of a word lead to the state behind it.** -/
theorem leads_events (s : ParseState) (w : String) : Leads s (s.events w) (s.consume w) := by
  unfold events consume
  cases hp : s.pending with
  | none => exact leads_freeEvents hp w
  | some p =>
    dsimp only
    cases ht : s.takes p w with
    | true => exact (Happens.feed hp ht).leads
    | false => exact .cons (.release hp ht) (leads_freeEvents rfl w)

/-- **The history of a run leads to its end.** -/
theorem leads_history (s : ParseState) (words : List String) :
    Leads s (s.history words) (s.consumeAll words) := by
  induction words generalizing s with
  | nil => exact .nil s
  | cons w ws ih =>
    rw [consumeAll_cons]
    exact (s.leads_events w).trans (ih (s.consume w))

/-- A property of history and state that holds at the start, and that every event keeps, holds after
    every run. -/
theorem keep_run {P : List Event → ParseState → Prop} (root : Command)
    (hstart : P [] (start root))
    (hstep : ∀ past s e, P past s → s.Happens e → P (past ++ [e]) (s.after e))
    (words : List String) : P ((start root).history words) ((start root).consumeAll words) :=
  ((start root).leads_history words).keep hstep hstart

end ParseState

end TabCompletion
