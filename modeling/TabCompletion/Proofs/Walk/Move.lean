import Mathlib.Logic.Relation
import TabCompletion.Proofs.Spec.Scope
import TabCompletion.Walk.State

/-!
# What reading a word can do

One word changes the state in several steps: a flag that was waiting is released, a positional is
closed, and a group of short flags binds one flag after the other. This module says once which
steps there are, so that a property of all runs is a property of the steps.

* `Move`: the single steps, each with the condition under which it is made;
* `consume_moves`: reading a word is a chain of moves;
* `Moves.keep`: what every move keeps, every chain of moves keeps;
* `Stays`: what is left alone unless a flag is given or a sub-command entered;
* `Sound`: the scope belongs to the tree, and a flag that waits can take another value;
* `Extends`: as long as no sub-command is entered, the scope stays and flags stay given.
-/

namespace TabCompletion

namespace ParseState

/-! ## 1. What the operations leave alone -/

section Fields

variable (s : ParseState) (slot : Slot) (v : Option String) (w : String)

/-- The state in which a flag has been given, whatever its values are. -/
def given : ParseState :=
  { s with
    satisfied := s.satisfied.insert slot.index
    parsed := s.parsed.touch slot.action.dest
    afterTerminator := s.afterTerminator || slot.action.terminator }

/-- A switch takes no value. -/
theorem bind_of_switch (h : slot.action.arity.takesValue = false) :
    s.bind slot v = s.given slot := by
  unfold bind
  simp [h, given]

/-- Without an inline value a flag waits for its first one. -/
theorem bind_none (h : slot.action.arity.takesValue = true) :
    s.bind slot none = { s.given slot with pending := some ⟨slot, 0⟩ } := by
  unfold bind
  simp [h, given]

/-- With an inline value a flag waits only if it needs another one. -/
theorem bind_some (h : slot.action.arity.takesValue = true) (value : String) :
    s.bind slot (some value) = { (s.given slot).record slot.action value with
      pending := if 1 < slot.action.arity.min then some ⟨slot, 1⟩ else s.pending } := by
  unfold bind
  dsimp only
  rw [h, if_neg (by decide)]
  split <;> rfl

/-- A flag without an inline value records none, but its destination has been seen. -/
theorem parsed_bind_none : (s.bind slot none).parsed = s.parsed.touch slot.action.dest := by
  cases h : slot.action.arity.takesValue with
  | false => rw [bind_of_switch s slot none h, given]
  | true => rw [bind_none s slot h, given]

/-- The inline value of a flag that takes one is recorded. -/
theorem parsed_bind_some (h : slot.action.arity.takesValue = true) (value : String) :
    (s.bind slot (some value)).parsed
      = (s.parsed.touch slot.action.dest).record slot.action.dest value := by
  rw [bind_some s slot h]
  rfl

/-- The fields that a bound flag leaves alone, or changes whatever its values are. -/
theorem bind_fields :
    (s.bind slot v).scope = s.scope ∧ (s.bind slot v).route = s.route
      ∧ (s.bind slot v).satisfied = s.satisfied.insert slot.index := by
  cases h : slot.action.arity.takesValue with
  | false =>
    rw [bind_of_switch s slot v h]
    exact ⟨rfl, rfl, rfl⟩
  | true =>
    cases v with
    | none =>
      rw [bind_none s slot h]
      exact ⟨rfl, rfl, rfl⟩
    | some value =>
      rw [bind_some s slot h]
      exact ⟨rfl, rfl, rfl⟩

@[simp] theorem bind_scope : (s.bind slot v).scope = s.scope := (s.bind_fields slot v).1

@[simp] theorem bind_route : (s.bind slot v).route = s.route := (s.bind_fields slot v).2.1

@[simp] theorem bind_satisfied : (s.bind slot v).satisfied = s.satisfied.insert slot.index :=
  (s.bind_fields slot v).2.2

/-- Beyond having been given, a flag changes only what waits and the values parsed. -/
theorem bind_eq : ∃ pending parsed,
    s.bind slot v = { s.given slot with pending := pending, parsed := parsed } := by
  cases h : slot.action.arity.takesValue with
  | false => exact ⟨_, _, bind_of_switch s slot v h⟩
  | true =>
    cases v with
    | none => exact ⟨_, _, bind_none s slot h⟩
    | some value => exact ⟨_, _, bind_some s slot h value⟩

/-- If a flag waits after one has been given, it is that one, and it can take another value. -/
theorem pending_bind {p : Pending} (hp : s.pending = none)
    (hb : (s.bind slot v).pending = some p) : p.slot = slot ∧ p.acceptsMore = true := by
  cases ht : slot.action.arity.takesValue with
  | false =>
    rw [bind_of_switch s slot v ht] at hb
    exact nomatch hp.symm.trans hb
  | true =>
    cases v with
    | none =>
      rw [bind_none s slot ht] at hb
      cases hb
      exact ⟨rfl, (Arity.acceptsMore_zero _).trans ht⟩
    | some value =>
      rw [bind_some s slot ht] at hb
      dsimp only at hb
      split at hb
      · cases hb
        exact ⟨rfl, Arity.acceptsMore_of_lt_min ‹_›⟩
      · exact nomatch hp.symm.trans hb

/-- If a flag still waits after it has taken a word, it can take another one. -/
theorem pending_feed {p q : Pending} (hq : (s.feed p w).pending = some q) :
    q.slot = p.slot ∧ q.acceptsMore = true := by
  unfold ParseState.feed at hq
  dsimp only at hq
  split at hq
  · rename_i ha
    cases hq
    exact ⟨rfl, ha⟩
  · cases hq

/-- Closing a positional moves the place of the next one and nothing else. -/
theorem closePositional_eq : ∃ cursor count,
    s.closePositional = { s with positionalCursor := cursor, positionalCount := count } := by
  unfold closePositional
  split
  · exact ⟨_, _, rfl⟩
  · split
    · exact ⟨_, _, rfl⟩
    · split <;> exact ⟨_, _, rfl⟩

/-- Filling a positional moves the place of the next one and records at most one value. -/
theorem fillPositional_eq : ∃ cursor count,
    s.fillPositional w = { s with
      positionalCursor := cursor
      positionalCount := count
      parsed := match s.nextPositional? with
        | some slot => s.parsed.record slot.action.dest w
        | none => s.parsed } := by
  unfold fillPositional nextPositional?
  split
  · rename_i h
    rw [h]
    exact ⟨_, _, rfl⟩
  · rename_i h
    rw [h]
    dsimp only
    split <;> exact ⟨_, _, rfl⟩

end Fields

/-! ## 2. Moves -/

/-- The single steps of reading words. Only the flag that waits takes a word or is released; all
    other steps are made when no flag waits. -/
inductive Move : ParseState → ParseState → Prop where
  | feed {s : ParseState} {p : Pending} {w : String} (hp : s.pending = some p)
      (ht : s.takes p w = true) : Move s (s.feed p w)
  | release {s : ParseState} {p : Pending} {w : String} (hp : s.pending = some p)
      (ht : s.takes p w = false) : Move s { s with pending := none }
  | stopFlags {s : ParseState} (hp : s.pending = none) (ha : s.afterTerminator = false) :
      Move s { s with afterTerminator := true }
  | close {s : ParseState} (hp : s.pending = none) (ha : s.afterTerminator = false) :
      Move s s.closePositional
  | bind {s : ParseState} {slot : Slot} {v : Option String} (hp : s.pending = none)
      (hs : slot ∈ s.scope.flags) (hv : v.isSome = true → slot.action.arity.takesValue = true) :
      Move s (s.bind slot v)
  | descend {s : ParseState} {place : Nat} {child : Command} (hp : s.pending = none)
      (ha : s.afterTerminator = false) (hc : s.scope.subcommands[place]? = some child) :
      Move s (s.descend place child)
  | fill {s : ParseState} {w : String} (hp : s.pending = none) : Move s (s.fillPositional w)

/-- A chain of moves. -/
abbrev Moves : ParseState → ParseState → Prop := Relation.ReflTransGen Move

theorem bindCluster_moves {s : ParseState} (hp : s.pending = none) (lead : Char)
    (cs : List Char) : Moves s (s.bindCluster lead cs) := by
  induction cs generalizing s with
  | nil => exact .refl
  | cons c rest ih =>
    unfold bindCluster
    split
    · exact .refl
    · rename_i slot hf
      have hs : slot ∈ s.scope.flags := (Command.findFlag?_mem hf).1
      split
      · rename_i hv
        exact .single (.bind hp hs fun _ => hv)
      · rename_i hv
        have hb : Move s (s.bind slot none) := .bind hp hs fun h => absurd h Bool.false_ne_true
        have hp' : (s.bind slot none).pending = none := by
          rw [bind_of_switch s slot none (by simpa using hv)]
          exact hp
        exact .head hb (ih hp')

theorem inlineFlag?_eq_some_iff {scope : Command} {w name value : String} {slot : Slot} :
    inlineFlag? scope w = some (slot, name, value) ↔
      Text.splitOnce '=' w = some (name, value) ∧ scope.findFlag? name = some slot
        ∧ slot.action.arity.takesValue = true := by
  unfold inlineFlag?
  constructor
  · intro h
    split at h
    · cases h
    · rename_i hsplit
      split at h
      · split at h
        · rename_i hf ht
          cases h
          exact ⟨hsplit, hf, ht⟩
        · cases h
      · cases h
  · intro h
    obtain ⟨hsplit, hf, ht⟩ := h
    simp [hsplit, hf, ht]

theorem consumeFlag_moves {s : ParseState} (hp : s.pending = none) (w : String) :
    Moves s (s.consumeFlag w) := by
  unfold consumeFlag
  split
  · rename_i slot hf
    exact .single (.bind hp (Command.findFlag?_mem hf).1 fun h => absurd h Bool.false_ne_true)
  · split
    · rename_i slot name value hi
      obtain ⟨-, hf, hv⟩ := inlineFlag?_eq_some_iff.mp hi
      exact .single (.bind hp (Command.findFlag?_mem hf).1 fun _ => hv)
    · unfold consumeCluster
      split
      · exact .refl
      · split
        · exact .refl
        · exact bindCluster_moves hp _ _

theorem consumeFree_moves {s : ParseState} (hp : s.pending = none) (w : String) :
    Moves s (s.consumeFree w) := by
  unfold consumeFree
  cases ha : s.afterTerminator with
  | true => exact .single (.fill hp)
  | false =>
    rw [if_neg Bool.false_ne_true]
    split
    · exact .single (.stopFlags hp ha)
    · split
      · obtain ⟨cursor, count, hc⟩ := s.closePositional_eq
        have hp' : s.closePositional.pending = none := by
          rw [hc]
          exact hp
        exact .head (.close hp ha) (consumeFlag_moves hp' w)
      · split
        · rename_i hf
          exact .single (.descend hp ha (Command.findChild?_mem hf).1)
        · exact .single (.fill hp)

/-- **Reading a word is a chain of moves.** -/
theorem consume_moves (s : ParseState) (w : String) : Moves s (s.consume w) := by
  unfold consume
  split
  · rename_i hp
    exact consumeFree_moves hp w
  · rename_i p hp
    cases ht : s.takes p w with
    | true => exact .single (.feed hp ht)
    | false => exact .head (.release hp ht) (consumeFree_moves rfl w)

theorem consumeAll_cons (s : ParseState) (w : String) (ws : List String) :
    s.consumeAll (w :: ws) = (s.consume w).consumeAll ws := rfl

/-- Reading words is a chain of moves. -/
theorem consumeAll_moves (s : ParseState) (words : List String) : Moves s (s.consumeAll words) := by
  induction words generalizing s with
  | nil => exact .refl
  | cons w ws ih =>
    rw [consumeAll_cons]
    exact (s.consume_moves w).trans (ih (s.consume w))

/-- What every move keeps, every chain of moves keeps. -/
theorem Moves.keep {P : ParseState → Prop} (hm : ∀ s t, P s → Move s t → P t)
    {s t : ParseState} (h : Moves s t) (hs : P s) : P t := by
  induction h with
  | refl => exact hs
  | tail _ h ih => exact hm _ _ ih h

/-- From `s` to `t` no flag has been given and no sub-command entered: the scope stays, with the way to
    it and the flags given there, and a flag that waits has waited before. -/
structure Stays (s t : ParseState) : Prop where
  scope : t.scope = s.scope
  commandPath : t.commandPath = s.commandPath
  satisfied : t.satisfied = s.satisfied
  pending : ∀ q, t.pending = some q → ∃ p, s.pending = some p ∧ q.slot = p.slot

/-- **A move gives a flag, enters a sub-command, or stays.** -/
theorem Move.cases_stays {s t : ParseState} (hm : Move s t) :
    (∃ slot v, s.pending = none ∧ slot ∈ s.scope.flags ∧ t = s.bind slot v)
      ∨ (∃ place child, s.scope.subcommands[place]? = some child ∧ t = s.descend place child)
      ∨ Stays s t := by
  cases hm with
  | @feed p w hp =>
    exact .inr (.inr ⟨rfl, rfl, rfl, fun q hq => ⟨p, hp, (s.pending_feed w hq).1⟩⟩)
  | release => exact .inr (.inr ⟨rfl, rfl, rfl, fun _ hq => nomatch hq⟩)
  | stopFlags => exact .inr (.inr ⟨rfl, rfl, rfl, fun q hq => ⟨q, hq, rfl⟩⟩)
  | close =>
    obtain ⟨cursor, count, hc⟩ := s.closePositional_eq
    rw [hc]
    exact .inr (.inr ⟨rfl, rfl, rfl, fun q hq => ⟨q, hq, rfl⟩⟩)
  | @bind slot v hp hs => exact .inl ⟨slot, v, hp, hs, rfl⟩
  | @descend place child _ _ hc => exact .inr (.inl ⟨place, child, hc, rfl⟩)
  | @fill w =>
    obtain ⟨cursor, count, hf⟩ := s.fillPositional_eq w
    rw [hf]
    exact .inr (.inr ⟨rfl, rfl, rfl, fun q hq => ⟨q, hq, rfl⟩⟩)

/-! ## 3. The invariant of all runs -/

/-- **The invariant of a run**: the scope belongs to the tree below `root`, and a flag that waits
    can take another value. -/
structure Sound (root : Command) (s : ParseState) : Prop where
  scope : root.HasScope s.scope
  pending : ∀ p, s.pending = some p → p.acceptsMore = true

theorem sound_start (root : Command) : Sound root (start root) :=
  ⟨.self root, fun _ h => nomatch h⟩

/-- **Every move keeps the invariant.** -/
theorem sound_move {root : Command} {s t : ParseState} (h : Sound root s) (hm : Move s t) :
    Sound root t := by
  cases hm with
  | @feed p w => exact ⟨h.scope, fun q hq => (s.pending_feed w hq).2⟩
  | release => exact ⟨h.scope, fun _ hq => nomatch hq⟩
  | stopFlags => exact ⟨h.scope, h.pending⟩
  | close =>
    obtain ⟨cursor, count, hc⟩ := s.closePositional_eq
    rw [hc]
    exact ⟨h.scope, h.pending⟩
  | @bind slot v hp =>
    exact ⟨by rw [bind_scope]; exact h.scope, fun p hb => (s.pending_bind slot v hp hb).2⟩
  | descend _ _ hc => exact ⟨h.scope.child (List.mem_of_getElem? hc), fun _ hq => nomatch hq⟩
  | @fill w =>
    obtain ⟨cursor, count, hf⟩ := s.fillPositional_eq w
    rw [hf]
    exact ⟨h.scope, h.pending⟩

/-- Every run keeps the invariant. -/
theorem sound_consumeAll {root : Command} {s : ParseState} (h : Sound root s)
    (words : List String) : Sound root (s.consumeAll words) :=
  (s.consumeAll_moves words).keep (fun _ _ => sound_move) h

theorem sound_run (root : Command) (words : List String) :
    Sound root ((start root).consumeAll words) :=
  sound_consumeAll (sound_start root) words

/-! ## 4. Runs inside one scope -/

/-- `Extends s t`: from `s` to `t` the route has only grown, and if it is the same, then so is the
    scope, and no flag is forgotten. -/
structure Extends (s t : ParseState) : Prop where
  route : s.route <+: t.route
  scope : t.route = s.route → t.scope = s.scope
  satisfied : t.route = s.route → ∀ i ∈ s.satisfied, i ∈ t.satisfied

theorem Extends.refl (s : ParseState) : Extends s s :=
  ⟨List.prefix_rfl, fun _ => rfl, fun _ _ h => h⟩

theorem Extends.trans {s t u : ParseState} (hst : Extends s t) (htu : Extends t u) :
    Extends s u := by
  -- a route that has come back to its start never left it
  have hback : u.route = s.route → t.route = s.route ∧ u.route = t.route := fun h => by
    have hts : t.route = s.route :=
      (htu.route.trans (h ▸ List.prefix_rfl)).eq_of_length_le hst.route.length_le
    exact ⟨hts, h.trans hts.symm⟩
  refine ⟨hst.route.trans htu.route, fun h => ?_, fun h i hi => ?_⟩
  · obtain ⟨hts, hut⟩ := hback h
    rw [htu.scope hut, hst.scope hts]
  · obtain ⟨hts, hut⟩ := hback h
    exact htu.satisfied hut i (hst.satisfied hts i hi)

theorem extends_move {s t : ParseState} (hm : Move s t) : Extends s t := by
  cases hm with
  | feed => exact ⟨List.prefix_rfl, fun _ => rfl, fun _ _ h => h⟩
  | release => exact ⟨List.prefix_rfl, fun _ => rfl, fun _ _ h => h⟩
  | stopFlags => exact ⟨List.prefix_rfl, fun _ => rfl, fun _ _ h => h⟩
  | close =>
    obtain ⟨cursor, count, hc⟩ := s.closePositional_eq
    rw [hc]
    exact ⟨List.prefix_rfl, fun _ => rfl, fun _ _ h => h⟩
  | @bind slot v =>
    have hroute : s.route <+: (s.bind slot v).route := by
      simp only [bind_route, List.prefix_rfl]
    refine ⟨hroute, fun _ => s.bind_scope slot v, fun _ i hi => ?_⟩
    rw [bind_satisfied]
    exact List.mem_insert_of_mem hi
  | descend =>
    -- the route has become longer
    exact ⟨List.prefix_append _ _, fun h => absurd (congrArg List.length h) (by simp [descend]),
      fun h => absurd (congrArg List.length h) (by simp [descend])⟩
  | @fill w =>
    obtain ⟨cursor, count, hf⟩ := s.fillPositional_eq w
    rw [hf]
    exact ⟨List.prefix_rfl, fun _ => rfl, fun _ _ h => h⟩

/-- **A run never forgets a flag of its scope unless it enters a sub-command.** -/
theorem extends_run (s : ParseState) (words : List String) : Extends s (s.consumeAll words) :=
  (s.consumeAll_moves words).keep (fun _ _ h hm => h.trans (extends_move hm)) (.refl s)

end ParseState

end TabCompletion
