import TabCompletion.Proofs.Walk.Positionals

/-!
# What holds after every run

The parts of a state belong together: the flags that have been given are flags of the scope and have
their destination among the parsed values, the flag that waits is one of them, the place of the next
positional lies inside the list of positionals, and the path names the way to the scope. No word can
break this, and the command need not be well formed.

* `GivenInScope`, `WaitsGiven`, `OnPath`: the single invariants, each kept by every move;
* `Consistent`: all of them together, with those of the occurrences and of the positionals;
* `consistent_run`: they hold after every run.
-/

namespace TabCompletion

namespace ParseState

variable {s t : ParseState}

/-! ## 1. Flags that have been given -/

/-- Every place noted as given is the place of a flag of the scope, whose destination has been seen.
    -/
def GivenInScope (s : ParseState) : Prop :=
  ∀ i ∈ s.satisfied, ∃ a, s.scope.actions[i]? = some a ∧ a.positional = false
    ∧ (s.parsed.get? a.dest).isSome = true

/-- The flag that waits has been given. -/
def WaitsGiven (s : ParseState) : Prop :=
  ∀ p, s.pending = some p → p.slot.index ∈ s.satisfied

theorem isSome_get?_record {p : ParsedValues} {d : String} (h : (p.get? d).isSome = true)
    (dest value : String) : ((p.record dest value).get? d).isSome = true := by
  rw [ParsedValues.get?_record]
  split
  · rfl
  · exact h

theorem isSome_get?_touch {p : ParsedValues} {d : String} (h : (p.get? d).isSome = true)
    (dest : String) : ((p.touch dest).get? d).isSome = true := by
  rw [ParsedValues.get?_touch]
  split
  · rfl
  · exact h

/-- When a flag is given, what has been seen stays seen, and its destination is seen. -/
theorem isSome_get?_bind {slot : Slot} {v : Option String} {d : String}
    (h : (s.parsed.get? d).isSome = true ∨ d = slot.action.dest) :
    ((s.bind slot v).parsed.get? d).isSome = true := by
  have hgiven : ((s.given slot).parsed.get? d).isSome = true := by
    show ((s.parsed.touch slot.action.dest).get? d).isSome = true
    rcases h with h | rfl
    · exact isSome_get?_touch h _
    · rw [ParsedValues.get?_touch, if_pos rfl]
      rfl
  cases ht : slot.action.arity.takesValue with
  | false =>
    rw [bind_of_switch s slot v ht]
    exact hgiven
  | true =>
    cases v with
    | none =>
      rw [bind_none s slot ht]
      exact hgiven
    | some value =>
      rw [bind_some s slot ht]
      exact isSome_get?_record hgiven _ _

/-- A destination that has been seen stays seen. -/
theorem isSome_get?_move {d : String} (h : (s.parsed.get? d).isSome = true) (hm : Move s t) :
    (t.parsed.get? d).isSome = true := by
  cases hm with
  | feed => exact isSome_get?_record h _ _
  | release => exact h
  | stopFlags => exact h
  | close =>
    obtain ⟨cursor, count, hc⟩ := s.closePositional_eq
    rw [hc]
    exact h
  | bind => exact isSome_get?_bind (.inl h)
  | descend => exact h
  | @fill w =>
    obtain ⟨cursor, count, hf⟩ := s.fillPositional_eq w
    rw [hf]
    dsimp only
    split
    · exact isSome_get?_record h _ _
    · exact h

theorem givenInScope_move (h : s.GivenInScope) (hm : Move s t) : t.GivenInScope := by
  obtain ⟨slot, v, -, hs, rfl⟩ | ⟨place, child, -, rfl⟩ | hstays := hm.cases_stays
  · obtain ⟨hslot, hflag⟩ := Command.mem_flags.mp hs
    intro i hi
    rw [bind_scope]
    rw [bind_satisfied] at hi
    rcases List.mem_insert_iff.mp hi with rfl | hi
    · exact ⟨slot.action, Command.mem_slots.mp hslot, hflag, isSome_get?_bind (.inr rfl)⟩
    · obtain ⟨a, ha, hflag', hseen⟩ := h i hi
      exact ⟨a, ha, hflag', isSome_get?_bind (.inl hseen)⟩
  · exact fun _ hi => nomatch hi
  · intro i hi
    rw [hstays.satisfied] at hi
    obtain ⟨a, ha, hflag, hseen⟩ := h i hi
    exact ⟨a, by rw [hstays.scope]; exact ha, hflag, isSome_get?_move hseen hm⟩

theorem waitsGiven_move (h : s.WaitsGiven) (hm : Move s t) : t.WaitsGiven := by
  obtain ⟨slot, v, hp, -, rfl⟩ | ⟨place, child, -, rfl⟩ | hstays := hm.cases_stays
  · intro p hb
    rw [bind_satisfied, (s.pending_bind slot v hp hb).1]
    exact List.mem_insert_self
  · exact fun _ hq => nomatch hq
  · intro q hq
    obtain ⟨p, hp, hslot⟩ := hstays.pending q hq
    rw [hslot, hstays.satisfied]
    exact h p hp

/-! ## 2. The way to the scope -/

/-- The path begins with the name of the root and names the way to the scope. -/
def OnPath (root : Command) (s : ParseState) : Prop :=
  ∃ names, s.commandPath = root.name :: names ∧ root.LeadsTo names s.scope

theorem onPath_move {root : Command} (h : OnPath root s) (hm : Move s t) : OnPath root t := by
  obtain ⟨names, hpath, hleads⟩ := h
  obtain ⟨slot, v, -, -, rfl⟩ | ⟨place, child, hc, rfl⟩ | hstays := hm.cases_stays
  · obtain ⟨pending, parsed, hb⟩ := s.bind_eq slot v
    rw [hb]
    exact ⟨names, hpath, hleads⟩
  · refine ⟨names ++ [child.name], ?_, hleads.child (List.mem_of_getElem? hc)⟩
    show s.commandPath ++ [child.name] = root.name :: (names ++ [child.name])
    rw [hpath, List.cons_append]
  · refine ⟨names, ?_, ?_⟩
    · rw [hstays.commandPath, hpath]
    · rw [hstays.scope]
      exact hleads

/-! ## 3. All of it -/

/-- **What holds of a state that was reached**, where `log` holds the actions that were given, the
    newest first. -/
structure Consistent (root : Command) (log : List Occurrence) (s : ParseState) : Prop where
  /-- The flags noted as given are flags of the scope, and their destinations have been seen. -/
  satisfied : s.GivenInScope
  /-- The flag that waits is a flag of the scope that has been given and takes another value. -/
  waits : ∀ p, s.pending = some p →
    p.slot ∈ s.scope.flags ∧ p.slot.index ∈ s.satisfied ∧ p.acceptsMore = true
  /-- The values of its destination end with those that were given to it. -/
  values : ∀ p, s.pending = some p → ∃ earlier values,
    s.parsed.get? p.slot.action.dest = some (earlier ++ values)
      ∧ values.length = p.consumed ∧ log.head? = some ⟨p.slot, values⟩
  /-- The next positional is looked for inside the list of positionals or at its end. -/
  cursor : s.positionalCursor ≤ s.scope.positionals.length
  /-- A positional that has words, but is not left behind yet, takes another one. -/
  count : 0 < s.positionalCount → ∃ slot, s.scope.positionals[s.positionalCursor]? = some slot
    ∧ slot.action.arity.acceptsMore s.positionalCount = true
  /-- The path names the way from the root to the scope. -/
  path : OnPath root s

/-- The destination of a flag that has been given holds values, be it none. -/
theorem GivenInScope.isSome_dest (h : s.GivenInScope) {slot : Slot} (hs : slot ∈ s.scope.flags)
    (hi : slot.index ∈ s.satisfied) : (s.parsed.get? slot.action.dest).isSome = true := by
  obtain ⟨a, ha, -, hseen⟩ := h slot.index hi
  have hslot := Command.mem_slots.mp (Command.mem_flags.mp hs).1
  obtain rfl : a = slot.action := Option.some.inj (ha.symm.trans hslot)
  exact hseen

/-- **Every state that words lead to is consistent**, whether the command is well formed or not. -/
theorem consistent_run (root : Command) (words : List String) :
    Consistent root (occurrences root words) ((start root).consumeAll words) := by
  have hmoves := (start root).consumeAll_moves words
  have hgiven : ((start root).consumeAll words).GivenInScope :=
    hmoves.keep (fun _ _ => givenInScope_move) fun _ hi => nomatch hi
  have hwaits : ((start root).consumeAll words).WaitsGiven :=
    hmoves.keep (fun _ _ => waitsGiven_move) fun _ hp => nomatch hp
  have hpath : OnPath root ((start root).consumeAll words) :=
    hmoves.keep (fun _ _ => onPath_move) ⟨[], rfl, .here root⟩
  have hflag := waitsInScope_run root words
  have hlog := accounted_run root words
  have hfilled := filled_run root words
  refine {
    satisfied := hgiven
    waits := fun p hp => ⟨hflag p hp, hwaits p hp, (hlog.waiting p hp).1⟩
    values := fun p hp => ?_
    cursor := ?_
    count := hfilled.room
    path := hpath }
  · obtain ⟨-, values, older, hnewest, hlen, -⟩ := hlog.waiting p hp
    obtain ⟨found, hfound⟩ :=
      Option.isSome_iff_exists.mp (hgiven.isSome_dest (hflag p hp) (hwaits p hp))
    have hparsed := hlog.parsed p.slot.action.dest
    rw [hfound, hnewest, Occurrence.valuesFor_cons, if_pos rfl] at hparsed
    refine ⟨Occurrence.valuesFor p.slot.action.dest older, values, ?_, hlen, ?_⟩
    · rw [hfound]
      exact congrArg some hparsed
    · rw [hnewest]
      rfl
  · obtain ⟨closed, current, dropped, hblocks⟩ := hfilled.blocks
    exact hblocks.inside

end ParseState

end TabCompletion
