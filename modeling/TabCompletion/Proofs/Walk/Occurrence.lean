import TabCompletion.Proofs.Walk.Belonging
import TabCompletion.Proofs.Walk.History

/-!
# How many values a flag gets

A flag may be given several times on one line, and its values are all recorded under one
destination. This module keeps the occurrences apart: each has the values that it took itself. A run
is then legal occurrence by occurrence.

* `Arity.Permits`: the numbers of values with which an action is content;
* `Occurrence`, `occurrences`: the actions given on a line, each with its values;
* `Accounted`: the invariant that ties the occurrences to the state, kept by every event;
* `legalCounts_of_run`: no occurrence of a flag ever gets too many values, only the one that waits
  may have too few, and no word comes between it and the values that it needs.
-/

namespace TabCompletion

/-! ## 1. Numbers of values -/

namespace Arity

variable {a : Arity} {n : Nat}

/-- The number of values is neither below the least one nor above the greatest. -/
def Permits (a : Arity) (n : Nat) : Prop :=
  a.min ≤ n ∧ ∀ m, a.max? = some m → n ≤ m

/-- An action that takes another value stays within its greatest number. -/
theorem succ_le_of_acceptsMore (h : a.acceptsMore n = true) {m : Nat} (hm : a.max? = some m) :
    n + 1 ≤ m := by
  unfold acceptsMore at h
  rw [hm] at h
  exact of_decide_eq_true h

/-- An action that takes no other value has its least number. -/
theorem min_le_of_full (h : a.acceptsMore n = false) : a.min ≤ n := by
  by_contra hlt
  rw [acceptsMore_of_lt_min (Nat.lt_of_not_le hlt)] at h
  cases h

theorem permits_of_enough (hn : a.min ≤ n) (h : a.acceptsMore n = true) : a.Permits n :=
  ⟨hn, fun _ hm => Nat.le_of_succ_le (succ_le_of_acceptsMore h hm)⟩

theorem permits_of_filled (h : a.acceptsMore n = true) (hf : a.acceptsMore (n + 1) = false) :
    a.Permits (n + 1) :=
  ⟨min_le_of_full hf, fun _ hm => succ_le_of_acceptsMore h hm⟩

theorem permits_zero (h : a.acceptsMore 0 = false) : a.Permits 0 :=
  ⟨min_le_of_full h, fun _ _ => Nat.zero_le _⟩

end Arity

/-! ## 2. Occurrences -/

/-- An action as it was given on a line: a flag with the values that it took, or a positional with
    one word. -/
structure Occurrence where
  slot : Slot
  values : List String

namespace Occurrence

/-- Note an event; the newest occurrence comes first. A word that the flag which waits takes goes to
    the newest one. -/
def note (log : List Occurrence) : Event → List Occurrence
  | .bind slot inlineValue => ⟨slot, inlineValue.toList⟩ :: log
  | .fill (some slot) word => ⟨slot, [word]⟩ :: log
  | .feed _ word =>
    match log with
    | [] => []
    | newest :: older => ⟨newest.slot, newest.values ++ [word]⟩ :: older
  | _ => log

/-- The occurrences behind some events, the newest first. -/
def log (es : List Event) : List Occurrence :=
  es.foldl note []

theorem log_append (es : List Event) (e : Event) : log (es ++ [e]) = note (log es) e := by
  simp [log]

/-- The values that the occurrences hold for a destination, in line order. -/
def valuesFor (dest : String) : List Occurrence → List String
  | [] => []
  | newest :: older =>
    valuesFor dest older ++ if newest.slot.action.dest = dest then newest.values else []

theorem valuesFor_cons (dest : String) (newest : Occurrence) (older : List Occurrence) :
    valuesFor dest (newest :: older) = valuesFor dest older
      ++ if newest.slot.action.dest = dest then newest.values else [] := rfl

/-- An occurrence of a flag has as many values as its arity permits. -/
def Complete (o : Occurrence) : Prop :=
  o.slot.action.positional = false → o.slot.action.arity.Permits o.values.length

end Occurrence

/-- The actions that have been given when `words` have been read, the newest first. -/
def ParseState.occurrences (root : Command) (words : List String) : List Occurrence :=
  Occurrence.log ((start root).history words)

/-! ## 3. Values recorded -/

namespace ParsedValues

variable (p : ParsedValues) (dest value d : String)

theorem getD_record : ((p.record dest value).get? d).getD []
    = (p.get? d).getD [] ++ if dest = d then [value] else [] := by
  rw [get?_record]
  by_cases h : d = dest
  · rw [if_pos h, if_pos h.symm]
    rfl
  · rw [if_neg h, if_neg (Ne.symm h), List.append_nil]

theorem getD_touch : ((p.touch dest).get? d).getD [] = (p.get? d).getD [] := by
  rw [get?_touch]
  split <;> rfl

end ParsedValues

namespace ParseState

variable {s : ParseState} {log : List Occurrence}

/-- A flag that is given records the value in its own word, and no other. -/
theorem getD_parsed_bind {slot : Slot} {v : Option String}
    (hv : v.isSome = true → slot.action.arity.takesValue = true) (d : String) :
    ((s.bind slot v).parsed.get? d).getD []
      = (s.parsed.get? d).getD [] ++ if slot.action.dest = d then v.toList else [] := by
  cases v with
  | none =>
    rw [parsed_bind_none, ParsedValues.getD_touch]
    simp
  | some value =>
    rw [parsed_bind_some s slot (hv rfl), ParsedValues.getD_record, ParsedValues.getD_touch]
    rfl

theorem getD_parsed_fillPositional (w d : String) :
    ((s.fillPositional w).parsed.get? d).getD [] = (s.parsed.get? d).getD []
      ++ match s.nextPositional? with
        | some slot => if slot.action.dest = d then [w] else []
        | none => [] := by
  obtain ⟨cursor, count, hf⟩ := s.fillPositional_eq w
  rw [hf]
  dsimp only
  cases s.nextPositional? with
  | none => exact (List.append_nil _).symm
  | some slot => exact s.parsed.getD_record _ _ _

/-! ## 4. What waits behind an event -/

theorem acceptsMore_of_takes {p : Pending} {w : String} (ht : s.takes p w = true) :
    p.acceptsMore = true := by
  unfold takes at ht
  rcases (Bool.or_eq_true _ _).mp ht with hn | hm
  · exact Arity.acceptsMore_of_lt_min (of_decide_eq_true hn)
  · exact (Bool.and_eq_true_iff.mp hm).2

/-- Behind another value a flag either waits on, or has a number of values that it permits. -/
theorem pending_feed_cases {p : Pending} {w : String} (ht : s.takes p w = true) :
    ((s.feed p w).pending = none ∧ p.slot.action.arity.Permits (p.consumed + 1))
      ∨ ((s.feed p w).pending = some ⟨p.slot, p.consumed + 1⟩
        ∧ p.slot.action.arity.acceptsMore (p.consumed + 1) = true) := by
  have hpending : (s.feed p w).pending = if p.slot.action.arity.acceptsMore (p.consumed + 1)
      then some ⟨p.slot, p.consumed + 1⟩ else none := rfl
  cases hm : p.slot.action.arity.acceptsMore (p.consumed + 1) with
  | false =>
    rw [hm, if_neg Bool.false_ne_true] at hpending
    exact .inl ⟨hpending, Arity.permits_of_filled (acceptsMore_of_takes ht) hm⟩
  | true =>
    rw [hm, if_pos rfl] at hpending
    exact .inr ⟨hpending, rfl⟩

/-- When a flag has been given, either it waits for more, or no flag waits and it has a number of
    values that it permits. -/
theorem pending_bind_cases (hp : s.pending = none) {slot : Slot} {v : Option String}
    (hv : v.isSome = true → slot.action.arity.takesValue = true) :
    ((s.bind slot v).pending = none ∧ slot.action.arity.Permits v.toList.length)
      ∨ ((s.bind slot v).pending = some ⟨slot, v.toList.length⟩
        ∧ slot.action.arity.acceptsMore v.toList.length = true) := by
  have hfirst := Arity.acceptsMore_zero slot.action.arity
  cases v with
  | none =>
    cases ht : slot.action.arity.takesValue with
    | false =>
      rw [bind_of_switch s slot none ht]
      exact .inl ⟨hp, Arity.permits_zero (hfirst.trans ht)⟩
    | true =>
      rw [bind_none s slot ht]
      exact .inr ⟨rfl, hfirst.trans ht⟩
  | some value =>
    have ht := hv rfl
    rw [bind_some s slot ht]
    dsimp only
    split
    · rename_i hmin
      exact .inr ⟨rfl, Arity.acceptsMore_of_lt_min hmin⟩
    · rename_i hmin
      have hmax := fun m hm => Arity.succ_le_of_acceptsMore (m := m) (hfirst.trans ht) hm
      exact .inl ⟨hp, Nat.le_of_not_lt hmin, hmax⟩

/-! ## 5. The invariant -/

/-- **The occurrences account for the state**: they hold all values that were parsed, the newest is
    the flag that waits, if any, with the values counted for it, and all others are complete. -/
structure Accounted (log : List Occurrence) (s : ParseState) : Prop where
  parsed : ∀ d, (s.parsed.get? d).getD [] = Occurrence.valuesFor d log
  idle : s.pending = none → ∀ o ∈ log, o.Complete
  waiting : ∀ p, s.pending = some p → p.acceptsMore = true ∧ ∃ values older,
    log = ⟨p.slot, values⟩ :: older ∧ values.length = p.consumed ∧ ∀ o ∈ older, o.Complete

theorem accounted_start (root : Command) : Accounted [] (start root) :=
  ⟨fun _ => rfl, fun _ _ ho => (nomatch ho), fun _ hp => nomatch hp⟩

/-- The invariant from the two things that the newest occurrence can be: complete, or waiting. -/
theorem Accounted.of_newest {slot : Slot} {values : List String}
    (hparsed : ∀ d, (s.parsed.get? d).getD [] = Occurrence.valuesFor d (⟨slot, values⟩ :: log))
    (hlog : ∀ o ∈ log, o.Complete)
    (hnewest : (s.pending = none ∧ slot.action.arity.Permits values.length)
      ∨ (s.pending = some ⟨slot, values.length⟩
        ∧ slot.action.arity.acceptsMore values.length = true)) :
    Accounted (⟨slot, values⟩ :: log) s := by
  refine ⟨hparsed, fun hnone => ?_, fun p hp => ?_⟩
  · rcases hnewest with ⟨-, hpermits⟩ | ⟨hwaits, -⟩
    · exact List.forall_mem_cons.mpr ⟨fun _ => hpermits, hlog⟩
    · exact nomatch hnone.symm.trans hwaits
  · rcases hnewest with ⟨hnone, -⟩ | ⟨hwaits, hmore⟩
    · exact nomatch hnone.symm.trans hp
    · obtain rfl : p = ⟨slot, values.length⟩ := Option.some.inj (hp.symm.trans hwaits)
      exact ⟨hmore, values, log, rfl, rfl, hlog⟩

theorem Accounted.feed (h : Accounted log s) {p : Pending} {w : String}
    (hp : s.pending = some p) (ht : s.takes p w = true) :
    Accounted (Occurrence.note log (.feed p w)) (s.feed p w) := by
  obtain ⟨-, values, older, rfl, hlen, hold⟩ := h.waiting p hp
  have hlen' : p.consumed + 1 = (values ++ [w]).length := by simp [hlen]
  have hnewest := pending_feed_cases ht
  rw [hlen'] at hnewest
  refine .of_newest (fun d => ?_) hold hnewest
  have hrecord := s.parsed.getD_record p.slot.action.dest w d
  rw [h.parsed d] at hrecord
  refine hrecord.trans ?_
  rw [Occurrence.valuesFor_cons, Occurrence.valuesFor_cons]
  split <;> simp

theorem Accounted.release (h : Accounted log s) {p : Pending} {w : String}
    (hp : s.pending = some p) (ht : s.takes p w = false) :
    Accounted log { s with pending := none } := by
  obtain ⟨hmore, values, older, rfl, hlen, hold⟩ := h.waiting p hp
  have hmin : p.slot.action.arity.min ≤ p.consumed := by
    unfold takes at ht
    have hneeds := (Bool.or_eq_false_iff.mp ht).1
    exact Nat.le_of_not_lt (of_decide_eq_false hneeds)
  have hpermits := Arity.permits_of_enough hmin hmore
  rw [← hlen] at hpermits
  exact .of_newest h.parsed hold (.inl ⟨rfl, hpermits⟩)

theorem Accounted.bind (h : Accounted log s) (hp : s.pending = none) {slot : Slot}
    {v : Option String} (hv : v.isSome = true → slot.action.arity.takesValue = true) :
    Accounted (Occurrence.note log (.bind slot v)) (s.bind slot v) := by
  refine .of_newest (fun d => ?_) (h.idle hp) (pending_bind_cases hp hv)
  rw [getD_parsed_bind hv d, h.parsed d]
  rfl

theorem Accounted.fill (h : Accounted log s) (hp : s.pending = none) (w : String) :
    Accounted (Occurrence.note log (.fill s.nextPositional? w)) (s.fillPositional w) := by
  have hparsed := getD_parsed_fillPositional (s := s) w
  obtain ⟨cursor, count, hf⟩ := s.fillPositional_eq w
  have hp' : (s.fillPositional w).pending = none := by
    rw [hf]
    exact hp
  cases hn : s.nextPositional? with
  | none =>
    refine ⟨fun d => ?_, fun _ => h.idle hp, fun q hq => nomatch hp'.symm.trans hq⟩
    rw [hparsed d, hn, h.parsed d]
    exact List.append_nil _
  | some slot =>
    have hpositional : slot.action.positional = true :=
      (List.mem_filter.mp (nextPositional?_mem hn)).2
    have hcomplete : Occurrence.Complete ⟨slot, [w]⟩ := fun hflag =>
      nomatch hpositional.symm.trans hflag
    refine ⟨fun d => ?_, fun _ => List.forall_mem_cons.mpr ⟨hcomplete, h.idle hp⟩,
      fun q hq => nomatch hp'.symm.trans hq⟩
    rw [hparsed d, hn, h.parsed d]
    rfl

/-- **Every event keeps the account.** -/
theorem accounted_after {e : Event} (h : Accounted log s) (he : s.Happens e) :
    Accounted (Occurrence.note log e) (s.after e) := by
  cases he with
  | feed hp ht => exact h.feed hp ht
  | release hp ht => exact h.release hp ht
  | stopFlags hp => exact ⟨h.parsed, h.idle, h.waiting⟩
  | close hp =>
    obtain ⟨cursor, count, hc⟩ := s.closePositional_eq
    show Accounted log s.closePositional
    rw [hc]
    exact ⟨h.parsed, h.idle, h.waiting⟩
  | bind hp hs hv => exact h.bind hp hv
  | enter hp ha hc => exact ⟨h.parsed, fun _ => h.idle hp, fun _ hq => nomatch hq⟩
  | @fill w hp => exact h.fill hp w

/-- After every run the occurrences account for the state. -/
theorem accounted_run (root : Command) (words : List String) :
    Accounted (occurrences root words) ((start root).consumeAll words) := by
  refine keep_run (P := fun past s => Accounted (Occurrence.log past) s) root
    (accounted_start root) (fun past s e h he => ?_) words
  rw [Occurrence.log_append]
  exact accounted_after h he

/-! ## 6. Legal numbers of values -/

/-- The numbers of values are legal, occurrence by occurrence. -/
structure LegalCounts (s : ParseState) (log : List Occurrence) : Prop where
  /-- Every value parsed belongs to one of the occurrences, in line order. -/
  parsed : ∀ d, (s.parsed.get? d).getD [] = Occurrence.valuesFor d log
  /-- The flag that waits is the newest occurrence, and has the values counted for it. -/
  waiting : ∀ p, s.pending = some p →
    ∃ values, log.head? = some ⟨p.slot, values⟩ ∧ values.length = p.consumed
  /-- No occurrence of a flag has more values than the flag takes. -/
  atMost : ∀ o ∈ log, o.slot.action.positional = false →
    ∀ m, o.slot.action.arity.max? = some m → o.values.length ≤ m
  /-- An occurrence of a flag has the values that it needs, unless it is the newest and still
      waits. -/
  atLeast : ∀ (i : Nat) (o : Occurrence), log[i]? = some o → o.slot.action.positional = false →
    o.slot.action.arity.min ≤ o.values.length
      ∨ i = 0 ∧ s.pending = some ⟨o.slot, o.values.length⟩
  /-- A flag that needs another value gets the next word, whatever it is. -/
  uninterrupted : ∀ p, s.pending = some p → p.needsValue = true →
    ∀ w, s.events w = [.feed p w] ∧ s.consume w = s.feed p w

/-- No occurrence of a flag has too many values, be it complete or waiting. -/
theorem Accounted.atMost (h : Accounted log s) {o : Occurrence} (ho : o ∈ log)
    (hflag : o.slot.action.positional = false) {m : Nat}
    (hm : o.slot.action.arity.max? = some m) : o.values.length ≤ m := by
  cases hp : s.pending with
  | none => exact (h.idle hp o ho hflag).2 m hm
  | some p =>
    obtain ⟨hmore, values, older, rfl, hlen, hold⟩ := h.waiting p hp
    rcases List.mem_cons.mp ho with rfl | ho
    · have hlt : p.consumed + 1 ≤ m := Arity.succ_le_of_acceptsMore hmore hm
      show values.length ≤ m
      omega
    · exact (hold o ho hflag).2 m hm

/-- Only the newest occurrence of a flag may have too few values, and then it waits. -/
theorem Accounted.atLeast (h : Accounted log s) {i : Nat} {o : Occurrence} (ho : log[i]? = some o)
    (hflag : o.slot.action.positional = false) : o.slot.action.arity.min ≤ o.values.length
      ∨ i = 0 ∧ s.pending = some ⟨o.slot, o.values.length⟩ := by
  cases hp : s.pending with
  | none => exact .inl (h.idle hp o (List.mem_of_getElem? ho) hflag).1
  | some p =>
    obtain ⟨-, values, older, rfl, hlen, hold⟩ := h.waiting p hp
    cases i with
    | zero =>
      obtain rfl : ⟨p.slot, values⟩ = o := Option.some.inj ho
      exact .inr ⟨rfl, by rw [hlen]⟩
    | succ i =>
      have hmem : o ∈ older := List.mem_of_getElem? (i := i) ho
      exact .inl (hold o hmem hflag).1

theorem feed_of_needsValue {p : Pending} (hp : s.pending = some p) (hn : p.needsValue = true)
    (w : String) : s.events w = [.feed p w] ∧ s.consume w = s.feed p w := by
  have ht : s.takes p w = true := by simp [takes, hn]
  simp [events, consume, hp, ht]

/-- **Every occurrence of a flag gets a legal number of values**, for every command and every
    sequence of words. -/
theorem legalCounts_of_run (root : Command) (words : List String) :
    LegalCounts ((start root).consumeAll words) (occurrences root words) := by
  have haccounted := accounted_run root words
  refine {
    parsed := haccounted.parsed
    waiting := fun p hp => ?_
    atMost := fun o ho hflag m hm => haccounted.atMost ho hflag hm
    atLeast := fun i o ho hflag => haccounted.atLeast ho hflag
    uninterrupted := fun p hp hn => feed_of_needsValue hp hn }
  obtain ⟨-, values, older, hnewest, hlen, -⟩ := haccounted.waiting p hp
  refine ⟨values, ?_, hlen⟩
  rw [hnewest]
  rfl

/-- Two occurrences of one flag stay apart, though their values have one destination. -/
example : (occurrences { Command.empty "tag" with
    actions := [{ Action.flag ["-t"] with arity := .oneOrMore }] } ["-t", "a", "b", "-tc"]).map
      (·.values) = [["c"], ["a", "b"]] := by
  decide

end ParseState

end TabCompletion
