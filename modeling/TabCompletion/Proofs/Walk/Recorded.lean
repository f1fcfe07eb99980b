import Mathlib.Data.List.ReduceOption
import TabCompletion.Proofs.Walk.Reachable

/-!
# Which words record which values

The values parsed are a history of the line: a word adds at most one value, behind those that its
destination has already, and nothing is ever taken back. A group of short flags gives several flags
with one word, but only its last one can have a value. Neither the command need be well formed nor
the state be one that words lead to.

* `Appended`: values added to those that were there, with nothing lost or moved;
* `appended_after`, `Leads.appended`: what one event adds, and what a row of events adds;
* `Carries`, `Records`: the value that a word records, by the ways in which a word can be read;
* `recordsOne_events`: the events of a word record this value and no other;
* `Chronicle`, `InLineOrder`: the values of a whole line, word by word;
* `values_only_added`: the law for every word and every line.
-/

namespace TabCompletion

open Text

/-! ## 1. Values added -/

/-- A value, and the action that it was recorded for. -/
structure Recorded where
  slot : Slot
  value : String

namespace Recorded

/-- The values for a destination, in their order. -/
def valuesFor (dest : String) (rs : List Recorded) : List String :=
  (rs.filter (·.slot.action.dest = dest)).map (·.value)

theorem valuesFor_nil (dest : String) : valuesFor dest [] = [] := rfl

theorem valuesFor_append (dest : String) (rs rs' : List Recorded) :
    valuesFor dest (rs ++ rs') = valuesFor dest rs ++ valuesFor dest rs' := by
  simp [valuesFor]

theorem valuesFor_cons (dest : String) (r : Recorded) (rs : List Recorded) :
    valuesFor dest (r :: rs)
      = (if r.slot.action.dest = dest then [r.value] else []) ++ valuesFor dest rs := by
  unfold valuesFor
  rw [List.filter_cons]
  split <;> simp_all

end Recorded

namespace ParsedValues

/-- How many values there are, over all destinations together. -/
def count (p : ParsedValues) : Nat :=
  (p.entries.flatMap (·.2)).length

/-- No destination is listed twice. -/
def Distinct (p : ParsedValues) : Prop :=
  (p.entries.map (·.1)).Nodup

theorem count_extend (dest : String) (values : List String) (es : List (String × List String)) :
    ((extend dest values es).flatMap (·.2)).length
      = (es.flatMap (·.2)).length + values.length := by
  induction es with
  | nil => simp [extend]
  | cons e es ih =>
    obtain ⟨d, vs⟩ := e
    unfold extend
    split
    · simp only [List.flatMap_cons, List.length_append]
      omega
    · simp only [List.flatMap_cons, List.length_append, ih]
      omega

/-- Only a destination that is new is listed behind the others. -/
theorem keys_extend (dest : String) (values : List String) (es : List (String × List String)) :
    (extend dest values es).map (·.1)
      = if dest ∈ es.map (·.1) then es.map (·.1) else es.map (·.1) ++ [dest] := by
  induction es with
  | nil => rfl
  | cons e es ih =>
    obtain ⟨d, vs⟩ := e
    by_cases hd : d = dest
    · simp [extend, hd]
    · have hne : dest ≠ d := Ne.symm hd
      simp only [extend, if_neg hd, List.map_cons, ih, List.mem_cons, hne, false_or]
      split <;> rfl

theorem distinct_extend {es : List (String × List String)} (h : (es.map (·.1)).Nodup)
    (dest : String) (values : List String) : ((extend dest values es).map (·.1)).Nodup := by
  rw [keys_extend]
  split
  · exact h
  · rename_i hnew
    exact List.nodup_append.mpr ⟨h, List.nodup_singleton dest, fun d hd e he heq =>
      hnew (by rwa [← List.mem_singleton.mp he, ← heq])⟩

/-- **From `p` to `q` the values in `added` were recorded**, each behind those of its destination. A
    destination that has been seen stays seen, and the values that it had stand unchanged in front. -/
structure Appended (p q : ParsedValues) (added : List Recorded) : Prop where
  seen : ∀ d, (p.get? d).isSome = true → (q.get? d).isSome = true
  values : ∀ d, (q.get? d).getD [] = (p.get? d).getD [] ++ Recorded.valuesFor d added
  count : q.count = p.count + added.length
  distinct : p.Distinct → q.Distinct

theorem Appended.refl (p : ParsedValues) : Appended p p [] where
  seen _ h := h
  values _ := (List.append_nil _).symm
  count := rfl
  distinct h := h

theorem Appended.trans {p q r : ParsedValues} {added added' : List Recorded}
    (h : Appended p q added) (h' : Appended q r added') : Appended p r (added ++ added') where
  seen d hd := h'.seen d (h.seen d hd)
  values d := by rw [h'.values, h.values, Recorded.valuesFor_append, List.append_assoc]
  count := by rw [h'.count, h.count, List.length_append, Nat.add_assoc]
  distinct hp := h'.distinct (h.distinct hp)

theorem appended_touch (p : ParsedValues) (dest : String) : Appended p (p.touch dest) [] where
  seen d hd := ParseState.isSome_get?_touch hd dest
  values d := by rw [getD_touch, Recorded.valuesFor_nil, List.append_nil]
  count := count_extend dest [] p.entries
  distinct h := distinct_extend h dest []

theorem appended_record (p : ParsedValues) (slot : Slot) (value : String) :
    Appended p (p.record slot.action.dest value) [⟨slot, value⟩] where
  seen d hd := ParseState.isSome_get?_record hd slot.action.dest value
  values d := by rw [getD_record, Recorded.valuesFor_cons, Recorded.valuesFor_nil, List.append_nil]
  count := count_extend slot.action.dest [value] p.entries
  distinct h := distinct_extend h slot.action.dest [value]

end ParsedValues

/-! ## 2. What events add -/

/-- The value that an event records, if any. -/
def Event.recorded? : Event → Option Recorded
  | .feed p word => some ⟨p.slot, word⟩
  | .bind slot inlineValue => inlineValue.map (⟨slot, ·⟩)
  | .fill target word => target.map (⟨·, word⟩)
  | _ => none

namespace ParseState

open ParsedValues

variable {s t : ParseState} {w : String}

/-- **An event adds the value that it records, and no other.** -/
theorem appended_after {e : Event} (he : s.Happens e) :
    Appended s.parsed (s.after e).parsed e.recorded?.toList := by
  cases he with
  | @feed p w => exact appended_record s.parsed p.slot w
  | release => exact .refl s.parsed
  | stopFlags => exact .refl s.parsed
  | close =>
    obtain ⟨cursor, count, hc⟩ := s.closePositional_eq
    show Appended s.parsed s.closePositional.parsed []
    rw [hc]
    exact .refl s.parsed
  | @bind slot v _ _ hv =>
    have htouch := appended_touch s.parsed slot.action.dest
    cases v with
    | none =>
      show Appended s.parsed (s.bind slot none).parsed []
      rw [parsed_bind_none]
      exact htouch
    | some value =>
      show Appended s.parsed (s.bind slot (some value)).parsed [⟨slot, value⟩]
      rw [parsed_bind_some s slot (hv rfl)]
      exact htouch.trans (appended_record _ slot value)
  | enter => exact .refl s.parsed
  | @fill w =>
    obtain ⟨cursor, count, hf⟩ := s.fillPositional_eq w
    show Appended s.parsed (s.fillPositional w).parsed (s.nextPositional?.map (⟨·, w⟩)).toList
    rw [hf]
    cases s.nextPositional? with
    | none => exact .refl s.parsed
    | some slot => exact appended_record s.parsed slot w

/-- **A row of events adds the values that they record, in their order.** -/
theorem Leads.appended {es : List Event} (h : Leads s es t) :
    Appended s.parsed t.parsed (es.filterMap Event.recorded?) := by
  induction h with
  | nil s => exact .refl s.parsed
  | @cons s t e es he _ ih =>
    have hcons : (e :: es).filterMap Event.recorded?
        = e.recorded?.toList ++ es.filterMap Event.recorded? := by
      cases hr : e.recorded? <;> simp [hr]
    rw [hcons]
    exact (appended_after he).trans ih

end ParseState

/-! ## 3. The value of a word -/

namespace Command

/-- The short flag of `ch` is found, and takes no value. -/
def FindsSwitch (c : Command) (lead ch : Char) : Prop :=
  ∃ slot, c.findFlag? (String.ofList [lead, ch]) = some slot
    ∧ slot.action.arity.takesValue = false

/-- Among the characters `cs` of a group, the first one that names no switch names a flag that takes
    a value, and what stands behind it is this value. -/
def GroupCarries (c : Command) (lead : Char) (cs : List Char) (r : Recorded) : Prop :=
  ∃ switches ch rest, cs = switches ++ ch :: rest ∧ (∀ b ∈ switches, c.FindsSwitch lead b)
    ∧ c.findFlag? (String.ofList [lead, ch]) = some r.slot
    ∧ r.slot.action.arity.takesValue = true ∧ rest ≠ [] ∧ r.value = String.ofList rest

/-- **The value in a word that is read as a flag**: what stands behind the first equals sign, or the
    rest of a group of short flags. A word that is the name of a flag has none. -/
inductive Carries (c : Command) (w : String) : Recorded → Prop where
  | assigned {slot : Slot} {name value : String} (hw : c.findFlag? w = none)
      (hcut : splitOnce '=' w = some (name, value)) (hf : c.findFlag? name = some slot)
      (ht : slot.action.arity.takesValue = true) : Carries c w ⟨slot, value⟩
  | grouped {lead : Char} {cs : List Char} {r : Recorded} (hw : c.findFlag? w = none)
      (hi : ParseState.inlineFlag? c w = none) (hcut : w.toList = lead :: cs)
      (hlead : cs.head? ≠ some lead) (hg : c.GroupCarries lead cs r) : Carries c w r

/-- A bare `--` that nothing declares. -/
def IsBareDashes (c : Command) (w : String) : Prop :=
  w = "--" ∧ (c.findFlag? "--").isNone = true

variable {c : Command} {w : String} {r : Recorded}

theorem not_groupCarries_nil (lead : Char) : ¬ c.GroupCarries lead [] r := by
  intro h
  obtain ⟨switches, ch, rest, hcut, -⟩ := h
  simp at hcut

/-- A group begins with the flag that has the value, or goes on behind a switch. -/
theorem groupCarries_cons {lead ch : Char} {cs : List Char} : c.GroupCarries lead (ch :: cs) r ↔
    (c.findFlag? (String.ofList [lead, ch]) = some r.slot ∧ r.slot.action.arity.takesValue = true
        ∧ cs ≠ [] ∧ r.value = String.ofList cs)
      ∨ (c.FindsSwitch lead ch ∧ c.GroupCarries lead cs r) := by
  constructor
  · intro h
    obtain ⟨switches, d, rest, hcut, hs, hflag⟩ := h
    cases switches with
    | nil =>
      obtain ⟨rfl, rfl⟩ := List.cons.inj hcut
      exact .inl hflag
    | cons b switches =>
      obtain ⟨rfl, rfl⟩ := List.cons.inj hcut
      obtain ⟨hfirst, hrest⟩ := List.forall_mem_cons.mp hs
      exact .inr ⟨hfirst, switches, d, rest, rfl, hrest, hflag⟩
  · intro h
    rcases h with hflag | ⟨hfirst, switches, d, rest, rfl, hs, hflag⟩
    · exact ⟨[], ch, cs, rfl, fun _ hm => (nomatch hm), hflag⟩
    · exact ⟨ch :: switches, d, rest, rfl, List.forall_mem_cons.mpr ⟨hfirst, hs⟩, hflag⟩

/-- A flag that takes a value has all that stands behind it. -/
theorem groupCarries_of_takesValue {lead ch : Char} {cs : List Char} {slot : Slot}
    (hf : c.findFlag? (String.ofList [lead, ch]) = some slot)
    (ht : slot.action.arity.takesValue = true) :
    c.GroupCarries lead (ch :: cs) r ↔ cs ≠ [] ∧ r = ⟨slot, String.ofList cs⟩ := by
  rw [groupCarries_cons]
  constructor
  · intro h
    rcases h with ⟨hslot, -, hne, hvalue⟩ | ⟨⟨other, hother, hswitch⟩, -⟩
    · obtain ⟨found, value⟩ := r
      obtain rfl : slot = found := Option.some.inj (hf.symm.trans hslot)
      exact ⟨hne, congrArg (Recorded.mk slot) hvalue⟩
    · obtain rfl : slot = other := Option.some.inj (hf.symm.trans hother)
      exact nomatch ht.symm.trans hswitch
  · rintro ⟨hne, rfl⟩
    exact .inl ⟨hf, ht, hne, rfl⟩

/-- Behind a switch the group goes on. -/
theorem groupCarries_of_switch {lead ch : Char} {cs : List Char} {slot : Slot}
    (hf : c.findFlag? (String.ofList [lead, ch]) = some slot)
    (ht : slot.action.arity.takesValue = false) :
    c.GroupCarries lead (ch :: cs) r ↔ c.GroupCarries lead cs r := by
  rw [groupCarries_cons]
  constructor
  · intro h
    rcases h with ⟨hslot, htakes, -⟩ | ⟨-, hg⟩
    · obtain rfl : slot = r.slot := Option.some.inj (hf.symm.trans hslot)
      exact nomatch ht.symm.trans htakes
    · exact hg
  · exact fun hg => .inr ⟨⟨slot, hf, ht⟩, hg⟩

/-- A character that names no flag ends the group. -/
theorem not_groupCarries_of_unknown {lead ch : Char} {cs : List Char}
    (hf : c.findFlag? (String.ofList [lead, ch]) = none) : ¬ c.GroupCarries lead (ch :: cs) r := by
  rw [groupCarries_cons]
  rintro (⟨hslot, -⟩ | ⟨⟨other, hother, -⟩, -⟩)
  · exact nomatch hf.symm.trans hslot
  · exact nomatch hf.symm.trans hother

/-- The name of a flag has no value in it. -/
theorem not_carries_of_name {slot : Slot} (hw : c.findFlag? w = some slot) : ¬ c.Carries w r := by
  intro h
  cases h with
  | assigned hn => exact nomatch hw.symm.trans hn
  | grouped hn => exact nomatch hw.symm.trans hn

/-- A name with a value has this value in it, and no other. -/
theorem carries_iff_of_assigned {slot : Slot} {name value : String} (hw : c.findFlag? w = none)
    (hi : ParseState.inlineFlag? c w = some (slot, name, value)) :
    c.Carries w r ↔ r = ⟨slot, value⟩ := by
  constructor
  · intro h
    cases h with
    | assigned _ hcut hf ht =>
      have hi' := ParseState.inlineFlag?_eq_some_iff.mpr ⟨hcut, hf, ht⟩
      cases hi.symm.trans hi'
      rfl
    | grouped _ hi' => exact nomatch hi.symm.trans hi'
  · rintro rfl
    obtain ⟨hcut, hf, ht⟩ := ParseState.inlineFlag?_eq_some_iff.mp hi
    exact .assigned hw hcut hf ht

/-- Any other word has the value of its group in it, unless it doubles its first character. -/
theorem carries_iff_of_group {lead : Char} {cs : List Char} (hw : c.findFlag? w = none)
    (hi : ParseState.inlineFlag? c w = none) (hcut : w.toList = lead :: cs) :
    c.Carries w r ↔ cs.head? ≠ some lead ∧ c.GroupCarries lead cs r := by
  constructor
  · intro h
    cases h with
    | assigned _ hsplit hf ht =>
      exact nomatch hi.symm.trans (ParseState.inlineFlag?_eq_some_iff.mpr ⟨hsplit, hf, ht⟩)
    | grouped _ _ hcut' hlead hg =>
      obtain ⟨rfl, rfl⟩ := List.cons.inj (hcut.symm.trans hcut')
      exact ⟨hlead, hg⟩
  · exact fun h => .grouped hw hi hcut h.1 h.2

/-- The empty word has no value in it. -/
theorem not_carries_nil (hcut : w.toList = []) : ¬ c.Carries w r := by
  intro h
  cases h with
  | assigned _ hsplit =>
    rw [(splitOnce_eq_some_iff.mp hsplit).1] at hcut
    simp at hcut
  | grouped _ _ hcut' => exact nomatch hcut.symm.trans hcut'

/-- The value in a word is the end of the word. -/
theorem Carries.suffix (h : c.Carries w r) : r.value.toList <:+ w.toList := by
  cases h with
  | @assigned slot name value _ hcut =>
    rw [(splitOnce_eq_some_iff.mp hcut).1]
    exact ⟨name.toList ++ ['='], by simp⟩
  | @grouped lead cs _ _ _ hcut _ hg =>
    obtain ⟨switches, ch, rest, rfl, -, -, -, -, hvalue⟩ := hg
    rw [hcut, hvalue, String.toList_ofList]
    exact ⟨lead :: switches ++ [ch], by simp⟩

end Command

namespace ParseState

open ParsedValues

/-- The word is left to the positionals if no flag takes it: flags are not matched any more, or it is
    no bare `--`, does not look like a flag and means no sub-command. -/
def IsOperand (s : ParseState) (w : String) : Prop :=
  s.afterTerminator = true ∨ (¬ s.scope.IsBareDashes w ∧ s.scope.isFlagLike w = false
    ∧ s.scope.findChild? w = none)

/-- **The value that a word records** which no flag that waits takes: the value in it, if it is read
    as a flag, or the word itself, if there is a positional for it. -/
inductive FreelyRecords (s : ParseState) (w : String) : Recorded → Prop where
  | carried {r : Recorded} (ha : s.afterTerminator = false) (hd : ¬ s.scope.IsBareDashes w)
      (hl : s.scope.isFlagLike w = true) (hc : s.scope.Carries w r) : FreelyRecords s w r
  | operand {slot : Slot} (ho : s.IsOperand w) (hn : s.nextPositional? = some slot) :
      FreelyRecords s w ⟨slot, w⟩

/-- **The value that a word records**: the word itself, for the flag that waits and takes it, or what
    it records if no flag takes it. -/
inductive Records (s : ParseState) (w : String) : Recorded → Prop where
  | taken {p : Pending} (hp : s.pending = some p) (ht : s.takes p w = true) :
      Records s w ⟨p.slot, w⟩
  | free {r : Recorded} (hu : ∀ p, s.pending = some p → s.takes p w = false)
      (hr : s.FreelyRecords w r) : Records s w r

variable {s : ParseState} {w : String} {r : Recorded}

/-- What a word records is the end of the word. -/
theorem Records.suffix (h : s.Records w r) : r.value.toList <:+ w.toList := by
  cases h with
  | taken => exact List.suffix_rfl
  | free _ hr =>
    cases hr with
    | carried _ _ _ hc => exact hc.suffix
    | operand => exact List.suffix_rfl

/-- Where a word cannot be a flag, it is recorded for the next positional or not at all. -/
theorem freelyRecords_iff_of_isOperand (ho : s.IsOperand w)
    (hf : s.afterTerminator = false → s.scope.isFlagLike w = false) :
    (∃ slot, s.nextPositional? = some slot ∧ r = ⟨slot, w⟩) ↔ s.FreelyRecords w r := by
  constructor
  · rintro ⟨slot, hn, rfl⟩
    exact .operand ho hn
  · intro h
    cases h with
    | carried ha _ hl => exact nomatch hl.symm.trans (hf ha)
    | @operand slot _ hn => exact ⟨slot, hn, rfl⟩

/-- While flags are matched, a word for a positional is no bare `--`, no flag and no sub-command. -/
theorem IsOperand.of_matching (h : s.IsOperand w) (ha : s.afterTerminator = false) :
    ¬ s.scope.IsBareDashes w ∧ s.scope.isFlagLike w = false ∧ s.scope.findChild? w = none :=
  h.resolve_left (Bool.eq_false_iff.mp ha)

theorem not_freelyRecords_of_isBareDashes (ha : s.afterTerminator = false)
    (hd : s.scope.IsBareDashes w) : ¬ s.FreelyRecords w r := by
  intro h
  cases h with
  | carried _ hd' => exact hd' hd
  | operand ho => exact (ho.of_matching ha).1 hd

/-- A word that is read as a flag records the value in it. -/
theorem freelyRecords_iff_of_isFlagLike (ha : s.afterTerminator = false)
    (hd : ¬ s.scope.IsBareDashes w) (hl : s.scope.isFlagLike w = true) :
    s.scope.Carries w r ↔ s.FreelyRecords w r := by
  refine ⟨.carried ha hd hl, fun h => ?_⟩
  cases h with
  | carried _ _ _ hc => exact hc
  | operand ho => exact nomatch hl.symm.trans (ho.of_matching ha).2.1

theorem not_freelyRecords_of_findChild? {found : Nat × Command} (ha : s.afterTerminator = false)
    (hl : s.scope.isFlagLike w = false) (hc : s.scope.findChild? w = some found) :
    ¬ s.FreelyRecords w r := by
  intro h
  cases h with
  | carried _ _ hl' => exact nomatch hl.symm.trans hl'
  | operand ho => exact nomatch hc.symm.trans (ho.of_matching ha).2.2

/-- It makes no difference whether a flag has waited that does not take the word. -/
theorem freelyRecords_release :
    { s with pending := none }.FreelyRecords w r ↔ s.FreelyRecords w r := by
  constructor
  · intro h
    cases h with
    | carried ha hd hl hc => exact .carried ha hd hl hc
    | operand ho hn => exact .operand ho hn
  · intro h
    cases h with
    | carried ha hd hl hc => exact .carried ha hd hl hc
    | operand ho hn => exact .operand ho hn

theorem records_iff_of_unclaimed (hu : ∀ p, s.pending = some p → s.takes p w = false) :
    s.FreelyRecords w r ↔ s.Records w r := by
  refine ⟨.free hu, fun h => ?_⟩
  cases h with
  | taken hp ht => exact nomatch ht.symm.trans (hu _ hp)
  | free _ hr => exact hr

theorem records_iff_of_taken {p : Pending} (hp : s.pending = some p) (ht : s.takes p w = true) :
    s.Records w r ↔ r = ⟨p.slot, w⟩ := by
  constructor
  · intro h
    cases h with
    | @taken q hq =>
      obtain rfl : p = q := Option.some.inj (hp.symm.trans hq)
      rfl
    | free hu => exact nomatch ht.symm.trans (hu p hp)
  · rintro rfl
    exact .taken hp ht

/-! ## 4. The events of a word -/

/-- The events record at most one value, and `P` says which one. -/
def RecordsOne (es : List Event) (P : Recorded → Prop) : Prop :=
  ∃ added : Option Recorded, es.filterMap Event.recorded? = added.toList ∧ ∀ r, added = some r ↔ P r

section RecordsOne

variable {e : Event} {es : List Event} {P P' : Recorded → Prop}

theorem recordsOne_none (hes : es.filterMap Event.recorded? = []) (hP : ∀ r, ¬ P r) :
    RecordsOne es P :=
  ⟨none, hes, fun r => ⟨fun h => (nomatch h), fun h => absurd h (hP r)⟩⟩

theorem recordsOne_some (only : Recorded) (hes : es.filterMap Event.recorded? = [only])
    (hP : ∀ r, P r ↔ r = only) : RecordsOne es P :=
  ⟨some only, hes, fun r => by rw [hP, Option.some_inj, eq_comm]⟩

theorem RecordsOne.congr (h : RecordsOne es P) (hP : ∀ r, P r ↔ P' r) : RecordsOne es P' := by
  obtain ⟨added, hes, hadded⟩ := h
  exact ⟨added, hes, fun r => (hadded r).trans (hP r)⟩

/-- An event that records nothing changes nothing. -/
theorem RecordsOne.cons (he : e.recorded? = none) (h : RecordsOne es P) : RecordsOne (e :: es) P := by
  obtain ⟨added, hes, hadded⟩ := h
  exact ⟨added, by rw [List.filterMap_cons_none he, hes], hadded⟩

end RecordsOne

/-- A group records the value of its last flag, if it has one. -/
theorem recordsOne_clusterEvents (c : Command) (lead : Char) (cs : List Char) :
    RecordsOne (clusterEvents c lead cs) (c.GroupCarries lead cs) := by
  induction cs with
  | nil => exact recordsOne_none rfl fun r => Command.not_groupCarries_nil lead
  | cons ch rest ih =>
    unfold clusterEvents
    cases hf : c.findFlag? (String.ofList [lead, ch]) with
    | none => exact recordsOne_none rfl fun r => Command.not_groupCarries_of_unknown hf
    | some slot =>
      dsimp only
      split
      · rename_i ht
        have hg : ∀ r, c.GroupCarries lead (ch :: rest) r
            ↔ rest ≠ [] ∧ r = ⟨slot, String.ofList rest⟩ :=
          fun r => Command.groupCarries_of_takesValue hf ht
        cases rest with
        | nil => exact recordsOne_none rfl fun r h => ((hg r).mp h).1 rfl
        | cons d ds =>
          refine recordsOne_some ⟨slot, String.ofList (d :: ds)⟩ rfl fun r => ?_
          rw [hg r]
          exact ⟨fun h => h.2, fun h => ⟨List.cons_ne_nil d ds, h⟩⟩
      · rename_i ht
        refine (ih.cons rfl).congr fun r => ?_
        rw [Command.groupCarries_of_switch hf (Bool.eq_false_iff.mpr ht)]

/-- A word that is read as a flag records the value in it. -/
theorem recordsOne_flagEvents (c : Command) (w : String) :
    RecordsOne (flagEvents c w) (c.Carries w) := by
  unfold flagEvents
  cases hw : c.findFlag? w with
  | some slot => exact recordsOne_none rfl fun r => Command.not_carries_of_name hw
  | none =>
    cases hi : inlineFlag? c w with
    | some found =>
      obtain ⟨slot, name, value⟩ := found
      exact recordsOne_some ⟨slot, value⟩ rfl fun r =>
        Command.carries_iff_of_assigned hw hi
    | none =>
      dsimp only
      cases hcut : w.toList with
      | nil => exact recordsOne_none rfl fun r => Command.not_carries_nil hcut
      | cons lead rest =>
        dsimp only
        split
        · rename_i hdouble
          exact recordsOne_none rfl fun r h =>
            ((Command.carries_iff_of_group hw hi hcut).mp h).1 hdouble
        · rename_i hsingle
          refine (recordsOne_clusterEvents c lead rest).congr fun r => ?_
          rw [Command.carries_iff_of_group hw hi hcut]
          exact ⟨fun hg => ⟨hsingle, hg⟩, fun h => h.2⟩

/-- A word that is left to the positionals is recorded for the next one, if there is one. -/
theorem recordsOne_fill (s : ParseState) (w : String) :
    RecordsOne [.fill s.nextPositional? w]
      fun r => ∃ slot, s.nextPositional? = some slot ∧ r = ⟨slot, w⟩ := by
  cases s.nextPositional? with
  | none => exact recordsOne_none rfl fun r ⟨slot, hn, _⟩ => nomatch hn
  | some slot =>
    refine recordsOne_some ⟨slot, w⟩ rfl fun r => ⟨fun h => ?_, fun h => ⟨slot, rfl, h⟩⟩
    obtain ⟨other, hn, rfl⟩ := h
    cases hn
    rfl

theorem recordsOne_freeEvents (s : ParseState) (w : String) :
    RecordsOne (s.freeEvents w) (s.FreelyRecords w) := by
  unfold freeEvents
  cases ha : s.afterTerminator with
  | true =>
    exact (s.recordsOne_fill w).congr fun r =>
      freelyRecords_iff_of_isOperand (.inl ha) fun hopen => nomatch ha.symm.trans hopen
  | false =>
    rw [if_neg Bool.false_ne_true]
    split
    · rename_i hd
      exact recordsOne_none rfl fun r => not_freelyRecords_of_isBareDashes ha hd
    · rename_i hd
      split
      · rename_i hl
        have hflag := (recordsOne_flagEvents s.scope w).cons (e := .close) rfl
        exact hflag.congr fun r => freelyRecords_iff_of_isFlagLike ha hd hl
      · rename_i hl
        have hl' := Bool.eq_false_iff.mpr hl
        cases hc : s.scope.findChild? w with
        | some found => exact recordsOne_none rfl fun r => not_freelyRecords_of_findChild? ha hl' hc
        | none =>
          exact (s.recordsOne_fill w).congr fun r =>
            freelyRecords_iff_of_isOperand (.inr ⟨hd, hl', hc⟩) fun _ => hl'

/-- **The events of a word record exactly what the word records**, which is one value at most. -/
theorem recordsOne_events (s : ParseState) (w : String) :
    RecordsOne (s.events w) (s.Records w) := by
  unfold events
  cases hp : s.pending with
  | none =>
    exact (s.recordsOne_freeEvents w).congr fun r =>
      records_iff_of_unclaimed fun p hp' => nomatch hp.symm.trans hp'
  | some p =>
    dsimp only
    split
    · rename_i ht
      exact recordsOne_some ⟨p.slot, w⟩ rfl fun r => records_iff_of_taken hp ht
    · rename_i ht
      have hu : ∀ q, s.pending = some q → s.takes q w = false := fun q hq => by
        obtain rfl : p = q := Option.some.inj (hp.symm.trans hq)
        exact Bool.eq_false_iff.mpr ht
      have hfree := (recordsOne_freeEvents { s with pending := none } w).cons (e := .release p) rfl
      exact hfree.congr fun r => freelyRecords_release.trans (records_iff_of_unclaimed hu)

/-! ## 5. Words and lines -/

/-- **Reading the word adds the value `added`**, or none: it is the one that the word records, and the
    end of the word, and all values from before stay as they are. -/
structure AddsOne (s : ParseState) (w : String) (added : Option Recorded) : Prop where
  appended : Appended s.parsed (s.consume w).parsed added.toList
  recorded : ∀ r, added = some r ↔ s.Records w r
  suffix : ∀ r, added = some r → r.value.toList <:+ w.toList

/-- Every word adds at most one value, in every state. -/
theorem exists_addsOne (s : ParseState) (w : String) : ∃ added, s.AddsOne w added := by
  obtain ⟨added, hes, hadded⟩ := s.recordsOne_events w
  have happended := (s.leads_events w).appended
  rw [hes] at happended
  exact ⟨added, happended, hadded, fun r hr => ((hadded r).mp hr).suffix⟩

/-- **What the words of a line add**, word by word: an entry for each of them, in the order of the
    line. -/
inductive Chronicle : ParseState → List String → List (Option Recorded) → Prop where
  | nil (s : ParseState) : Chronicle s [] []
  | cons {s : ParseState} {w : String} {words : List String} {o : Option Recorded}
      {added : List (Option Recorded)} (hw : s.AddsOne w o)
      (h : Chronicle (s.consume w) words added) : Chronicle s (w :: words) (o :: added)

theorem exists_chronicle (s : ParseState) (words : List String) :
    ∃ added, Chronicle s words added := by
  induction words generalizing s with
  | nil => exact ⟨[], .nil s⟩
  | cons w words ih =>
    obtain ⟨o, hw⟩ := s.exists_addsOne w
    obtain ⟨added, h⟩ := ih (s.consume w)
    exact ⟨o :: added, .cons hw h⟩

section Chronicles

variable {words : List String} {added : List (Option Recorded)}

theorem Chronicle.length_eq (h : Chronicle s words added) : added.length = words.length := by
  induction h with
  | nil => rfl
  | cons _ _ ih => rw [List.length_cons, List.length_cons, ih]

/-- A line adds what its words add, one behind the other. -/
theorem Chronicle.appended (h : Chronicle s words added) :
    Appended s.parsed (s.consumeAll words).parsed added.reduceOption := by
  induction h with
  | nil s => exact .refl s.parsed
  | @cons s w words o added hw _ ih =>
    cases o with
    | none => exact hw.appended.trans ih
    | some r => exact hw.appended.trans ih

/-- The values that a line adds to a destination are the ends of some of its words, taken from left to
    right. -/
theorem Chronicle.sublistForall₂ (h : Chronicle s words added) (d : String) :
    List.SublistForall₂ (fun value w => value.toList <:+ w.toList)
      (Recorded.valuesFor d added.reduceOption) words := by
  induction h with
  | nil s => exact .nil
  | @cons s w words o added hw _ ih =>
    cases o with
    | none => exact .cons_right ih
    | some r =>
      rw [List.reduceOption_cons_of_some, Recorded.valuesFor_cons]
      split
      · exact .cons (hw.suffix r rfl) ih
      · exact .cons_right ih

end Chronicles

/-! ## 6. The law -/

/-- **The values parsed from a line are a history of it**: each word has added the value that `added`
    has for it, if any. So there are at most as many values as words, and the values of a destination
    are the ends of words of the line, in the order of the line. -/
structure InLineOrder (root : Command) (words : List String) (added : List (Option Recorded)) :
    Prop where
  chronicle : Chronicle (start root) words added
  values : ∀ d, (((start root).consumeAll words).parsed.get? d).getD []
    = Recorded.valuesFor d added.reduceOption
  sources : ∀ d, List.SublistForall₂ (fun value w => value.toList <:+ w.toList)
    ((((start root).consumeAll words).parsed.get? d).getD []) words
  count : ((start root).consumeAll words).parsed.count ≤ words.length
  distinct : ((start root).consumeAll words).parsed.Distinct

/-- **Values are only ever added, at most one by each word**, for every command, every state and every
    word; and after every line the values parsed are a history of it. -/
theorem values_only_added :
    (∀ (s : ParseState) (w : String), ∃ added, s.AddsOne w added)
      ∧ ∀ (root : Command) (words : List String), ∃ added, InLineOrder root words added := by
  refine ⟨exists_addsOne, fun root words => ?_⟩
  obtain ⟨added, h⟩ := (start root).exists_chronicle words
  have happended := h.appended
  have hvalues : ∀ d, (((start root).consumeAll words).parsed.get? d).getD []
      = Recorded.valuesFor d added.reduceOption := happended.values
  refine ⟨added, {
    chronicle := h
    values := hvalues
    sources := fun d => ?_
    count := ?_
    distinct := happended.distinct List.nodup_nil }⟩
  · rw [hvalues d]
    exact h.sublistForall₂ d
  · calc ((start root).consumeAll words).parsed.count
        = 0 + added.reduceOption.length := happended.count
      _ = added.reduceOption.length := Nat.zero_add _
      _ ≤ added.length := List.reduceOption_length_le added
      _ = words.length := h.length_eq

/-- The rest of a group, a word for a positional and the word behind a flag have one destination. -/
example : ((start { Command.empty "tag" with
    actions := [Action.flag ["-q"], { Action.flag ["-t"] with arity := .one },
      Action.operand "t"] }).consumeAll ["-qtred", "blue", "-t", "green"]).parsed.entries
      = [("q", []), ("t", ["red", "blue", "green"])] := by
  decide

end ParseState

end TabCompletion
