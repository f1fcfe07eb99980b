import Mathlib.Data.List.Induction
import TabCompletion.Proofs.Spec.WellFormed
import TabCompletion.Proofs.Walk.Verdict

/-!
# Which words give which flags

A state notes the places of the flags that have been given. This module says by the words of the
line which flags these are: a word gives a flag by one of its names, by a name with a value behind an
equals sign, or as a member of a group of short flags; and entering a sub-command makes a fresh start.

* `Assigns`, `Spells`: the spellings of a flag, said without the order in which they are tried;
* `Gives`: a word is read as a flag, and spells it;
* `proceeds_consume`: a word adds the flags that it gives, unless it enters a sub-command;
* `GivenSince`: some word has given the flag since the scope was entered;
* `isSatisfied_iff_givenSince`: these are exactly the flags that the state notes as given.
-/

namespace TabCompletion

open Text

namespace Command

variable {c : Command} {w : String} {slot : Slot}

/-! ## 1. The spellings of a flag -/

/-- The name of the flag in `slot`, which takes a value, stands in front of the first equals sign. -/
def Assigns (c : Command) (w : String) (slot : Slot) : Prop :=
  slot ∈ c.flags ∧ slot.action.arity.takesValue = true
    ∧ ∃ name value, splitOnce '=' w = some (name, value) ∧ name ∈ slot.action.names

/-- The short flag of the character `ch` is declared and takes no value. -/
def Switch (c : Command) (lead ch : Char) : Prop :=
  ∃ slot ∈ c.flags, String.ofList [lead, ch] ∈ slot.action.names
    ∧ slot.action.arity.takesValue = false

/-- The characters `cs` name the flag in `slot` as a short one, and only switches come before it. -/
def Groups (c : Command) (lead : Char) (cs : List Char) (slot : Slot) : Prop :=
  slot ∈ c.flags ∧ ∃ before ch rest, cs = before ++ ch :: rest
    ∧ (∀ b ∈ before, c.Switch lead b) ∧ String.ofList [lead, ch] ∈ slot.action.names

/-- **The spellings of a flag**: one of its names; a name with a value; or, in a word that is neither
    of these for any flag and does not double its first character, a member of a group. -/
inductive Spells (c : Command) (w : String) (slot : Slot) : Prop where
  | name (hs : slot ∈ c.flags) (hn : w ∈ slot.action.names)
  | assigned (hw : w ∉ c.flagNames) (ha : c.Assigns w slot)
  | grouped {lead : Char} {cs : List Char} (hw : w ∉ c.flagNames)
      (ha : ∀ other, ¬ c.Assigns w other) (hcut : w.toList = lead :: cs)
      (hlead : cs.head? ≠ some lead) (hg : c.Groups lead cs slot)

theorem Spells.mem_flags (h : c.Spells w slot) : slot ∈ c.flags := by
  cases h with
  | name hs => exact hs
  | assigned _ ha => exact ha.1
  | grouped _ _ _ _ hg => exact hg.1

theorem groups_nil (lead : Char) : ¬ c.Groups lead [] slot := by
  intro h
  obtain ⟨-, before, ch, rest, hcut, -⟩ := h
  simp at hcut

/-- A group begins with the flag, or goes on behind a switch. -/
theorem groups_cons {lead ch : Char} {cs : List Char} : c.Groups lead (ch :: cs) slot ↔
    (slot ∈ c.flags ∧ String.ofList [lead, ch] ∈ slot.action.names)
      ∨ (c.Switch lead ch ∧ c.Groups lead cs slot) := by
  constructor
  · intro h
    obtain ⟨hs, before, d, rest, hcut, hb, hn⟩ := h
    cases before with
    | nil =>
      obtain ⟨rfl, rfl⟩ := List.cons.inj hcut
      exact .inl ⟨hs, hn⟩
    | cons b before =>
      obtain ⟨rfl, rfl⟩ := List.cons.inj hcut
      obtain ⟨hfirst, hrest⟩ := List.forall_mem_cons.mp hb
      exact .inr ⟨hfirst, hs, before, d, rest, rfl, hrest, hn⟩
  · intro h
    rcases h with ⟨hs, hn⟩ | ⟨hfirst, hs, before, d, rest, rfl, hb, hn⟩
    · exact ⟨hs, [], ch, cs, rfl, fun _ hm => (nomatch hm), hn⟩
    · exact ⟨hs, ch :: before, d, rest, rfl, List.forall_mem_cons.mpr ⟨hfirst, hb⟩, hn⟩

/-- In a well-formed scope a name is found exactly under the flag that declares it. -/
theorem WellFormed.findFlag?_eq_iff (hc : c.WellFormed) {n : String} :
    c.findFlag? n = some slot ↔ slot ∈ c.flags ∧ n ∈ slot.action.names :=
  findFlag?_eq_some_iff hc.flagNames_nodup

/-- And a value is assigned exactly to the flag that is found. -/
theorem WellFormed.assigns_iff (hc : c.WellFormed) : c.Assigns w slot ↔
    ∃ name value, ParseState.inlineFlag? c w = some (slot, name, value) := by
  simp only [ParseState.inlineFlag?_eq_some_iff, hc.findFlag?_eq_iff]
  constructor
  · intro h
    obtain ⟨hs, ht, name, value, hsplit, hn⟩ := h
    exact ⟨name, value, hsplit, ⟨hs, hn⟩, ht⟩
  · intro h
    obtain ⟨name, value, hsplit, ⟨hs, hn⟩, ht⟩ := h
    exact ⟨hs, ht, name, value, hsplit, hn⟩

/-- A name spells the flag that is found under it, and no other. -/
theorem WellFormed.spells_iff_of_name (hc : c.WellFormed) {found : Slot}
    (hf : c.findFlag? w = some found) : c.Spells w slot ↔ slot = found := by
  obtain ⟨hs, hn⟩ := findFlag?_mem hf
  have hdeclared : w ∈ c.flagNames := mem_flagNames.mpr ⟨found, hs, hn⟩
  constructor
  · intro h
    cases h with
    | name hso hno => exact Option.some.inj ((hc.findFlag?_eq_iff.mpr ⟨hso, hno⟩).symm.trans hf)
    | assigned hw => exact absurd hdeclared hw
    | grouped hw => exact absurd hdeclared hw
  · rintro rfl
    exact .name hs hn

/-- A name with a value spells the flag of this name, and no other. -/
theorem WellFormed.spells_iff_of_assigned (hc : c.WellFormed) {found : Slot} {name value : String}
    (hw : w ∉ c.flagNames) (hi : ParseState.inlineFlag? c w = some (found, name, value)) :
    c.Spells w slot ↔ slot = found := by
  constructor
  · intro h
    cases h with
    | name hso hno => exact absurd (mem_flagNames.mpr ⟨slot, hso, hno⟩) hw
    | assigned _ ha =>
      obtain ⟨name', value', hi'⟩ := hc.assigns_iff.mp ha
      exact congrArg Prod.fst (Option.some.inj (hi'.symm.trans hi))
    | grouped _ ha => exact absurd (hc.assigns_iff.mpr ⟨name, value, hi⟩) (ha found)
  · rintro rfl
    exact .assigned hw (hc.assigns_iff.mpr ⟨name, value, hi⟩)

/-- A word that is neither a name nor a name with a value spells the members of its group. -/
theorem spells_iff_groups {lead : Char} {cs : List Char} (hw : w ∉ c.flagNames)
    (ha : ∀ other, ¬ c.Assigns w other) (hcut : w.toList = lead :: cs) :
    c.Spells w slot ↔ cs.head? ≠ some lead ∧ c.Groups lead cs slot := by
  constructor
  · intro h
    cases h with
    | name hs hn => exact absurd (mem_flagNames.mpr ⟨slot, hs, hn⟩) hw
    | assigned _ ha' => exact absurd ha' (ha slot)
    | grouped _ _ hcut' hlead hg =>
      obtain ⟨rfl, rfl⟩ := List.cons.inj (hcut.symm.trans hcut')
      exact ⟨hlead, hg⟩
  · intro h
    exact .grouped hw ha hcut h.1 h.2

/-- The empty word spells no flag, unless it is the name of one. -/
theorem not_spells_nil (hw : w ∉ c.flagNames) (hcut : w.toList = []) : ¬ c.Spells w slot := by
  intro h
  cases h with
  | name hs hn => exact hw (mem_flagNames.mpr ⟨slot, hs, hn⟩)
  | assigned _ ha =>
    obtain ⟨-, -, name, value, hsplit, -⟩ := ha
    rw [(splitOnce_eq_some_iff.mp hsplit).1] at hcut
    simp at hcut
  | grouped _ _ hcut' => exact nomatch hcut.symm.trans hcut'

end Command

namespace ParseState

variable {s : ParseState} {w : String} {slot : Slot} {i : Nat}

/-! ## 2. What a word that is a flag adds -/

/-- From `s` to `t` no sub-command was entered, and the flags with the property `added` were given. -/
structure Adds (s t : ParseState) (added : Slot → Prop) : Prop where
  scope : t.scope = s.scope
  commandPath : t.commandPath = s.commandPath
  satisfied : ∀ i, i ∈ t.satisfied ↔ i ∈ s.satisfied ∨ ∃ slot, slot.index = i ∧ added slot

theorem Adds.congr {t : ParseState} {added added' : Slot → Prop} (h : Adds s t added)
    (he : ∀ slot, added slot ↔ added' slot) : Adds s t added' := by
  obtain rfl : added = added' := funext fun slot => propext (he slot)
  exact h

theorem Adds.trans {t u : ParseState} {added added' : Slot → Prop} (h : Adds s t added)
    (h' : Adds t u added') : Adds s u fun slot => added slot ∨ added' slot where
  scope := h'.scope.trans h.scope
  commandPath := h'.commandPath.trans h.commandPath
  satisfied i := by
    rw [h'.satisfied, h.satisfied, or_assoc, ← exists_or]
    simp only [and_or_left]

/-- Where no flag is given, none is added. -/
theorem adds_none {t : ParseState} {added : Slot → Prop} (hscope : t.scope = s.scope)
    (hpath : t.commandPath = s.commandPath) (hgiven : t.satisfied = s.satisfied)
    (hnone : ∀ slot, ¬ added slot) : Adds s t added where
  scope := hscope
  commandPath := hpath
  satisfied i := by
    rw [hgiven]
    exact ⟨.inl, fun hi => hi.resolve_right fun ⟨slot, _, ha⟩ => hnone slot ha⟩

/-- Giving a flag adds that flag only. -/
theorem adds_bind (s : ParseState) (slot : Slot) (v : Option String) :
    Adds s (s.bind slot v) (· = slot) := by
  refine ⟨s.bind_scope slot v, ?_, fun i => ?_⟩
  · obtain ⟨pending, parsed, hb⟩ := s.bind_eq slot v
    rw [hb]
    rfl
  · rw [bind_satisfied, List.mem_insert_iff]
    simp only [exists_eq_right, eq_comm (a := i), or_comm]

/-- A group of short flags gives exactly the flags that it names. -/
theorem adds_bindCluster (hc : s.scope.WellFormed) (lead : Char) (cs : List Char) :
    Adds s (s.bindCluster lead cs) (s.scope.Groups lead cs) := by
  induction cs generalizing s with
  | nil => exact adds_none rfl rfl rfl fun slot => Command.groups_nil lead
  | cons ch rest ih =>
    unfold bindCluster
    cases hf : s.scope.findFlag? (String.ofList [lead, ch]) with
    | none =>
      have hunknown := Command.findFlag?_eq_none_iff.mp hf
      refine adds_none rfl rfl rfl fun slot hg => hunknown (Command.mem_flagNames.mpr ?_)
      rcases Command.groups_cons.mp hg with ⟨hs, hn⟩ | ⟨⟨other, hs, hn, -⟩, -⟩
      · exact ⟨slot, hs, hn⟩
      · exact ⟨other, hs, hn⟩
    | some found =>
      -- the only flag of this short name is the one that was found
      have hfound : ∀ other, other ∈ s.scope.flags ∧ String.ofList [lead, ch] ∈ other.action.names
          ↔ other = found := fun other => by
        rw [← hc.findFlag?_eq_iff, hf, Option.some_inj, eq_comm]
      have hswitch : s.scope.Switch lead ch ↔ found.action.arity.takesValue = false := by
        unfold Command.Switch
        simp only [← and_assoc, hfound, exists_eq_left]
      dsimp only
      split
      · rename_i ht
        refine (adds_bind s found _).congr fun other => ?_
        rw [Command.groups_cons, hfound, hswitch, ht]
        simp
      · rename_i ht
        have hrest := ih (s := s.bind found none) (by rw [bind_scope]; exact hc)
        rw [bind_scope] at hrest
        refine ((adds_bind s found none).trans hrest).congr fun other => ?_
        rw [Command.groups_cons, hfound, hswitch, Bool.eq_false_iff.mpr ht]
        simp

theorem adds_consumeCluster (hc : s.scope.WellFormed) (hw : w ∉ s.scope.flagNames)
    (ha : ∀ other, ¬ s.scope.Assigns w other) :
    Adds s (s.consumeCluster w) (s.scope.Spells w) := by
  unfold consumeCluster
  cases hcut : w.toList with
  | nil => exact adds_none rfl rfl rfl fun slot => Command.not_spells_nil hw hcut
  | cons lead rest =>
    dsimp only
    split
    · rename_i hdouble
      refine adds_none rfl rfl rfl fun slot h => ?_
      exact ((Command.spells_iff_groups hw ha hcut).mp h).1 hdouble
    · rename_i hsingle
      refine (adds_bindCluster hc lead rest).congr fun slot => ?_
      rw [Command.spells_iff_groups hw ha hcut]
      exact ⟨fun hg => ⟨hsingle, hg⟩, fun h => h.2⟩

/-- **A word that is read as a flag gives exactly the flags that it spells.** -/
theorem adds_consumeFlag (hc : s.scope.WellFormed) (w : String) :
    Adds s (s.consumeFlag w) (s.scope.Spells w) := by
  unfold consumeFlag
  cases hf : s.scope.findFlag? w with
  | some found =>
    exact (adds_bind s found none).congr fun other => (hc.spells_iff_of_name hf).symm
  | none =>
    have hw : w ∉ s.scope.flagNames := Command.findFlag?_eq_none_iff.mp hf
    cases hi : inlineFlag? s.scope w with
    | some found =>
      obtain ⟨slot, name, value⟩ := found
      exact (adds_bind s slot (some value)).congr fun other =>
        (hc.spells_iff_of_assigned hw hi).symm
    | none =>
      refine adds_consumeCluster hc hw fun other ha => ?_
      obtain ⟨name, value, hfound⟩ := hc.assigns_iff.mp ha
      exact nomatch hfound.symm.trans hi

/-! ## 3. What any word adds -/

/-- The word `w` is read as a flag, and spells the one in `slot`. -/
structure Gives (s : ParseState) (w : String) (slot : Slot) : Prop where
  matching : s.afterTerminator = false
  unclaimed : s.mustTakeValue = false
  flagLike : s.scope.isFlagLike w = true
  spelled : s.scope.Spells w slot

/-- From `s` to `t` a sub-command was entered, where no flag has been given yet, or the flags with the
    property `added` were given. -/
inductive Proceeds (s t : ParseState) (added : Slot → Prop) : Prop where
  | entered {name : String} (path : t.commandPath = s.commandPath ++ [name])
      (fresh : t.satisfied = [])
  | stayed (h : Adds s t added)

/-- A bare `--` that nothing declares spells no flag. -/
theorem not_spells_dashes (hd : s.scope.findFlag? "--" = none) (slot : Slot) :
    ¬ s.scope.Spells "--" slot := by
  have hw := Command.findFlag?_eq_none_iff.mp hd
  intro h
  cases h with
  | name hs hn => exact hw (Command.mem_flagNames.mpr ⟨slot, hs, hn⟩)
  | assigned _ ha =>
    obtain ⟨-, -, name, value, hsplit, -⟩ := ha
    have hmem : '=' ∈ "--".toList := by
      rw [(splitOnce_eq_some_iff.mp hsplit).1]
      simp
    exact absurd hmem (by decide)
  | grouped _ _ hcut hlead =>
    have hcut' : "--".toList = ['-', '-'] := rfl
    obtain ⟨rfl, rfl⟩ := List.cons.inj (hcut.symm.trans hcut')
    exact hlead rfl

/-- A word for a positional gives no flag. -/
theorem adds_fillPositional (s : ParseState) (w : String) {added : Slot → Prop}
    (hnone : ∀ slot, ¬ added slot) : Adds s (s.fillPositional w) added := by
  obtain ⟨cursor, count, hf⟩ := s.fillPositional_eq w
  rw [hf]
  exact adds_none rfl rfl rfl hnone

theorem proceeds_consumeFree (hc : s.scope.WellFormed) (hp : s.pending = none) (w : String) :
    Proceeds s (s.consumeFree w) (s.Gives w) := by
  unfold consumeFree
  cases ha : s.afterTerminator with
  | true =>
    exact .stayed (s.adds_fillPositional w fun slot h => nomatch h.matching.symm.trans ha)
  | false =>
    rw [if_neg Bool.false_ne_true]
    split
    · rename_i hd
      obtain ⟨rfl, hnone⟩ := hd
      refine .stayed (adds_none rfl rfl rfl fun slot h => ?_)
      exact not_spells_dashes (Option.isNone_iff_eq_none.mp hnone) slot h.spelled
    · split
      · rename_i hl
        obtain ⟨cursor, count, hclose⟩ := s.closePositional_eq
        have hflag := adds_consumeFlag (s := s.closePositional) (by rw [hclose]; exact hc) w
        rw [hclose] at hflag ⊢
        have hmust := mustTakeValue_of_none hp
        have hadds : Adds s _ (s.scope.Spells w) := ⟨hflag.scope, hflag.commandPath, hflag.satisfied⟩
        exact .stayed (hadds.congr fun slot => ⟨fun h => ⟨ha, hmust, hl, h⟩, fun h => h.spelled⟩)
      · rename_i hl
        split
        · rename_i place child _
          exact .entered rfl rfl
        · exact .stayed (s.adds_fillPositional w fun slot h => hl h.flagLike)

/-- **A word enters a sub-command, or gives exactly the flags that it spells as a flag.** -/
theorem proceeds_consume (hc : s.scope.WellFormed) (w : String) :
    Proceeds s (s.consume w) (s.Gives w) := by
  cases hp : s.pending with
  | none =>
    rw [consume_of_pending_none hp]
    exact proceeds_consumeFree hc hp w
  | some p =>
    have hmust := mustTakeValue_of_pending hp
    cases ht : s.takes p w with
    | true =>
      rw [consume_of_takes hp ht]
      refine .stayed (adds_none rfl rfl rfl fun slot h => ?_)
      rcases takes_iff.mp ht with hn | ⟨ha | hl, -⟩
      · exact Bool.eq_false_iff.mp (hmust.symm.trans h.unclaimed) hn
      · exact Bool.eq_false_iff.mp h.matching ha
      · exact Bool.eq_false_iff.mp hl h.flagLike
    | false =>
      have hfree := proceeds_consumeFree (s := { s with pending := none }) hc rfl w
      have hneeds : s.mustTakeValue = false := by
        rw [hmust]
        unfold takes at ht
        exact (Bool.or_eq_false_iff.mp ht).1
      rw [consume_of_not_takes hp ht]
      cases hfree with
      | entered path fresh => exact .entered path fresh
      | stayed h =>
        have hadds : Adds s _ _ := ⟨h.scope, h.commandPath, h.satisfied⟩
        exact .stayed (hadds.congr fun slot => ⟨fun g => ⟨g.matching, hneeds, g.flagLike, g.spelled⟩,
          fun g => ⟨g.matching, rfl, g.flagLike, g.spelled⟩⟩)

/-! ## 4. Since the scope was entered -/

theorem consumeAll_concat (s : ParseState) (words : List String) (w : String) :
    s.consumeAll (words ++ [w]) = (s.consumeAll words).consume w := by
  simp [consumeAll]

theorem consumeAll_append (s : ParseState) (before behind : List String) :
    s.consumeAll (before ++ behind) = (s.consumeAll before).consumeAll behind := by
  simp [consumeAll]

/-- The path only grows. -/
theorem commandPath_prefix_run (s : ParseState) (words : List String) :
    s.commandPath <+: (s.consumeAll words).commandPath := by
  refine (s.consumeAll_moves words).keep (P := fun t => s.commandPath <+: t.commandPath)
    (fun t u h hm => ?_) List.prefix_rfl
  obtain ⟨slot, v, -, -, rfl⟩ | ⟨place, child, -, rfl⟩ | hstays := hm.cases_stays
  · rw [(adds_bind t slot v).commandPath]
    exact h
  · exact h.trans (List.prefix_append _ _)
  · rw [hstays.commandPath]
    exact h

/-- Since the scope was entered in which the reading of `words` ends, one of the words has given the
    flag in `slot`. -/
def GivenSince (root : Command) (words : List String) (slot : Slot) : Prop :=
  ∃ before u behind, words = before ++ u :: behind
    ∧ ((start root).consumeAll before).commandPath = ((start root).consumeAll words).commandPath
    ∧ ((start root).consumeAll before).Gives u slot

variable {root : Command} {words : List String}

/-- The last word has given the flag, or one before it has, and no sub-command was entered since. -/
theorem givenSince_concat : GivenSince root (words ++ [w]) slot ↔
    ((start root).consumeAll words).commandPath = ((start root).consumeAll (words ++ [w])).commandPath
      ∧ (GivenSince root words slot ∨ ((start root).consumeAll words).Gives w slot) := by
  constructor
  · intro h
    obtain ⟨before, u, behind, hcut, hpath, hgives⟩ := h
    rcases List.eq_nil_or_concat behind with rfl | ⟨behind, last, rfl⟩
    · obtain ⟨rfl, rfl⟩ := List.append_singleton_inj.mp hcut
      exact ⟨hpath, .inr hgives⟩
    · have hcut' : words ++ [w] = (before ++ u :: behind) ++ [last] := by simpa using hcut
      obtain ⟨rfl, rfl⟩ := List.append_singleton_inj.mp hcut'
      -- the path in between is at least the earlier one and at most the later one
      have hgrows := ((start root).consumeAll before).commandPath_prefix_run (u :: behind)
      have hgrows' := ((start root).consumeAll (before ++ u :: behind)).commandPath_prefix_run [w]
      rw [← consumeAll_append] at hgrows hgrows'
      rw [hpath] at hgrows
      have hsame := hgrows'.eq_of_length_le hgrows.length_le
      exact ⟨hsame, .inl ⟨before, u, behind, rfl, hpath.trans hsame.symm, hgives⟩⟩
  · intro h
    obtain ⟨hsame, ⟨before, u, behind, rfl, hpath, hgives⟩ | hgives⟩ := h
    · exact ⟨before, u, behind ++ [w], by simp, hpath.trans hsame, hgives⟩
    · exact ⟨words, w, [], rfl, hsame, hgives⟩

/-- **After every run the flags noted as given are those that a word has given since the scope was
    entered.** -/
theorem mem_satisfied_iff_givenSince (hroot : ∀ c, root.HasScope c → c.WellFormed)
    (words : List String) : ∀ i, i ∈ ((start root).consumeAll words).satisfied ↔
      ∃ slot ∈ ((start root).consumeAll words).scope.flags, slot.index = i
        ∧ GivenSince root words slot := by
  induction words using List.reverseRecOn with
  | nil =>
    refine fun i => ⟨fun h => (nomatch h), fun h => ?_⟩
    obtain ⟨slot, -, -, before, u, behind, hcut, -⟩ := h
    simp at hcut
  | append_singleton words w ih =>
    have hc := hroot _ (sound_run root words).scope
    simp only [givenSince_concat]
    rw [consumeAll_concat]
    intro i
    cases proceeds_consume hc w with
    | entered path fresh =>
      rw [fresh, path]
      refine ⟨fun h => (nomatch h), fun h => ?_⟩
      obtain ⟨slot, -, -, hpath, -⟩ := h
      simp at hpath
    | stayed h =>
      rw [h.satisfied, ih, h.scope, h.commandPath]
      constructor
      · intro hi
        rcases hi with ⟨slot, hs, hidx, hgiven⟩ | ⟨slot, hidx, hgives⟩
        · exact ⟨slot, hs, hidx, rfl, .inl hgiven⟩
        · exact ⟨slot, hgives.spelled.mem_flags, hidx, rfl, .inr hgives⟩
      · intro hi
        obtain ⟨slot, hs, hidx, -, hgiven | hgives⟩ := hi
        · exact .inl ⟨slot, hs, hidx, hgiven⟩
        · exact .inr ⟨slot, hidx, hgives⟩

/-- A flag of the scope is noted as given exactly if a word has given it since the scope was entered.
    -/
theorem isSatisfied_iff_givenSince (hroot : ∀ c, root.HasScope c → c.WellFormed)
    (hs : slot ∈ ((start root).consumeAll words).scope.flags) :
    ((start root).consumeAll words).isSatisfied slot.index = true ↔ GivenSince root words slot := by
  unfold isSatisfied
  rw [List.contains_iff_mem, mem_satisfied_iff_givenSince hroot]
  constructor
  · intro h
    obtain ⟨other, ho, hidx, hgiven⟩ := h
    obtain rfl : other = slot :=
      Command.eq_of_index_eq (Command.mem_flags.mp ho).1 (Command.mem_flags.mp hs).1 hidx
    exact hgiven
  · exact fun h => ⟨slot, hs, rfl, h⟩

end ParseState

end TabCompletion
