import TabCompletion.Proofs.Walk.Given

/-!
# Short ways to give flags

A flag and its value may be written as one word, `name=value`, and short flags as one group, the
last of which may have the rest of the word for its value. A group and an inline value are read by
other rules than words of their own, but they say the same: reading the word leads to the same
state, in every field, as reading its parts as words of their own.

* `Arity.Fixed`: the flags for which this holds need the value that they are given;
* `AwaitsFlag`: the states in which a flag may come; a group of switches never leaves them;
* `consume_bind_none`: a value in the next word is the inline value;
* `inline_like_separate`: the law for `name=value`;
* `AwaitsFlag.bindCluster_switches`, `cluster_like_separate`: the law for groups.
-/

namespace TabCompletion

open Text

/-- A number of values that is fixed and not zero. -/
inductive Arity.Fixed : Arity → Prop where
  | one : Fixed .one
  | exactly {k : Nat} (hk : 1 ≤ k) : Fixed (.exactly k)

namespace Arity.Fixed

variable {a : Arity}

/-- At least one value is needed, and no more are taken than are needed. -/
theorem bounds (h : a.Fixed) : 1 ≤ a.min ∧ a.max? = some a.min := by
  cases h with
  | one => exact ⟨Nat.le_refl 1, rfl⟩
  | exactly hk => exact ⟨hk, rfl⟩

theorem takesValue (h : a.Fixed) : a.takesValue = true := by
  obtain ⟨hmin, hmax⟩ := h.bounds
  unfold Arity.takesValue
  rw [hmax, bne_iff_ne, ne_eq, Option.some_inj]
  exact Nat.ne_of_gt hmin

/-- After some values another one is taken iff it is needed. -/
theorem acceptsMore_iff (h : a.Fixed) {n : Nat} : a.acceptsMore n = true ↔ n < a.min := by
  unfold Arity.acceptsMore
  rw [h.bounds.2, decide_eq_true_eq]

end Arity.Fixed

namespace ParseState

variable {s : ParseState} {slot : Slot} {w : String}

/-! ## 1. States in which a flag is read -/

/-- No flag would close the current positional: it has no value yet, or fewer than it needs. -/
def NothingToClose (s : ParseState) : Prop :=
  s.positionalCount = 0
    ∨ ∀ p, s.scope.positionals[s.positionalCursor]? = some p →
      s.positionalCount < p.action.arity.min

theorem closePositional_eq_self (h : s.NothingToClose) : s.closePositional = s := by
  unfold closePositional
  rcases h with hzero | hfew
  · exact if_pos hzero
  · split
    · rfl
    · split
      · rfl
      · rename_i p hp
        exact if_neg (Nat.not_le.mpr (hfew p hp))

/-- Once closed, nothing is left to close. -/
theorem nothingToClose_closePositional (s : ParseState) : s.closePositional.NothingToClose := by
  unfold closePositional
  split
  · exact .inl ‹_›
  · split
    · rename_i hnone
      exact .inr fun p hp => nomatch hnone.symm.trans hp
    · rename_i p hp
      split
      · exact .inl rfl
      · rename_i hfew
        refine .inr fun p' hp' => ?_
        obtain rfl := Option.some.inj (hp.symm.trans hp')
        exact Nat.not_le.mp hfew

/-- A flag may come next: flags are matched, none waits, and the current positional is closed if it
    can be. -/
structure AwaitsFlag (s : ParseState) : Prop where
  matching : s.afterTerminator = false
  free : s.pending = none
  closed : s.NothingToClose

/-- A flag may come next in the state in which a word that looks like a flag is read. -/
theorem awaitsFlag_beforeFlag (ha : s.afterTerminator = false) : s.beforeFlag.AwaitsFlag := by
  have hclosed : s.beforeFlag.NothingToClose := nothingToClose_closePositional _
  obtain ⟨cursor, count, hb⟩ := s.beforeFlag_eq
  rw [hb] at hclosed ⊢
  exact ⟨ha, rfl, hclosed⟩

theorem AwaitsFlag.beforeFlag_eq (h : s.AwaitsFlag) : s.beforeFlag = s :=
  beforeFlag_eq_self h.free (closePositional_eq_self h.closed)

/-! ## 2. A value behind its flag -/

/-- **A value in the next word is the inline value**, for a flag that needs it. -/
theorem consume_bind_none (hp : s.pending = none) (hf : slot.action.arity.Fixed) (v : String) :
    (s.bind slot none).consume v = s.bind slot (some v) := by
  have hwaits : (s.bind slot none).pending = some ⟨slot, 0⟩ := by
    rw [bind_none s slot hf.takesValue]
  have htakes : (s.bind slot none).takes ⟨slot, 0⟩ v = true :=
    takes_iff.mpr (.inl (decide_eq_true hf.bounds.1))
  rw [consume_of_takes hwaits htakes, bind_none s slot hf.takesValue,
    bind_some s slot hf.takesValue]
  unfold feed Pending.acceptsMore
  simp only [hf.acceptsMore_iff, hp]
  rfl

/-- A declared name with an inline value is read as its flag, with that value, unless the whole word
    is a name itself. -/
theorem consume_assignedName (ha : s.afterTerminator = false) (hm : s.mustTakeValue = false)
    (hc : s.scope.WellFormed) (hs : slot ∈ s.scope.flags) {n : String} (hn : n ∈ slot.action.names)
    (he : '=' ∉ n.toList) (ht : slot.action.arity.takesValue = true) {v : String}
    (hw : n ++ "=" ++ v ∉ s.scope.flagNames) :
    s.consume (n ++ "=" ++ v) = s.beforeFlag.bind slot (some v) := by
  have hstarts : s.scope.startsLikeFlag n = true := hc.startsLikeFlag_of_mem hs hn
  have hprefix : n.toList <+: (n ++ "=" ++ v).toList := by
    rw [String.append_assoc, String.toList_append]
    exact List.prefix_append _ _
  have hequals : '=' ∈ (n ++ "=" ++ v).toList := by simp
  have hlength : 2 ≤ (n ++ "=" ++ v).length := by
    have hpos : 0 < n.length := Command.length_pos_of_startsLikeFlag hstarts
    have hone : "=".length = 1 := rfl
    rw [String.length_append, String.length_append, hone]
    omega
  have hlike : s.scope.isFlagLike (n ++ "=" ++ v) = true :=
    Command.isFlagLike_of_equals_mem hlength (Command.startsLikeFlag_of_prefix hstarts hprefix)
      hequals
  have hinline : inlineFlag? s.scope (n ++ "=" ++ v) = some (slot, n, v) :=
    inlineFlag?_eq_some_iff.mpr ⟨splitOnce_append he v, hc.findFlag?_eq hs hn, ht⟩
  exact consume_assigned ha hm hlike (Command.findFlag?_eq_none_iff.mpr hw) hinline

/-- **`name=value` is read like `name value`.** In every state that a well-formed command reaches in
    which flags are matched and none needs a value, the two spellings lead to the same state,
    whatever the value is, if the flag takes a fixed number of values and the word is no flag name
    itself. -/
theorem inline_like_separate (root : Command) (hv : root.validate = .ok ()) (words : List String)
    {slot : Slot} {n v : String}
    (ha : ((start root).consumeAll words).afterTerminator = false)
    (hm : ((start root).consumeAll words).mustTakeValue = false)
    (hs : slot ∈ ((start root).consumeAll words).scope.flags) (hn : n ∈ slot.action.names)
    (hl : 2 ≤ n.length) (he : '=' ∉ n.toList) (hf : slot.action.arity.Fixed)
    (hw : n ++ "=" ++ v ∉ ((start root).consumeAll words).scope.flagNames) :
    ((start root).consumeAll words).consume (n ++ "=" ++ v)
      = (((start root).consumeAll words).consume n).consume v := by
  have hscope := (sound_run root words).scope
  generalize (start root).consumeAll words = s at *
  have hc : s.scope.WellFormed := (Command.validate_eq_ok_iff root).mp hv _ hscope
  calc s.consume (n ++ "=" ++ v)
      = s.beforeFlag.bind slot (some v) := consume_assignedName ha hm hc hs hn he hf.takesValue hw
    _ = (s.beforeFlag.bind slot none).consume v :=
        (consume_bind_none (awaitsFlag_beforeFlag ha).free hf v).symm
    _ = (s.consume n).consume v := by
        rw [consume_declared ha hm hc hs hn hl]

/-- A program for charts whose files may be any number, with a flag for two numbers that looks like
    a number itself and ends the flags. -/
def charting : Command :=
  { Command.empty "chart" with
    actions := [{ Action.flag ["-1", "--axes"] with arity := .exactly 2, terminator := true },
      { Action.operand "files" with arity := .oneOrMore }] }

/-- Behind a first file `-1=-1=--` is read as `-1` with the value `-1=--`. -/
theorem inline_like_separate_charting :
    let s := (start charting).consumeAll ["a.csv"]
    charting.validate = .ok () ∧ s.afterTerminator = false ∧ s.mustTakeValue = false
      ∧ "-1" ++ "=" ++ "-1=--" ∉ s.scope.flagNames
      ∧ s.consume ("-1" ++ "=" ++ "-1=--") = (s.consume "-1").consume "-1=--" := by
  intro s
  have hv : charting.validate = .ok () := by decide
  have hw : "-1" ++ "=" ++ "-1=--" ∉ s.scope.flagNames := by decide
  exact ⟨hv, rfl, rfl, hw, inline_like_separate charting hv ["a.csv"] rfl rfl
    (List.mem_cons_self : (⟨0, _⟩ : Slot) ∈ _) (by decide) (by decide) (by decide)
    (.exactly (by decide)) hw⟩

/-! ## 3. Groups -/

/-- The name of the short flag of the character `ch`. -/
def shortName (lead ch : Char) : String := String.ofList [lead, ch]

/-- The short flag of `ch` is declared, takes no value, and leaves flags matched. -/
def GroupSwitch (c : Command) (lead ch : Char) : Prop :=
  ∃ slot ∈ c.flags, shortName lead ch ∈ slot.action.names
    ∧ slot.action.arity.takesValue = false ∧ slot.action.terminator = false

/-- A switch of the scope leaves a state in which the next flag may come. -/
theorem AwaitsFlag.bind_switch (h : s.AwaitsFlag) (hv : slot.action.arity.takesValue = false)
    (ht : slot.action.terminator = false) : (s.bind slot none).AwaitsFlag := by
  rw [bind_of_switch s slot none hv]
  refine ⟨?_, h.free, h.closed⟩
  show (s.afterTerminator || slot.action.terminator) = false
  rw [h.matching, ht]
  rfl

/-- Where a flag may come, a declared name is bound at once. -/
theorem AwaitsFlag.consume_shortName (h : s.AwaitsFlag) (hw : s.scope.WellFormed) {lead ch : Char}
    (hs : slot ∈ s.scope.flags) (hn : shortName lead ch ∈ slot.action.names) :
    s.consume (shortName lead ch) = s.bind slot none := by
  have hl : 2 ≤ (shortName lead ch).length := by simp [shortName]
  rw [consume_declared h.matching (mustTakeValue_of_none h.free) hw hs hn hl, h.beforeFlag_eq]

/-- **Switches in a group are read like words of their own**, and what follows them in the group is
    read in the state behind these words. -/
theorem AwaitsFlag.bindCluster_switches (h : s.AwaitsFlag) (hw : s.scope.WellFormed) {lead : Char}
    {before : List Char} (hb : ∀ b ∈ before, GroupSwitch s.scope lead b) (rest : List Char) :
    (s.consumeAll (before.map (shortName lead))).AwaitsFlag
      ∧ (s.consumeAll (before.map (shortName lead))).scope = s.scope
      ∧ s.bindCluster lead (before ++ rest)
        = (s.consumeAll (before.map (shortName lead))).bindCluster lead rest := by
  induction before generalizing s with
  | nil => exact ⟨h, rfl, rfl⟩
  | cons b before ih =>
    obtain ⟨⟨slot, hs, hn, hv, ht⟩, hbefore⟩ := List.forall_mem_cons.mp hb
    have hconsume := h.consume_shortName hw hs hn
    have hrest := ih (h.bind_switch hv ht) (by rw [bind_scope]; exact hw)
      (by rw [bind_scope]; exact hbefore)
    rw [bind_scope] at hrest
    rw [List.map_cons, consumeAll_cons, hconsume, List.cons_append, bindCluster]
    have hfind : s.scope.findFlag? (String.ofList [lead, b]) = some slot := hw.findFlag?_eq hs hn
    rw [hfind]
    dsimp only
    rw [if_neg (by simp [hv])]
    exact hrest

/-- The words that a group stands for: its short flags, and the value behind them if there is
    one. -/
def groupWords (lead : Char) (flags : List Char) (v : String) : List String :=
  flags.map (shortName lead) ++ if v = "" then [] else [v]

theorem groupWords_concat (lead last : Char) (before : List Char) (v : String) :
    groupWords lead (before ++ [last]) v
      = before.map (shortName lead) ++ groupWords lead [last] v := by
  simp [groupWords]

/-- The word that writes them as a group. -/
def groupWord (lead : Char) (flags : List Char) (v : String) : String :=
  String.ofList (lead :: flags) ++ v

/-- The word of a group is read as one: it looks like a flag, does not double its first character,
    and neither it nor its part in front of an equals sign is a flag name. All its short flags but
    the last are switches. The last one is a switch too if no value follows, and else needs the
    value. -/
structure IsGroup (c : Command) (lead : Char) (before : List Char) (last : Char) (v : String) :
    Prop where
  flagLike : c.isFlagLike (groupWord lead (before ++ [last]) v) = true
  single : (before ++ [last]).head? ≠ some lead
  unnamed : groupWord lead (before ++ [last]) v ∉ c.flagNames
  unassigned : ∀ name value,
    splitOnce '=' (groupWord lead (before ++ [last]) v) = some (name, value) → name ∉ c.flagNames
  switches : ∀ b ∈ before, GroupSwitch c lead b
  last : v = "" ∧ GroupSwitch c lead last
    ∨ v ≠ "" ∧ ∃ slot ∈ c.flags, shortName lead last ∈ slot.action.names
      ∧ slot.action.arity.Fixed

/-- The last short flag of a group has the rest of the word for its value. -/
theorem AwaitsFlag.bindCluster_last (h : s.AwaitsFlag) (hw : s.scope.WellFormed) {lead last : Char}
    {v : String} (hlast : v = "" ∧ GroupSwitch s.scope lead last
      ∨ v ≠ "" ∧ ∃ slot ∈ s.scope.flags, shortName lead last ∈ slot.action.names
        ∧ slot.action.arity.Fixed) :
    s.bindCluster lead (last :: v.toList) = s.consumeAll (groupWords lead [last] v) := by
  unfold groupWords
  rcases hlast with ⟨rfl, hswitch⟩ | ⟨hv, slot, hs, hn, hf⟩
  · have hgroup := (h.bindCluster_switches hw (List.forall_mem_singleton.mpr hswitch) []).2.2
    exact hgroup
  · have hfind : s.scope.findFlag? (String.ofList [lead, last]) = some slot :=
      hw.findFlag?_eq hs hn
    have hrest : v.toList.isEmpty = false := by simpa using hv
    rw [if_neg hv, bindCluster, hfind]
    dsimp only
    rw [if_pos hf.takesValue, hrest, if_neg Bool.false_ne_true, String.ofList_toList,
      ← consume_bind_none h.free hf v, ← h.consume_shortName hw hs hn]
    rfl

/-- The word of a group is read as its characters, in a state in which a flag may come. -/
theorem consume_groupWord (ha : s.afterTerminator = false) (hm : s.mustTakeValue = false)
    {lead last : Char} {before : List Char} {v : String} (hg : IsGroup s.scope lead before last v) :
    s.consume (groupWord lead (before ++ [last]) v)
      = s.beforeFlag.bindCluster lead (before ++ last :: v.toList) := by
  have hchars : (groupWord lead (before ++ [last]) v).toList
      = lead :: (before ++ last :: v.toList) := by
    simp [groupWord]
  have hsingle : (before ++ last :: v.toList).head? ≠ some lead := by
    have hhead := hg.single
    cases before with
    | nil => exact hhead
    | cons b before => exact hhead
  have hdashes : groupWord lead (before ++ [last]) v = "--"
      → (s.scope.findFlag? "--").isNone = false := by
    intro hd
    rw [hd] at hchars
    obtain ⟨hlead, hrest⟩ := List.cons.inj (show '-' :: ['-'] = _ from hchars)
    rw [← hrest, ← hlead] at hsingle
    exact absurd rfl hsingle
  have hunknown : s.scope.findFlag? (groupWord lead (before ++ [last]) v) = none :=
    Command.findFlag?_eq_none_iff.mpr hg.unnamed
  have hinline : inlineFlag? s.scope (groupWord lead (before ++ [last]) v) = none := by
    refine Option.eq_none_iff_forall_not_mem.mpr fun ⟨slot, name, value⟩ hi => ?_
    obtain ⟨hcut, hf, -⟩ := inlineFlag?_eq_some_iff.mp hi
    obtain ⟨hs, hn⟩ := Command.findFlag?_mem hf
    exact hg.unassigned name value hcut (Command.mem_flagNames.mpr ⟨slot, hs, hn⟩)
  rw [consume_flagLike ha hm hg.flagLike hdashes]
  unfold consumeFlag
  rw [beforeFlag_scope, hunknown, hinline]
  unfold consumeCluster
  rw [hchars]
  exact if_neg hsingle

/-- The first short flag of a group is declared. -/
theorem IsGroup.first {c : Command} {lead last : Char} {before : List Char} {v : String}
    (hg : IsGroup c lead before last v) : ∃ ch rest, before ++ [last] = ch :: rest
      ∧ ∃ slot ∈ c.flags, shortName lead ch ∈ slot.action.names := by
  cases before with
  | nil =>
    refine ⟨last, [], rfl, ?_⟩
    rcases hg.last with ⟨-, slot, hs, hn, -⟩ | ⟨-, slot, hs, hn, -⟩
    · exact ⟨slot, hs, hn⟩
    · exact ⟨slot, hs, hn⟩
  | cons b before =>
    obtain ⟨slot, hs, hn, -⟩ := hg.switches b List.mem_cons_self
    exact ⟨b, before ++ [last], rfl, slot, hs, hn⟩

/-- The first word of a group releases the flag that waits and closes the positional, as the word of
    the group does. -/
theorem consumeAll_groupWords (ha : s.afterTerminator = false) (hm : s.mustTakeValue = false)
    (hc : s.scope.WellFormed) {lead last : Char} {before : List Char} {v : String}
    (hg : IsGroup s.scope lead before last v) :
    s.beforeFlag.consumeAll (groupWords lead (before ++ [last]) v)
      = s.consumeAll (groupWords lead (before ++ [last]) v) := by
  obtain ⟨ch, rest, hcut, slot, hs, hn⟩ := hg.first
  have hl : 2 ≤ (shortName lead ch).length := by simp [shortName]
  have hfirst : s.beforeFlag.consume (shortName lead ch) = s.consume (shortName lead ch) := by
    rw [consume_declared ha hm hc hs hn hl]
    exact (awaitsFlag_beforeFlag ha).consume_shortName (by rwa [beforeFlag_scope])
      (by rwa [beforeFlag_scope]) hn
  unfold groupWords
  rw [hcut, List.map_cons, List.cons_append, consumeAll_cons, consumeAll_cons, hfirst]

/-- **A group of short flags is read like the flags one by one**, and the value behind the last of
    them. In every state that a well-formed command reaches in which flags are matched and none
    needs a value, the group and the separate words lead to the same state. -/
theorem cluster_like_separate (root : Command) (hv : root.validate = .ok ()) (words : List String)
    {lead last : Char} {before : List Char} {v : String}
    (ha : ((start root).consumeAll words).afterTerminator = false)
    (hm : ((start root).consumeAll words).mustTakeValue = false)
    (hg : IsGroup ((start root).consumeAll words).scope lead before last v) :
    ((start root).consumeAll words).consume (groupWord lead (before ++ [last]) v)
      = ((start root).consumeAll words).consumeAll (groupWords lead (before ++ [last]) v) := by
  have hscope := (sound_run root words).scope
  generalize (start root).consumeAll words = s at *
  have hc : s.scope.WellFormed := (Command.validate_eq_ok_iff root).mp hv _ hscope
  have hopen : s.beforeFlag.AwaitsFlag := awaitsFlag_beforeFlag ha
  have hswitches := hopen.bindCluster_switches (by rwa [beforeFlag_scope])
    (by rw [beforeFlag_scope]; exact hg.switches) (last :: v.toList)
  obtain ⟨hbehind, hsame, hcluster⟩ := hswitches
  rw [beforeFlag_scope] at hsame
  have hlast := hbehind.bindCluster_last (by rwa [hsame]) (by rw [hsame]; exact hg.last)
  calc s.consume (groupWord lead (before ++ [last]) v)
      = s.beforeFlag.bindCluster lead (before ++ last :: v.toList) :=
        consume_groupWord ha hm hg
    _ = (s.beforeFlag.consumeAll (before.map (shortName lead))).bindCluster lead
          (last :: v.toList) := hcluster
    _ = s.beforeFlag.consumeAll (groupWords lead (before ++ [last]) v) := by
        rw [hlast, groupWords_concat, consumeAll_append]
    _ = s.consumeAll (groupWords lead (before ++ [last]) v) :=
        consumeAll_groupWords ha hm hc hg

/-- A program that packs files, with switches, one of them for a character that is no letter, and a
    flag for its output that ends the flags. -/
def bundling : Command :=
  { Command.empty "bundle" with
    actions := [Action.flag ["-v"], Action.flag ["-é", "--extra"],
      { Action.flag ["-o"] with arity := .one, terminator := true },
      { Action.operand "files" with arity := .oneOrMore }] }

/-- Behind a first file the word `-vévo=-x` is read as three switches and the flag `-o` with the
    value `=-x`. -/
theorem cluster_like_separate_bundling :
    let s := (start bundling).consumeAll ["a.txt"]
    bundling.validate = .ok () ∧ s.afterTerminator = false ∧ s.mustTakeValue = false
      ∧ IsGroup s.scope '-' ['v', 'é', 'v'] 'o' "=-x"
      ∧ s.consume "-vévo=-x" = s.consumeAll ["-v", "-é", "-v", "-o", "=-x"] := by
  intro s
  have hv : bundling.validate = .ok () := by decide
  have hletter : GroupSwitch s.scope '-' 'v' := ⟨⟨0, _⟩, .head _, by decide, rfl, rfl⟩
  have haccent : GroupSwitch s.scope '-' 'é' := ⟨⟨1, _⟩, .tail _ (.head _), by decide, rfl, rfl⟩
  have hg : IsGroup s.scope '-' ['v', 'é', 'v'] 'o' "=-x" := {
    flagLike := by decide
    single := by decide
    unnamed := by decide
    unassigned := by
      intro name value hcut
      have hparts : splitOnce '=' (groupWord '-' ['v', 'é', 'v', 'o'] "=-x")
          = some ("-vévo", "-x") := by decide
      cases hparts.symm.trans hcut
      decide
    switches := List.forall_mem_cons.mpr ⟨hletter, List.forall_mem_cons.mpr ⟨haccent,
      List.forall_mem_singleton.mpr hletter⟩⟩
    last := .inr ⟨by decide, ⟨2, _⟩, .tail _ (.tail _ (.head _)), by decide, .one⟩ }
  exact ⟨hv, rfl, rfl, hg, cluster_like_separate bundling hv ["a.txt"] rfl rfl hg⟩

end ParseState

end TabCompletion
