import TabCompletion.Proofs.Spec.Scope
import TabCompletion.Spec.Validation

/-!
# What validation accepts

Validation runs through a tree with two sets of names that grow on the way. This module says what
it accepts without them:

* `WellFormed`: the condition on one scope, by its own actions and the names of its sub-commands;
* `validate_eq_ok_iff`: a tree is accepted iff each of its scopes is well-formed;
* `WellFormed.findFlag?_eq`, `WellFormed.findChild?_eq`: in a well-formed scope every declared name
  is found under its own declaration.
-/

namespace TabCompletion

/-- The first of two checks passed, and the second one on its result. -/
theorem bind_eq_ok_iff {ε α β : Type} {x : Except ε α} {f : α → Except ε β} {b : β} :
    x >>= f = .ok b ↔ ∃ a, x = .ok a ∧ f a = .ok b := by
  cases x <;> simp [bind, Except.bind]

/-- Both of two checks passed. -/
theorem seq_eq_ok_iff {ε β : Type} {x : Except ε Unit} {f : Unit → Except ε β} {b : β} :
    x >>= f = .ok b ↔ x = .ok () ∧ f () = .ok b := by
  rw [bind_eq_ok_iff]
  exact ⟨fun ⟨_, h⟩ => h, fun h => ⟨(), h⟩⟩

/-! ## 1. Names against those before them -/

/-- The names are new: none of them comes twice, and none of them has been seen. -/
def Fresh (seen names : List String) : Prop :=
  names.Nodup ∧ ∀ n ∈ names, n ∉ seen

theorem fresh_nil (seen : List String) : Fresh seen [] :=
  ⟨List.nodup_nil, fun _ h => absurd h List.not_mem_nil⟩

theorem fresh_cons {seen ns : List String} {n : String} :
    Fresh seen (n :: ns) ↔ n ∉ seen ∧ Fresh (n :: seen) ns := by
  simp only [Fresh, List.nodup_cons, List.mem_cons, not_or, forall_eq_or_imp]
  constructor
  · intro h
    obtain ⟨⟨hn, hd⟩, hs, hr⟩ := h
    exact ⟨hs, hd, fun m hm => ⟨fun e => hn (e ▸ hm), hr m hm⟩⟩
  · intro h
    obtain ⟨hs, hd, hr⟩ := h
    exact ⟨⟨fun hn => (hr n hn).1 rfl, hd⟩, hs, fun m hm => (hr m hm).2⟩

theorem fresh_append {seen ms ns : List String} :
    Fresh seen (ms ++ ns) ↔ Fresh seen ms ∧ Fresh (ms.reverse ++ seen) ns := by
  induction ms generalizing seen with
  | nil => simp [fresh_nil]
  | cons m ms ih =>
    rw [List.cons_append, fresh_cons, fresh_cons, ih, List.reverse_cons, List.append_assoc,
      and_assoc]
    rfl

theorem fresh_empty {names : List String} : Fresh [] names ↔ names.Nodup := by
  simp [Fresh]

namespace Command

/-! ## 2. One scope -/

/-- The names of an action suit a scope: there is one, and they start like a flag exactly if the
    action is a flag. -/
def Suits (c : Command) (a : Action) : Prop :=
  a.names ≠ [] ∧ ∀ n ∈ a.names, c.startsLikeFlag n = !a.positional

/-- A scope is well-formed: its actions have suitable names, no flag name is declared twice, and
    no name of a direct sub-command is. -/
structure WellFormed (c : Command) : Prop where
  suits : ∀ a ∈ c.actions, c.Suits a
  flagNames_nodup : c.flagNames.Nodup
  childNames_nodup : c.childNames.Nodup

theorem checkFlagNames_eq_ok_iff {c : Command} {seen ns out : List String} :
    c.checkFlagNames seen ns = .ok out ↔
      (∀ n ∈ ns, c.startsLikeFlag n = true) ∧ Fresh seen ns ∧ out = ns.reverse ++ seen := by
  induction ns generalizing seen with
  | nil =>
    simp only [checkFlagNames, Except.ok.injEq, List.reverse_nil, List.nil_append]
    exact ⟨fun h => ⟨fun _ hn => absurd hn List.not_mem_nil, fresh_nil seen, h.symm⟩,
      fun h => h.2.2.symm⟩
  | cons n ns ih =>
    rw [fresh_cons, List.forall_mem_cons]
    unfold checkFlagNames
    cases hl : c.startsLikeFlag n with
    | false => simp
    | true =>
      by_cases hs : n ∈ seen
      · simp [hs]
      · simp [hs, ih]

theorem checkNames_eq_ok_iff {parent : String} {seen ns out : List String} :
    checkNames parent seen ns = .ok out ↔ Fresh seen ns ∧ out = ns.reverse ++ seen := by
  induction ns generalizing seen with
  | nil =>
    simp only [checkNames, Except.ok.injEq, List.reverse_nil, List.nil_append]
    exact ⟨fun h => ⟨fresh_nil seen, h.symm⟩, fun h => h.2.symm⟩
  | cons n ns ih =>
    rw [fresh_cons]
    unfold checkNames
    by_cases hs : n ∈ seen
    · simp [hs]
    · simp [hs, ih]

/-- The flag names that an action adds to its scope. -/
def newFlagNames (a : Action) : List String :=
  if a.positional then [] else a.names

theorem checkAction_eq_ok_iff {c : Command} {seen out : List String} {a : Action} :
    c.checkAction seen a = .ok out ↔
      c.Suits a ∧ Fresh seen (newFlagNames a) ∧ out = (newFlagNames a).reverse ++ seen := by
  unfold checkAction Suits newFlagNames
  by_cases he : a.names = []
  · simp [he]
  cases hp : a.positional with
  | false => simp [he, checkFlagNames_eq_ok_iff]
  | true =>
    cases hf : a.names.find? c.startsLikeFlag with
    | none =>
      have hn := List.find?_eq_none.mp hf
      simp only [Bool.not_eq_true] at hn
      simp only [List.isEmpty_iff, he, if_false, if_true, Except.ok.injEq]
      exact ⟨fun h => ⟨⟨he, hn⟩, fresh_nil seen, h.symm⟩, fun h => h.2.2.symm⟩
    | some n =>
      have hn : n ∈ a.names := List.mem_of_find?_eq_some hf
      have hl : c.startsLikeFlag n = true := List.find?_some hf
      simp only [List.isEmpty_iff, he, if_false, if_true, reduceCtorEq, false_iff]
      intro h
      obtain ⟨⟨-, h⟩, -⟩ := h
      rw [h n hn] at hl
      cases hl

theorem checkActions_eq_ok_iff {c : Command} {seen : List String} {as : List Action} :
    c.checkActions seen as = .ok () ↔
      (∀ a ∈ as, c.Suits a) ∧ Fresh seen (as.flatMap newFlagNames) := by
  induction as generalizing seen with
  | nil => simp [checkActions, fresh_nil]
  | cons a as ih =>
    unfold checkActions
    rw [bind_eq_ok_iff, List.forall_mem_cons, List.flatMap_cons, fresh_append]
    constructor
    · intro h
      obtain ⟨out, ha, hr⟩ := h
      obtain ⟨hs, hf, rfl⟩ := checkAction_eq_ok_iff.mp ha
      obtain ⟨hss, hff⟩ := ih.mp hr
      exact ⟨⟨hs, hss⟩, hf, hff⟩
    · intro h
      obtain ⟨⟨hs, hss⟩, hf, hff⟩ := h
      exact ⟨_, checkAction_eq_ok_iff.mpr ⟨hs, hf, rfl⟩, ih.mpr ⟨hss, hff⟩⟩

theorem flatMap_newFlagNames (c : Command) : c.actions.flatMap newFlagNames = c.flagNames := by
  unfold flagNames
  induction c.actions with
  | nil => rfl
  | cons a as ih =>
    rw [List.flatMap_cons, ih]
    cases hp : a.positional <;> simp [newFlagNames, hp]

/-! ## 3. The whole tree -/

mutual

/-- **Validation accepts exactly the trees whose scopes are all well-formed.** -/
theorem validate_eq_ok_iff : ∀ root : Command,
    root.validate = .ok () ↔ ∀ c, root.HasScope c → c.WellFormed
  | ⟨name, aliases, help, flagChars, actions, subcommands⟩ => by
    unfold validate
    rw [seq_eq_ok_iff, validateAll_eq_ok_iff name [] subcommands, checkActions_eq_ok_iff,
      fresh_empty, fresh_empty]
    have hf := flatMap_newFlagNames ⟨name, aliases, help, flagChars, actions, subcommands⟩
    constructor
    · intro hok c h
      obtain ⟨⟨hs, hn⟩, hc, hr⟩ := hok
      rcases hasScope_iff.mp h with rfl | ⟨child, hm, hd⟩
      · exact ⟨hs, hf ▸ hn, hc⟩
      · exact hr child hm c hd
    · intro h
      obtain ⟨hs, hn, hc⟩ := h _ (.self _)
      exact ⟨⟨hs, hf ▸ hn⟩, hc, fun child hm d hd => h d (.under hm hd)⟩

theorem validateAll_eq_ok_iff : ∀ (parent : String) (seen : List String) (cs : List Command),
    validateAll parent seen cs = .ok () ↔
      Fresh seen (cs.flatMap (·.allNames)) ∧ ∀ c ∈ cs, ∀ d, c.HasScope d → d.WellFormed
  | _, _, [] => by simp [validateAll, fresh_nil]
  | parent, seen, c :: cs => by
    unfold validateAll
    rw [bind_eq_ok_iff, List.forall_mem_cons, List.flatMap_cons, fresh_append]
    simp only [seq_eq_ok_iff, checkNames_eq_ok_iff, validate_eq_ok_iff c]
    constructor
    · intro h
      obtain ⟨_, ⟨hf, rfl⟩, hc, hr⟩ := h
      obtain ⟨hff, hcs⟩ := (validateAll_eq_ok_iff parent _ cs).mp hr
      exact ⟨⟨hf, hff⟩, hc, hcs⟩
    · intro h
      obtain ⟨⟨hf, hff⟩, hc, hcs⟩ := h
      exact ⟨_, ⟨hf, rfl⟩, hc, (validateAll_eq_ok_iff parent _ cs).mpr ⟨hff, hcs⟩⟩

end

/-! ## 4. Look-ups in a well-formed scope -/

namespace WellFormed

variable {c : Command}

/-- The name of a flag starts like one. -/
theorem startsLikeFlag_of_mem (h : c.WellFormed) {slot : Slot} {n : String} (hs : slot ∈ c.flags)
    (hn : n ∈ slot.action.names) : c.startsLikeFlag n = true := by
  obtain ⟨hm, hp⟩ := mem_flags.mp hs
  have ha : slot.action ∈ c.actions := List.mem_of_getElem? (mem_slots.mp hm)
  rw [(h.suits _ ha).2 n hn, hp]
  rfl

/-- The name of a flag finds that flag. -/
theorem findFlag?_eq (h : c.WellFormed) {slot : Slot} {n : String} (hs : slot ∈ c.flags)
    (hn : n ∈ slot.action.names) : c.findFlag? n = some slot :=
  (findFlag?_eq_some_iff h.flagNames_nodup).mpr ⟨hs, hn⟩

/-- The name of a sub-command finds that sub-command. -/
theorem findChild?_eq (h : c.WellFormed) {child : Command} {i : Nat} {w : String}
    (hc : c.subcommands[i]? = some child) (hw : w ∈ child.allNames) :
    c.findChild? w = some (i, child) :=
  (findChild?_eq_some_iff h.childNames_nodup).mpr ⟨hc, hw⟩

end WellFormed

/-- Where all scopes are well-formed, a path of names leads to one scope only. -/
theorem LeadsTo.unique {root c d : Command} {names : List String}
    (hw : ∀ s, root.HasScope s → s.WellFormed) (hc : root.LeadsTo names c)
    (hd : root.LeadsTo names d) : c = d := by
  induction hc with
  | here =>
    cases hd
    rfl
  | @down root child c names hm _ ih =>
    generalize hname : child.name = name at hd
    cases hd with
    | @down _ child' _ _ hm' hd' =>
      have hnames := (hw root (.self root)).childNames_nodup
      obtain rfl : child = child' := eq_of_mem_of_nodup_flatMap hnames hm hm'
        (List.mem_cons_self) (by rw [hname]; exact List.mem_cons_self)
      exact ih (fun s hs => hw s (.under hm hs)) hd'

end Command

end TabCompletion
