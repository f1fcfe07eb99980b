import Mathlib.Data.List.Lattice
import Mathlib.Data.List.Nodup
import Mathlib.Data.List.Pairwise
import TabCompletion.Spec.Command

/-!
# The scopes of a command, and looking up a name in one of them

A command is a tree of scopes. This module says which commands are scopes of a tree, and what the
look-up of a name finds:

* `HasScope`: the command itself and, from there on, every direct sub-command;
* `LeadsTo`: the names on the way down to a scope;
* `flagNames`, `childNames`: the names that a scope declares, in their order;
* `findFlag?_eq_some_iff`, `findChild?_eq_some_iff`: where no name is declared twice, a look-up
  finds exactly the flag or the sub-command that declares the name.
-/

namespace TabCompletion

/-! ## 1. Lists in which no name comes twice -/

section Lists

variable {α β : Type} {l : List α} {f : α → List β}

/-- Where no name comes twice, a name belongs to one element only. -/
theorem eq_of_mem_of_nodup_flatMap (h : (l.flatMap f).Nodup) {a b : α} {x : β}
    (ha : a ∈ l) (hb : b ∈ l) (hxa : x ∈ f a) (hxb : x ∈ f b) : a = b := by
  by_contra hne
  have hp := (List.nodup_flatMap.mp h).2
  have hd : (f a).Disjoint (f b) := by
    have : Std.Symm (Function.onFun List.Disjoint f) := ⟨fun _ _ h => List.Disjoint.symm h⟩
    exact hp.forall ha hb hne
  exact hd hxa hxb

/-- The only element that passes a test is the one that a search finds. -/
theorem find?_eq_some_of_unique {p : α → Bool} {a : α} (ha : a ∈ l) (hp : p a = true)
    (hu : ∀ b ∈ l, p b = true → b = a) : l.find? p = some a := by
  have hs : (l.find? p).isSome = true := List.find?_isSome.mpr ⟨a, ha, hp⟩
  obtain ⟨b, hb⟩ := Option.isSome_iff_exists.mp hs
  rw [hb, hu b (List.mem_of_find?_eq_some hb) (List.find?_some hb)]

end Lists

namespace Command

/-! ## 2. Scopes -/

/-- `root.HasScope c`: the command `c` is a scope of the tree below `root`. -/
inductive HasScope : Command → Command → Prop where
  | self (c : Command) : HasScope c c
  | under {c child d : Command} (hc : child ∈ c.subcommands) (hd : HasScope child d) : HasScope c d

/-- A scope of a scope is a scope of the whole tree. -/
theorem HasScope.trans {a b c : Command} (hab : a.HasScope b) (hbc : b.HasScope c) :
    a.HasScope c := by
  induction hab with
  | self => exact hbc
  | under hc _ ih => exact .under hc (ih hbc)

/-- A direct sub-command of a scope is a scope. -/
theorem HasScope.child {root c d : Command} (h : root.HasScope c) (hd : d ∈ c.subcommands) :
    root.HasScope d :=
  h.trans (.under hd (.self d))

theorem hasScope_iff {c d : Command} :
    c.HasScope d ↔ d = c ∨ ∃ child ∈ c.subcommands, child.HasScope d := by
  constructor
  · intro h
    cases h with
    | self => exact .inl rfl
    | under hc hd => exact .inr ⟨_, hc, hd⟩
  · intro h
    rcases h with rfl | ⟨child, hc, hd⟩
    · exact .self _
    · exact .under hc hd

/-- `root.LeadsTo names c`: one below the other, the direct sub-commands of these names lead from
    `root` down to `c`. -/
inductive LeadsTo : Command → List String → Command → Prop where
  | here (c : Command) : LeadsTo c [] c
  | down {c child d : Command} {names : List String} (hc : child ∈ c.subcommands)
      (hd : LeadsTo child names d) : LeadsTo c (child.name :: names) d

/-- The way to a command goes on to its direct sub-commands. -/
theorem LeadsTo.child {root c d : Command} {names : List String} (h : root.LeadsTo names c)
    (hd : d ∈ c.subcommands) : root.LeadsTo (names ++ [d.name]) d := by
  induction h with
  | here => exact .down hd (.here d)
  | down hc _ ih => exact .down hc (ih hd)

/-! ## 3. Flags -/

/-- The names of the flags of a scope, in the order of their declaration. -/
def flagNames (c : Command) : List String :=
  (c.actions.filter (!·.positional)).flatMap (·.names)

theorem mem_slots {c : Command} {slot : Slot} :
    slot ∈ c.slots ↔ c.actions[slot.index]? = some slot.action := by
  unfold slots
  rw [List.mem_map]
  constructor
  · intro h
    obtain ⟨⟨a, i⟩, hm, rfl⟩ := h
    exact List.mem_zipIdx_iff_getElem?.mp hm
  · intro h
    exact ⟨(slot.action, slot.index), List.mem_zipIdx_iff_getElem?.mpr h, rfl⟩

/-- A slot of a scope is known by its place. -/
theorem eq_of_index_eq {c : Command} {slot other : Slot} (hs : slot ∈ c.slots) (ho : other ∈ c.slots)
    (h : slot.index = other.index) : slot = other := by
  have hplace := mem_slots.mp hs
  have hother := mem_slots.mp ho
  obtain ⟨index, action⟩ := slot
  obtain rfl : index = other.index := h
  obtain rfl : action = other.action := Option.some.inj (hplace.symm.trans hother)
  rfl

theorem mem_flags {c : Command} {slot : Slot} :
    slot ∈ c.flags ↔ slot ∈ c.slots ∧ slot.action.positional = false := by
  simp [flags]

theorem slots_map_action (c : Command) : c.slots.map (·.action) = c.actions := by
  unfold slots
  rw [List.map_map]
  exact List.zipIdx_map_fst 0 c.actions

/-- The action of a slot is an action of the command. -/
theorem action_mem_of_mem_slots {c : Command} {slot : Slot} (h : slot ∈ c.slots) :
    slot.action ∈ c.actions := by
  rw [← c.slots_map_action]
  exact List.mem_map_of_mem h

theorem flags_map_action (c : Command) :
    c.flags.map (·.action) = c.actions.filter (!·.positional) := by
  rw [← c.slots_map_action, List.filter_map]
  rfl

theorem flagNames_eq (c : Command) : c.flagNames = c.flags.flatMap (·.action.names) := by
  unfold flagNames
  rw [← flags_map_action, List.flatMap_map]

theorem mem_flagNames {c : Command} {n : String} :
    n ∈ c.flagNames ↔ ∃ slot ∈ c.flags, n ∈ slot.action.names := by
  rw [flagNames_eq, List.mem_flatMap]

theorem findFlag?_mem {c : Command} {n : String} {slot : Slot} (h : c.findFlag? n = some slot) :
    slot ∈ c.flags ∧ n ∈ slot.action.names := by
  refine ⟨List.mem_of_find?_eq_some h, ?_⟩
  have ha := List.find?_some h
  simpa [Action.answersTo] using ha

/-- A name is unknown iff no flag declares it. -/
theorem findFlag?_eq_none_iff {c : Command} {n : String} :
    c.findFlag? n = none ↔ n ∉ c.flagNames := by
  rw [mem_flagNames]
  simp [findFlag?, Action.answersTo]

/-- Where no flag name is declared twice, a name finds the flag that declares it. -/
theorem findFlag?_eq_some_iff {c : Command} (h : c.flagNames.Nodup) {n : String} {slot : Slot} :
    c.findFlag? n = some slot ↔ slot ∈ c.flags ∧ n ∈ slot.action.names := by
  refine ⟨findFlag?_mem, fun ⟨hs, hn⟩ => ?_⟩
  rw [flagNames_eq] at h
  refine find?_eq_some_of_unique hs (by simpa [Action.answersTo] using hn) fun b hb hbn => ?_
  exact eq_of_mem_of_nodup_flatMap h hb hs (by simpa [Action.answersTo] using hbn) hn

/-! ## 4. Sub-commands -/

/-- The names and aliases of the direct sub-commands, in the order of their declaration. -/
def childNames (c : Command) : List String :=
  c.subcommands.flatMap (·.allNames)

theorem findChild?_mem {c child : Command} {w : String} {i : Nat}
    (h : c.findChild? w = some (i, child)) :
    c.subcommands[i]? = some child ∧ w ∈ child.allNames := by
  unfold findChild? at h
  obtain ⟨⟨d, j⟩, hf, he⟩ := Option.map_eq_some_iff.mp h
  cases he
  have hm := List.mem_of_find?_eq_some hf
  have ha := List.find?_some hf
  exact ⟨List.mem_zipIdx_iff_getElem?.mp hm, by simpa [answersTo] using ha⟩

/-- Where no name of a sub-command is declared twice, a word finds the sub-command that declares
    it. -/
theorem findChild?_eq_some_iff {c : Command} (h : c.childNames.Nodup) {child : Command}
    {w : String} {i : Nat} :
    c.findChild? w = some (i, child) ↔ c.subcommands[i]? = some child ∧ w ∈ child.allNames := by
  refine ⟨findChild?_mem, fun ⟨hc, hw⟩ => ?_⟩
  have hz : (c.subcommands.zipIdx.flatMap (·.1.allNames)).Nodup := by
    have e : c.subcommands.zipIdx.flatMap (·.1.allNames) = c.childNames := by
      unfold childNames
      conv => rhs; rw [← List.zipIdx_map_fst 0 c.subcommands, List.flatMap_map]
    rw [e]
    exact h
  have hm : (child, i) ∈ c.subcommands.zipIdx := List.mem_zipIdx_iff_getElem?.mpr hc
  unfold findChild?
  rw [find?_eq_some_of_unique hm (by simpa [answersTo] using hw) fun b hb hbw =>
    eq_of_mem_of_nodup_flatMap hz hb hm (by simpa [answersTo] using hbw) hw]
  rfl

end Command

end TabCompletion
