import TabCompletion.Json.Fields
import TabCompletion.Proofs.Json.Tokens

/-!
# Written fields and lists are read back

Typed data is written as an object with some of its fields in their order, and as lists. Both are
read back as long as the reader may open as many levels as they have.

* `Value.nesting`: the levels of a value;
* `fields?_ofMembers`: an object with some of the fields in their order is read as these fields;
* `list?_map`: a list is read as the items of which its own were written;
* `Definite`: what is written for typed data can be written.
-/

namespace TabCompletion.Json

open Document

/-! ## 1. Levels -/

mutual

/-- The number of lists and objects that are open at once, at most, in the text of a value. -/
def Value.nesting : Value → Nat
  | .list vs => itemsNesting vs + 1
  | .object ms => membersNesting ms + 1
  | _ => 0

/-- The levels inside a list. -/
def itemsNesting : List Value → Nat
  | [] => 0
  | v :: vs => max v.nesting (itemsNesting vs)

/-- The levels inside an object. -/
def membersNesting : List (Option String × Value) → Nat
  | [] => 0
  | (_, v) :: ms => max v.nesting (membersNesting ms)

end

theorem itemsNesting_le_iff {vs : List Value} {d : Nat} :
    itemsNesting vs ≤ d ↔ ∀ v ∈ vs, v.nesting ≤ d := by
  induction vs with
  | nil => simp [itemsNesting]
  | cons v vs ih => rw [itemsNesting, Nat.max_le, ih, List.forall_mem_cons]

theorem membersNesting_le_iff {ms : List (Option String × Value)} {d : Nat} :
    membersNesting ms ≤ d ↔ ∀ m ∈ ms, m.2.nesting ≤ d := by
  induction ms with
  | nil => simp [membersNesting]
  | cons m ms ih => rw [membersNesting, Nat.max_le, ih, List.forall_mem_cons]

/-- A list has one level more than its items. -/
theorem nesting_list_le_iff {vs : List Value} {d : Nat} :
    (Value.list vs).nesting ≤ d + 1 ↔ ∀ v ∈ vs, v.nesting ≤ d := by
  rw [Value.nesting, Nat.add_le_add_iff_right, itemsNesting_le_iff]

/-- An object has one level more than its members. -/
theorem nesting_ofMembers_le_iff {ms : List (String × Value)} {d : Nat} :
    (Value.ofMembers ms).nesting ≤ d + 1 ↔ ∀ m ∈ ms, m.2.nesting ≤ d := by
  rw [Value.ofMembers, Value.nesting, Nat.add_le_add_iff_right, membersNesting_le_iff]
  exact List.forall_mem_map

/-! ## 2. What can be written -/

theorem definite_ofMembers {ms : List (String × Value)} (h : ∀ m ∈ ms, m.2.Definite) :
    (Value.ofMembers ms).Definite := by
  refine .object ?_ ?_
  · intro m hm
    obtain ⟨_, -, rfl⟩ := List.mem_map.mp hm
    rfl
  · intro m hm
    obtain ⟨n, hn, rfl⟩ := List.mem_map.mp hm
    exact h n hn

theorem definite_strs (ss : List String) : (Value.strs ss).Definite := by
  refine .list fun v hv => ?_
  obtain ⟨s, -, rfl⟩ := List.mem_map.mp hv
  exact .text s

/-! ## 3. Fields -/

theorem memberNames?_map (ms : List (String × Value)) :
    memberNames? (ms.map fun (k, v) => (some k, v)) = some ms := by
  unfold memberNames?
  induction ms with
  | nil => rfl
  | cons m ms ih =>
    rw [List.map_cons, List.mapM_cons, ih]
    rfl

/-- **Some of the fields in their order** are read as these fields. -/
theorem fields?_ofMembers {names : List String} {ms : List (String × Value)} (hd : names.Nodup)
    (h : (ms.map (·.1)).Sublist names) : (Value.ofMembers ms).fields? names = some ⟨ms⟩ := by
  have hfound : ms.filter (names.contains ·.1) = ms := by
    rw [List.filter_eq_self]
    intro m hm
    exact List.contains_iff_mem.mpr (h.subset (List.mem_map_of_mem hm))
  have hnodup : ((ms.filter (names.contains ·.1)).map (·.1)).Nodup := by
    rw [hfound]
    exact hd.sublist h
  unfold Value.ofMembers Value.fields?
  dsimp only
  rw [memberNames?_map]
  show (if _ then some (Fields.mk (ms.filter (names.contains ·.1))) else none) = _
  rw [if_pos hnodup, hfound]

/-! ## 4. Lists -/

/-- Items are read back if each of them is. -/
theorem mapM_map_eq_some {α β γ : Type} {write : α → β} {read : β → Option γ} {result : α → γ}
    {xs : List α} (h : ∀ x ∈ xs, read (write x) = some (result x)) :
    (xs.map write).mapM read = some (xs.map result) := by
  induction xs with
  | nil => rfl
  | cons x xs ih =>
    obtain ⟨hx, hxs⟩ := List.forall_mem_cons.mp h
    rw [List.map_cons, List.mapM_cons, hx, ih hxs]
    rfl

/-- **A list is read back** if its items are, with one level less. -/
theorem list?_map {α γ : Type} {write : α → Value} {read : Nat → Value → Option γ}
    {result : α → γ} {xs : List α} {depth : Nat}
    (hn : (Value.list (xs.map write)).nesting ≤ depth)
    (h : ∀ d, ∀ x ∈ xs, (write x).nesting ≤ d → read d (write x) = some (result x)) :
    (Value.list (xs.map write)).list? depth read = some (xs.map result) := by
  cases depth with
  | zero => exact absurd hn (Nat.not_succ_le_zero _)
  | succ d =>
    have hitems := nesting_list_le_iff.mp hn
    exact mapM_map_eq_some fun x hx => h d x hx (hitems _ (List.mem_map_of_mem hx))

/-- A list of texts is read back. -/
theorem texts?_strs {ss : List String} {depth : Nat} (hn : (Value.strs ss).nesting ≤ depth) :
    (Value.strs ss).texts? depth = some ss := by
  have hread : (Value.strs ss).texts? depth = some (ss.map id) :=
    list?_map hn fun _ _ _ _ => rfl
  rwa [List.map_id] at hread

end TabCompletion.Json
