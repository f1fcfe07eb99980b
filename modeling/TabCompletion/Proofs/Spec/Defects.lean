import TabCompletion.Proofs.Spec.Completers
import TabCompletion.Proofs.Spec.WellFormed

/-!
# What validation reports

Validation stops at the first defect that it meets on its way through a tree. This module says that
every defect it reports is one: it lies in some scope of the tree, that scope bears the name in the
report, and the name that is blamed is declared there in the way that is reported.

* `Unsuited`, `Defect`: the defects of one action and of one scope, said without the order of the
  checks and without the sets that grow on the way;
* `wellFormed_iff_no_defect`: a scope is well-formed iff it has none of them;
* `validate_error`: a reported defect is a defect of a scope of the tree;
* `validation_exact`: the law, together with what validation accepts.
-/

namespace TabCompletion

/-- The first of two checks failed, or it passed and the second one failed on its result. -/
theorem bind_eq_error_iff {ε α β : Type} {x : Except ε α} {f : α → Except ε β} {e : ε} :
    x >>= f = .error e ↔ x = .error e ∨ ∃ a, x = .ok a ∧ f a = .error e := by
  cases x <;> simp [bind, Except.bind]

namespace Command

variable {c : Command} {seen : List String} {e : SpecError}

/-! ## 1. Defects of a scope -/

/-- The names of the action do not suit the scope `c`, for the reason that is given. -/
inductive Unsuited (c : Command) (a : Action) : SpecError → Prop where
  | missingName (hn : a.names = []) : Unsuited c a (.missingName c.name)
  | flagName {n : String} (hp : a.positional = false) (hn : n ∈ a.names)
      (hl : c.startsLikeFlag n = false) : Unsuited c a (.invalidFlagName c.name n)
  | positionalName {n : String} (hp : a.positional = true) (hn : n ∈ a.names)
      (hl : c.startsLikeFlag n = true) : Unsuited c a (.invalidPositionalName c.name n)

/-- The scope `c` has the defect that is given: an action whose names do not suit it, a flag name
    that is declared twice, or a name of direct sub-commands that is. -/
inductive Defect (c : Command) : SpecError → Prop where
  | unsuited {a : Action} {e : SpecError} (ha : a ∈ c.actions) (h : c.Unsuited a e) : Defect c e
  | duplicateFlag {n : String} (h : 2 ≤ c.flagNames.count n) : Defect c (.duplicateFlag c.name n)
  | duplicateSubcommand {n : String} (h : 2 ≤ c.childNames.count n) :
      Defect c (.duplicateSubcommand c.name n)

/-- An action suits a scope iff nothing can be said against its names. -/
theorem suits_iff_not_unsuited {a : Action} : c.Suits a ↔ ∀ e, ¬ c.Unsuited a e := by
  constructor
  · intro h e hu
    obtain ⟨hne, hl⟩ := h
    cases hu with
    | missingName hn => exact hne hn
    | flagName hp hn hs => simp [hl _ hn, hp] at hs
    | positionalName hp hn hs => simp [hl _ hn, hp] at hs
  · intro h
    refine ⟨fun hn => h _ (.missingName hn), fun n hn => ?_⟩
    cases hp : a.positional with
    | false =>
      cases hl : c.startsLikeFlag n with
      | false => exact absurd (.flagName hp hn hl) (h _)
      | true => rfl
    | true => exact Bool.eq_false_iff.mpr fun hl => h _ (.positionalName hp hn hl)

/-- **A scope is well-formed iff it has no defect.** -/
theorem wellFormed_iff_no_defect : c.WellFormed ↔ ∀ e, ¬ c.Defect e := by
  constructor
  · intro h e hd
    cases hd with
    | unsuited ha hu => exact suits_iff_not_unsuited.mp (h.suits _ ha) e hu
    | duplicateFlag htwice =>
      exact absurd (List.nodup_iff_count_le_one.mp h.flagNames_nodup _) (Nat.not_le.mpr htwice)
    | duplicateSubcommand htwice =>
      exact absurd (List.nodup_iff_count_le_one.mp h.childNames_nodup _) (Nat.not_le.mpr htwice)
  · intro h
    exact {
      suits := fun a ha => suits_iff_not_unsuited.mpr fun e hu => h e (.unsuited ha hu)
      flagNames_nodup := List.nodup_iff_count_le_one.mpr fun n =>
        Nat.not_lt.mp fun htwice => h _ (.duplicateFlag htwice)
      childNames_nodup := List.nodup_iff_count_le_one.mpr fun n =>
        Nat.not_lt.mp fun htwice => h _ (.duplicateSubcommand htwice) }

/-! ## 2. The reports of the single checks

A name that comes twice is reported when it comes the second time. The first time it has been put
among the names seen, where its place does not matter: only how often a name is among those seen and
those to come is kept from step to step. -/

/-- A name that has been seen and comes again is there twice. -/
theorem two_le_count_of_seen {n : String} {ns : List String} (h : n ∈ seen) :
    2 ≤ (seen ++ n :: ns).count n := by
  have hseen : 1 ≤ seen.count n := List.one_le_count_iff.mpr h
  rw [List.count_append, List.count_cons_self]
  omega

/-- A name that is there twice is so whatever names still come. -/
theorem two_le_count_append {n : String} {ns : List String} (h : 2 ≤ ns.count n)
    (later : List String) : 2 ≤ (ns ++ later).count n := by
  rw [List.count_append]
  exact Nat.le_add_right_of_le h

/-- A name is there as often before some names are put among those seen as after. -/
theorem count_reverse_append (ns later : List String) (n : String) :
    (ns.reverse ++ seen ++ later).count n = (seen ++ (ns ++ later)).count n := by
  have hswap : (ns.reverse ++ seen).Perm (seen ++ ns) :=
    List.perm_append_comm.trans ((List.reverse_perm ns).append_left seen)
  rw [← List.append_assoc]
  exact (hswap.append_right later).count_eq n

theorem checkFlagNames_error {ns : List String} (h : c.checkFlagNames seen ns = .error e) :
    (∃ n ∈ ns, c.startsLikeFlag n = false ∧ e = .invalidFlagName c.name n)
      ∨ ∃ n, 2 ≤ (seen ++ ns).count n ∧ e = .duplicateFlag c.name n := by
  induction ns generalizing seen with
  | nil => cases h
  | cons n ns ih =>
    unfold checkFlagNames at h
    split at h
    · rename_i hl
      cases h
      exact .inl ⟨n, List.mem_cons_self, by simpa using hl, rfl⟩
    · split at h
      · rename_i hs
        cases h
        exact .inr ⟨n, two_le_count_of_seen (List.contains_iff_mem.mp hs), rfl⟩
      · rcases ih h with ⟨m, hm, hl, he⟩ | ⟨m, hm, he⟩
        · exact .inl ⟨m, List.mem_cons_of_mem n hm, hl, he⟩
        · exact .inr ⟨m, count_reverse_append [n] ns m ▸ hm, he⟩

theorem checkNames_error {parent : String} {ns : List String}
    (h : checkNames parent seen ns = .error e) :
    ∃ n, 2 ≤ (seen ++ ns).count n ∧ e = .duplicateSubcommand parent n := by
  induction ns generalizing seen with
  | nil => cases h
  | cons n ns ih =>
    unfold checkNames at h
    split at h
    · rename_i hs
      cases h
      exact ⟨n, two_le_count_of_seen (List.contains_iff_mem.mp hs), rfl⟩
    · obtain ⟨m, hm, he⟩ := ih h
      exact ⟨m, count_reverse_append [n] ns m ▸ hm, he⟩

theorem checkAction_error {a : Action} (h : c.checkAction seen a = .error e) :
    c.Unsuited a e ∨ ∃ n, 2 ≤ (seen ++ newFlagNames a).count n ∧ e = .duplicateFlag c.name n := by
  unfold checkAction at h
  split at h
  · rename_i hn
    cases h
    exact .inl (.missingName (List.isEmpty_iff.mp hn))
  · split at h
    · rename_i hp
      split at h
      · rename_i n hf
        cases h
        exact .inl (.positionalName hp (List.mem_of_find?_eq_some hf) (List.find?_some hf))
      · cases h
    · rename_i hp
      have hflag : a.positional = false := Bool.eq_false_iff.mpr hp
      have hnew : newFlagNames a = a.names := if_neg hp
      rw [hnew]
      rcases checkFlagNames_error h with ⟨n, hn, hl, rfl⟩ | htwice
      · exact .inl (.flagName hflag hn hl)
      · exact .inr htwice

theorem checkActions_error {as : List Action} (h : c.checkActions seen as = .error e) :
    (∃ a ∈ as, c.Unsuited a e)
      ∨ ∃ n, 2 ≤ (seen ++ as.flatMap newFlagNames).count n ∧ e = .duplicateFlag c.name n := by
  induction as generalizing seen with
  | nil => cases h
  | cons a as ih =>
    unfold checkActions at h
    rw [List.flatMap_cons]
    rcases bind_eq_error_iff.mp h with ha | ⟨out, ha, hrest⟩
    · rcases checkAction_error ha with hu | ⟨n, hn, he⟩
      · exact .inl ⟨a, List.mem_cons_self, hu⟩
      · refine .inr ⟨n, ?_, he⟩
        rw [← List.append_assoc]
        exact two_le_count_append hn _
    · obtain ⟨-, -, rfl⟩ := checkAction_eq_ok_iff.mp ha
      rcases ih hrest with ⟨b, hb, hu⟩ | ⟨n, hn, he⟩
      · exact .inl ⟨b, List.mem_cons_of_mem a hb, hu⟩
      · exact .inr ⟨n, count_reverse_append _ _ n ▸ hn, he⟩

theorem validateAll_error {parent : String} {cs : List Command}
    (h : validateAll parent seen cs = .error e) :
    (∃ n, 2 ≤ (seen ++ cs.flatMap (·.allNames)).count n ∧ e = .duplicateSubcommand parent n)
      ∨ ∃ child ∈ cs, child.validate = .error e := by
  induction cs generalizing seen with
  | nil =>
    unfold validateAll at h
    cases h
  | cons child cs ih =>
    unfold validateAll at h
    rw [List.flatMap_cons]
    rcases bind_eq_error_iff.mp h with hnames | ⟨out, hnames, hrest⟩
    · obtain ⟨n, hn, he⟩ := checkNames_error hnames
      refine .inl ⟨n, ?_, he⟩
      rw [← List.append_assoc]
      exact two_le_count_append hn _
    · rcases bind_eq_error_iff.mp hrest with hchild | ⟨_, -, hrest⟩
      · exact .inr ⟨child, List.mem_cons_self, hchild⟩
      · obtain ⟨-, rfl⟩ := checkNames_eq_ok_iff.mp hnames
        rcases ih hrest with ⟨n, hn, he⟩ | ⟨d, hd, he⟩
        · exact .inl ⟨n, count_reverse_append _ _ n ▸ hn, he⟩
        · exact .inr ⟨d, List.mem_cons_of_mem child hd, he⟩

/-! ## 3. The whole tree -/

/-- **Every defect that validation reports is a defect of some scope of the tree**, and the report
    bears the name of that scope. -/
theorem validate_error : ∀ (root : Command) {e : SpecError}, root.validate = .error e →
    ∃ c, root.HasScope c ∧ c.Defect e :=
  treeInduction fun c ih e h => by
    obtain ⟨name, aliases, help, flagChars, actions, subcommands⟩ := c
    unfold validate at h
    rcases bind_eq_error_iff.mp h with hactions | ⟨_, -, hchildren⟩
    · refine ⟨_, .self _, ?_⟩
      rcases checkActions_error hactions with ⟨a, ha, hu⟩ | ⟨n, hn, rfl⟩
      · exact .unsuited ha hu
      · rw [List.nil_append] at hn
        exact .duplicateFlag (flatMap_newFlagNames _ ▸ hn)
    · rcases validateAll_error hchildren with ⟨n, hn, rfl⟩ | ⟨child, hc, hchild⟩
      · exact ⟨_, .self _, .duplicateSubcommand hn⟩
      · obtain ⟨d, hd, hdefect⟩ := ih child hc hchild
        exact ⟨d, .under hc hd, hdefect⟩

/-- **Validation accepts exactly the well-formed trees**, those in which every scope is well-formed;
    and when it refuses a tree, then for a defect that some scope of it really has. -/
theorem validation_exact (root : Command) :
    (root.validate = .ok () ↔ ∀ c, root.HasScope c → c.WellFormed)
      ∧ ∀ e, root.validate = .error e → ∃ c, root.HasScope c ∧ c.Defect e :=
  ⟨validate_eq_ok_iff root, fun _ h => validate_error root h⟩

/-- A program for plants, below which a sub-command has an alias that is its own name. -/
def gardening : Command :=
  { Command.empty "garden" with
    actions := [Action.flag ["-w", "--water"], .operand "bed"],
    subcommands := [{ Command.empty "plant" with
      subcommands := [(Command.empty "seed").addAlias "seed"] }] }

/-- The alias is reported, in the scope that holds the sub-command. -/
theorem validation_exact_gardening :
    gardening.validate = .error (.duplicateSubcommand "plant" "seed")
      ∧ (¬ ∀ c, gardening.HasScope c → c.WellFormed)
      ∧ ∃ c, gardening.HasScope c ∧ c.Defect (.duplicateSubcommand "plant" "seed") := by
  have he : gardening.validate = .error (.duplicateSubcommand "plant" "seed") := by decide
  have hn : gardening.validate ≠ .ok () := by
    rw [he]
    exact nofun
  exact ⟨he, mt (validation_exact gardening).1.mpr hn, (validation_exact gardening).2 _ he⟩

end Command

end TabCompletion
