import TabCompletion.Proofs.Completion.Ranking
import TabCompletion.Proofs.Completion.Sources
import TabCompletion.Proofs.Completion.Values

/-!
# In which order values are offered

The engine keeps what matches of the values that its sources name, each at the place where it came
first, and then leaves that order as it is or ranks the values. This module says that it does
nothing else.

* `Engine.kept`: the candidates that match, each value where it came first;
* `Engine.Declares`: the outcome in declared order, read off the sources;
* `Engine.Ranks`: the outcome in ranked order, compared with the one in declared order;
* `complete_in_order`: every outcome is of this kind, and ranking forgets the order of the sources.
-/

namespace TabCompletion

/-! ## 1. First occurrences -/

/-- Erasing repetitions commutes with dropping the values that fail a test. -/
theorem eraseDups_filter (p : String → Bool) (vs : List String) :
    (vs.filter p).eraseDups = vs.eraseDups.filter p := by
  cases vs with
  | nil => rfl
  | cons v rest =>
    have hrest := eraseDups_filter p (rest.filter fun u => !u == v)
    rw [List.eraseDups_cons, List.filter_cons, List.filter_cons, ← hrest]
    cases hp : p v with
    | true =>
      rw [if_pos rfl, if_pos rfl, List.eraseDups_cons, List.filter_comm]
    | false =>
      -- the test drops every other occurrence of `v` too
      have hdrop : (rest.filter fun u => !u == v).filter p = rest.filter p := by
        rw [List.filter_filter]
        refine List.filter_congr fun u _ => ?_
        by_cases hu : u = v
        · rw [hu, hp, Bool.false_and]
        · simp [hu]
      rw [if_neg Bool.false_ne_true, if_neg Bool.false_ne_true, hdrop]
termination_by vs.length
decreasing_by
  have hlen := List.length_filter_le (fun u => !u == v) rest
  rw [List.length_cons]
  omega

namespace Candidate

/-- The values that stay are the values without repetitions, each where it came first. -/
theorem map_value_distinct (cs : List Candidate) :
    (distinct cs).map (·.value) = (cs.map (·.value)).eraseDups := by
  induction cs with
  | nil => rfl
  | cons c cs ih =>
    unfold distinct
    rw [List.map_cons, List.map_cons, List.eraseDups_cons, eraseDups_filter, ← ih,
      List.filter_map]
    rfl

theorem nodup_map_value_distinct (cs : List Candidate) :
    ((distinct cs).map (·.value)).Nodup := by
  induction cs with
  | nil => exact List.nodup_nil
  | cons c cs ih =>
    unfold distinct
    rw [List.map_cons, List.nodup_cons]
    constructor
    · intro hm
      obtain ⟨d, hd, hv⟩ := List.mem_map.mp hm
      have hne := (List.mem_filter.mp hd).2
      simp [hv] at hne
    · exact ih.sublist (List.filter_sublist.map _)

/-- Of the candidates with one value the first one stays. -/
theorem find?_of_mem_distinct {cs : List Candidate} {d : Candidate} (h : d ∈ distinct cs) :
    cs.find? (·.value == d.value) = some d := by
  induction cs with
  | nil => cases h
  | cons c cs ih =>
    unfold distinct at h
    rcases List.mem_cons.mp h with rfl | h
    · rw [List.find?_cons_of_pos (by simp)]
    · obtain ⟨hd, hne⟩ := List.mem_filter.mp h
      have hother : (c.value == d.value) = false := by
        refine Bool.eq_false_iff.mpr fun he => ?_
        rw [eq_of_beq he] at hne
        simp at hne
      rw [List.find?_cons, hother]
      exact ih hd

end Candidate

namespace Engine

variable {e : Engine} {host : Host} {w : Walk}

/-! ## 2. Candidates that are kept -/

/-- The engine with the order of its candidates replaced. -/
def ordered (e : Engine) (order : CandidateOrder) : Engine :=
  { e with config := { e.config with order } }

/-- The candidates of the sources that match, each value where it came first. -/
def kept (e : Engine) (host : Host) (w : Walk) : List Candidate :=
  Candidate.distinct ((e.sourceCandidates host w).1.filter fun c => e.accepts c.value w.word.typed)

theorem values_complete (e : Engine) (host : Host) (w : Walk) : (e.complete host w).values
    = ((e.select w.word.typed (e.sourceCandidates host w).1).map (·.value)).map
      (w.word.assignment.getD "" ++ ·) := by
  unfold Outcome.values complete
  dsimp only
  rw [Candidate.map_value_finishSole, List.map_map, List.map_map]
  rfl

/-- The values that match, without repetitions. -/
theorem map_value_kept (e : Engine) (host : Host) (w : Walk) : (e.kept host w).map (·.value)
    = ((e.sourceValues host w).filter (e.accepts · w.word.typed)).eraseDups := by
  unfold kept
  rw [Candidate.map_value_distinct, ← map_value_sourceCandidates, List.filter_map]
  rfl

theorem mem_map_value_kept {v : String} : v ∈ (e.kept host w).map (·.value)
    ↔ v ∈ e.sourceValues host w ∧ e.accepts v w.word.typed = true := by
  rw [map_value_kept, List.mem_eraseDups, List.mem_filter]

theorem nodup_map_value_kept (e : Engine) (host : Host) (w : Walk) :
    ((e.kept host w).map (·.value)).Nodup :=
  Candidate.nodup_map_value_distinct _

/-- Of all candidates of the sources with one value the first one is kept. -/
theorem find?_of_mem_kept {d : Candidate} (h : d ∈ e.kept host w) :
    (e.sourceCandidates host w).1.find? (·.value == d.value) = some d := by
  have haccepts : e.accepts d.value w.word.typed = true :=
    (List.mem_filter.mp (Candidate.distinct_subset _ h)).2
  have hfirst := Candidate.find?_of_mem_distinct h
  rw [List.find?_filter] at hfirst
  -- a candidate with an accepted value is accepted
  have htest : (fun c : Candidate => e.accepts c.value w.word.typed && c.value == d.value)
      = fun c => c.value == d.value := by
    funext c
    by_cases hv : c.value = d.value
    · simp [hv, haccepts]
    · simp [hv]
  rw [← htest]
  simpa only [Bool.decide_and, Bool.decide_eq_true] using hfirst

end Engine

namespace Candidate

theorem finishSole_of_length {cs : List Candidate} (h : cs.length ≠ 1) : finishSole cs = cs := by
  match cs, h with
  | [], _ => rfl
  | _ :: _ :: _, _ => rfl

/-- Finishing changes nothing but the mark. -/
theorem exists_of_mem_finishSole {cs : List Candidate} {c : Candidate} (h : c ∈ finishSole cs) :
    ∃ d ∈ cs, c = { d with finished := c.finished } := by
  unfold finishSole at h
  split at h
  · rename_i d
    obtain rfl := List.mem_singleton.mp h
    exact ⟨d, List.mem_singleton_self d, rfl⟩
  · exact ⟨c, h, rfl⟩

theorem finishSole_perm {cs ds : List Candidate} (h : cs.Perm ds) :
    (finishSole cs).Perm (finishSole ds) := by
  by_cases hlen : cs.length = 1
  · obtain ⟨c, rfl⟩ := List.length_eq_one_iff.mp hlen
    rw [List.singleton_perm.mp h]
  · have hlen' : ds.length ≠ 1 := fun h' => hlen (h.length_eq.trans h')
    rw [finishSole_of_length hlen, finishSole_of_length hlen']
    exact h

end Candidate

namespace Engine

variable {e : Engine} {host : Host} {w : Walk}

/-- **An outcome in declared order**: the values of the sources that match, each once and where it
    came first, with the assignment in front, and each with what its first candidate says about it.
    -/
structure Declares (e : Engine) (host : Host) (w : Walk) (o : Outcome) : Prop where
  sources : (e.sourceCandidates host w).1.map (·.value)
    = w.commandNames ++ e.actionValues host w ++ e.flagNames w
  values : o.values = ((e.sourceValues host w).filter (e.accepts · w.word.typed)).eraseDups.map
    (w.word.assignment.getD "" ++ ·)
  distinct : o.values.Nodup
  details : ∀ c ∈ o.candidates, ∃ d,
    (e.sourceCandidates host w).1.find? (w.word.assignment.getD "" ++ ·.value == c.value) = some d
      ∧ c.description = d.description ∧ c.kind = d.kind ∧ c.display = d.display

/-- **The same outcome in ranked order**: the same candidates, the exact value first and all others
    by length and by the alphabet. -/
structure Ranks (declared ranked : Outcome) (lead? : Option String) : Prop where
  perm : ranked.candidates.Perm declared.candidates
  ranked : Ranked lead? ranked.values

theorem declares_complete (e : Engine) (host : Host) (w : Walk) :
    e.Declares host w ((e.ordered .declared).complete host w) := by
  have hkept : ((e.ordered .declared).complete host w).values
      = ((e.kept host w).map (·.value)).map (w.word.assignment.getD "" ++ ·) :=
    values_complete (e.ordered .declared) host w
  refine ⟨map_value_sourceCandidates e host w, ?_, ?_, fun c hc => ?_⟩
  · rw [hkept, map_value_kept]
  · rw [hkept]
    exact (nodup_map_value_kept e host w).map (append_left_injective _)
  · obtain ⟨b, hb, hcb⟩ := Candidate.exists_of_mem_finishSole hc
    obtain ⟨d, hd, rfl⟩ := List.mem_map.mp hb
    have hkept : d ∈ e.kept host w := hd
    have hvalue : c.value = w.word.assignment.getD "" ++ d.value := by rw [hcb]; rfl
    have hfirst := find?_of_mem_kept hkept
    refine ⟨d, ?_, by rw [hcb]; rfl, by rw [hcb]; rfl, by rw [hcb]; rfl⟩
    rw [hvalue, ← hfirst]
    congr 1
    funext a
    rw [Bool.eq_iff_iff, beq_iff_eq, beq_iff_eq]
    exact (append_left_injective _).eq_iff

/-- The values that are kept, sorted by rank. -/
theorem values_complete_ranked (e : Engine) (host : Host) (w : Walk) :
    ((e.ordered .ranked).complete host w).values
      = (((e.kept host w).mergeSort (Candidate.rankLe w.word.typed)).map (·.value)).map
        (w.word.assignment.getD "" ++ ·) :=
  values_complete (e.ordered .ranked) host w

theorem ranks_complete (e : Engine) (host : Host) (w : Walk) :
    Ranks ((e.ordered .declared).complete host w) ((e.ordered .ranked).complete host w)
      ((exactMatch? w.word.typed).map (w.word.assignment.getD "" ++ ·)) := by
  constructor
  · exact Candidate.finishSole_perm ((List.mergeSort_perm (e.kept host w) _).map _)
  · rw [values_complete_ranked]
    have hperm := (List.mergeSort_perm (e.kept host w)
      (Candidate.rankLe w.word.typed)).map (·.value)
    have hdistinct := hperm.nodup_iff.mpr (nodup_map_value_kept e host w)
    exact (ranked_of_pairwise (pairwise_outranks _ _) hdistinct).prepend _

/-- Where the same text has been typed and the sources have the same values, ranking offers the same
    values in the same order. -/
theorem values_complete_ranked_eq {host' : Host} {w' : Walk}
    (ht : w'.word.typed = w.word.typed) (ha : w'.word.assignment = w.word.assignment)
    (h : ∀ v, v ∈ e.sourceValues host' w' ↔ v ∈ e.sourceValues host w) :
    ((e.ordered .ranked).complete host' w').values
      = ((e.ordered .ranked).complete host w).values := by
  have hsame : ∀ v, v ∈ (e.kept host' w').map (·.value) ↔ v ∈ (e.kept host w).map (·.value) := by
    intro v
    rw [mem_map_value_kept, mem_map_value_kept, h v, ht]
  rw [values_complete_ranked, values_complete_ranked, ht, ha,
    map_value_mergeSort_eq (nodup_map_value_kept e host' w') (nodup_map_value_kept e host w) hsame]

/-- **No value is lost, repeated or misplaced**, whatever the configuration, the validator and the
    completers are: declared order keeps the order of the sources, and ranked order is a
    rearrangement of it that does not depend on that order any more. -/
theorem complete_in_order (e : Engine) (host : Host) (w : Walk) :
    e.Declares host w ((e.ordered .declared).complete host w)
      ∧ Ranks ((e.ordered .declared).complete host w) ((e.ordered .ranked).complete host w)
        ((exactMatch? w.word.typed).map (w.word.assignment.getD "" ++ ·))
      ∧ ∀ (host' : Host) (w' : Walk), w'.word.typed = w.word.typed →
        w'.word.assignment = w.word.assignment →
          (∀ v, v ∈ e.sourceValues host' w' ↔ v ∈ e.sourceValues host w) →
            ((e.ordered .ranked).complete host' w').values
              = ((e.ordered .ranked).complete host w).values :=
  ⟨declares_complete e host w, ranks_complete e host w,
    fun _ _ ht ha h => values_complete_ranked_eq ht ha h⟩

/-- A program with one argument, for which some inks may be chosen. -/
def inkChoosing (inks : List String) : Command :=
  { Command.empty "paint" with actions := [{ Action.operand "ink" with choices := inks }] }

/-- What has been typed where the name of the ink begins with an `r`. -/
def inkTyped (inks : List String) : Walk :=
  .ofLine (inkChoosing inks) "paint r" 7

/-- The ink that has been typed comes first, then the short one; in which order the inks are
    declared, and how often, does not matter. -/
theorem complete_in_order_inkChoosing :
    (inkTyped ["red", "rose", "red", "r"]).word.typed = (inkTyped ["r", "red", "rose"]).word.typed
      ∧ (inkTyped ["red", "rose", "red", "r"]).word.assignment
        = (inkTyped ["r", "red", "rose"]).word.assignment
      ∧ (∀ v, v ∈ sourceValues ⟨.default, none⟩ .bare (inkTyped ["red", "rose", "red", "r"])
        ↔ v ∈ sourceValues ⟨.default, none⟩ .bare (inkTyped ["r", "red", "rose"]))
      ∧ ((ordered ⟨.default, none⟩ .ranked).complete .bare
        (inkTyped ["red", "rose", "red", "r"])).values = ["r", "red", "rose"] := by
  have htyped : (inkTyped ["red", "rose", "red", "r"]).word.typed
      = (inkTyped ["r", "red", "rose"]).word.typed := by decide
  have hassignment : (inkTyped ["red", "rose", "red", "r"]).word.assignment
      = (inkTyped ["r", "red", "rose"]).word.assignment := by decide
  have hsources : sourceValues ⟨.default, none⟩ .bare (inkTyped ["r", "red", "rose"])
      = ["r", "red", "rose"] := by decide
  have hsources' : sourceValues ⟨.default, none⟩ .bare (inkTyped ["red", "rose", "red", "r"])
      = ["red", "rose", "red", "r"] := by decide
  have hsame : ∀ v,
      v ∈ sourceValues ⟨.default, none⟩ .bare (inkTyped ["red", "rose", "red", "r"])
        ↔ v ∈ sourceValues ⟨.default, none⟩ .bare (inkTyped ["r", "red", "rose"]) := by
    intro v
    rw [hsources, hsources']
    grind
  have hranked : ((ordered ⟨.default, none⟩ .ranked).complete .bare
      (inkTyped ["r", "red", "rose"])).values = ["r", "red", "rose"] := by
    rw [values_complete_ranked, List.mergeSort_of_pairwise (by decide)]
    decide
  have hlaw := complete_in_order ⟨.default, none⟩ .bare (inkTyped ["r", "red", "rose"])
  have hanyOrder :=
    hlaw.2.2 .bare (inkTyped ["red", "rose", "red", "r"]) htyped hassignment hsame
  exact ⟨htyped, hassignment, hsame, hanyOrder.trans hranked⟩

end Engine

end TabCompletion
