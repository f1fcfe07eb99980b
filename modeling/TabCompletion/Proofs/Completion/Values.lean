import TabCompletion.Completion.Engine

/-!
# Which values an outcome offers

Between its sources and its outcome the engine filters, drops repeated values, ranks, and puts the
assignment in front. None of this adds a value, and only the filter takes one away:

* `mem_values_complete_iff`: a value is offered iff a source produced it and it matches;
* `mem_values_flagName_iff`: where names of flags are completed, the values offered are the matching
  names of the flags that are still to be offered.
-/

namespace TabCompletion

open Text Line

/-- The values of the candidates, in their order. -/
def Outcome.values (o : Outcome) : List String :=
  o.candidates.map (·.value)

namespace Candidate

theorem map_value_finishSole (cs : List Candidate) :
    (finishSole cs).map (·.value) = cs.map (·.value) := by
  unfold finishSole
  split <;> rfl

theorem distinct_subset (cs : List Candidate) : distinct cs ⊆ cs := by
  induction cs with
  | nil => exact List.Subset.refl _
  | cons c cs ih =>
    intro d hd
    rcases List.mem_cons.mp hd with rfl | hd
    · exact List.mem_cons_self
    · exact List.mem_cons_of_mem _ (ih (List.mem_filter.mp hd).1)

/-- Of the candidates with one value, one stays. -/
theorem exists_mem_distinct {cs : List Candidate} {c : Candidate} (h : c ∈ cs) :
    ∃ d ∈ distinct cs, d.value = c.value := by
  induction cs with
  | nil => cases h
  | cons e cs ih =>
    by_cases hv : c.value = e.value
    · exact ⟨e, List.mem_cons_self, hv.symm⟩
    · have hc : c ∈ cs := by
        refine (List.mem_cons.mp h).resolve_left ?_
        intro he
        subst he
        exact hv rfl
      obtain ⟨d, hd, hdv⟩ := ih hc
      have hde : d.value ≠ e.value := fun he => hv (hdv ▸ he)
      exact ⟨d, List.mem_cons_of_mem _ (List.mem_filter.mpr ⟨hd, by simpa using hde⟩), hdv⟩

end Candidate

namespace Engine

variable {e : Engine} {host : Host} {w : Walk} {v typed : String}

theorem mem_select_iff {cs : List Candidate} :
    (∃ c ∈ e.select typed cs, c.value = v) ↔
      ∃ c ∈ cs, e.accepts c.value typed = true ∧ c.value = v := by
  have hkept : (∃ c ∈ Candidate.distinct (cs.filter fun c => e.accepts c.value typed),
      c.value = v) ↔ ∃ c ∈ cs, e.accepts c.value typed = true ∧ c.value = v := by
    constructor
    · intro h
      obtain ⟨c, hc, hv⟩ := h
      obtain ⟨hm, ha⟩ := List.mem_filter.mp (Candidate.distinct_subset _ hc)
      exact ⟨c, hm, ha, hv⟩
    · intro h
      obtain ⟨c, hm, ha, hv⟩ := h
      have hf : c ∈ cs.filter fun c => e.accepts c.value typed := List.mem_filter.mpr ⟨hm, ha⟩
      obtain ⟨d, hd, hdv⟩ := Candidate.exists_mem_distinct hf
      exact ⟨d, hd, hdv.trans hv⟩
  unfold select
  dsimp only
  split
  · exact hkept
  · simp only [List.mem_mergeSort]
    exact hkept

/-- **A value is offered iff a source produced it and it matches**; the assignment stands in front of
    it. -/
theorem mem_values_complete_iff : v ∈ (e.complete host w).values ↔
    ∃ c ∈ (e.sourceCandidates host w).1, e.accepts c.value w.word.typed = true
      ∧ w.word.assignment.getD "" ++ c.value = v := by
  unfold complete Outcome.values
  dsimp only
  rw [Candidate.map_value_finishSole, List.map_map, List.mem_map]
  constructor
  · intro h
    obtain ⟨d, hd, rfl⟩ := h
    obtain ⟨c, hc, ha, hv⟩ := mem_select_iff.mp ⟨d, hd, rfl⟩
    exact ⟨c, hc, ha, by rw [hv]; rfl⟩
  · intro h
    obtain ⟨c, hc, ha, rfl⟩ := h
    obtain ⟨d, hd, hv⟩ := mem_select_iff.mpr ⟨c, hc, ha, rfl⟩
    exact ⟨d, hd, by rw [← hv]; rfl⟩

/-- A flag's name is a candidate iff the flag is still to be offered and the configuration allows the
    name. -/
theorem mem_flagCandidates_iff {s : ParseState} {admits : String → Bool} :
    (∃ c ∈ e.flagCandidates s admits, c.value = v) ↔
      ∃ slot ∈ s.scope.flags, e.offersFlag s slot = true ∧ v ∈ slot.action.names
        ∧ e.config.allowsFlag v = true ∧ admits v = true := by
  unfold flagCandidates
  simp only [List.mem_flatMap, List.mem_map, List.mem_filter, Bool.and_eq_true]
  constructor
  · intro h
    obtain ⟨c, ⟨slot, ⟨hs, ho⟩, n, ⟨hn, ha, hadm⟩, rfl⟩, rfl⟩ := h
    exact ⟨slot, hs, ho, hn, ha, hadm⟩
  · intro h
    obtain ⟨slot, hs, ho, hn, ha, hadm⟩ := h
    exact ⟨_, ⟨slot, ⟨hs, ho⟩, v, ⟨hn, ha, hadm⟩, rfl⟩, rfl⟩

/-- **Where names of flags are completed**, the values offered are the matching names of the flags
    that are still to be offered. -/
theorem mem_values_flagName_iff {s : ParseState} {q : Quote} :
    v ∈ (e.complete host ⟨s, ⟨typed, none, q, .flagName⟩⟩).values ↔
      ∃ slot ∈ s.scope.flags, e.offersFlag s slot = true ∧ v ∈ slot.action.names
        ∧ e.config.allowsFlag v = true ∧ e.accepts v typed = true := by
  rw [mem_values_complete_iff]
  have hfront : ∀ c : Candidate, (none : Option String).getD "" ++ c.value = c.value :=
    fun c => String.empty_append
  simp only [hfront, sourceCandidates]
  constructor
  · intro h
    obtain ⟨c, hc, ha, rfl⟩ := h
    obtain ⟨slot, hs, ho, hn, hal, -⟩ := mem_flagCandidates_iff.mp ⟨c, hc, rfl⟩
    exact ⟨slot, hs, ho, hn, hal, ha⟩
  · intro h
    obtain ⟨slot, hs, ho, hn, hal, ha⟩ := h
    have hc : ∃ c ∈ e.flagCandidates s (fun _ => true), c.value = v :=
      mem_flagCandidates_iff.mpr ⟨slot, hs, ho, hn, hal, rfl⟩
    obtain ⟨c, hc, rfl⟩ := hc
    exact ⟨c, hc, ha, rfl⟩

end Engine

end TabCompletion
