import Mathlib.Data.List.Flatten
import TabCompletion.Proofs.Completion.Ordered
import TabCompletion.Proofs.Walk.Given
import TabCompletion.Proofs.Walk.Reachable

/-!
# Which names of flags are offered

Where the word under the cursor is the name of a flag, the engine lists the names of the scope that
has been reached. Which of them it leaves out is a matter of the whole line: a flag is not offered
again once a word has given it, unless it may be repeated or the word came before the scope was
entered.

* `Walk.wordsBefore`: the words of a line that are read before the one under the cursor;
* `Engine.Offerable`: what makes a name one to offer, said by these words;
* `OffersFlags`: a list of exactly these names, each once, as they are declared;
* `flags_offered_on_line`: this is what is offered, for every line and cursor.
-/

namespace TabCompletion

open Text Line

/-! ## 1. The walk to the word under the cursor -/

namespace Walk

/-- The words that are read before the one under the cursor, without the name of the program. -/
def wordsBefore (ts : List Token) : List String :=
  match splitActive? ts with
  | some (_ :: before, _) => before.map (·.text)
  | _ => []

theorem ofTokens_state (root : Command) (ts : List Token) :
    (ofTokens root ts).state = (ParseState.start root).consumeAll (wordsBefore ts) := by
  unfold ofTokens wordsBefore
  dsimp only
  split <;> simp_all [ParseState.consumeAll]

/-- The name of a flag is completed from the whole word. -/
theorem ofTokens_of_flagName {root : Command} {ts : List Token}
    (h : (ofTokens root ts).word.context = .flagName) :
    ofTokens root ts = ⟨(ofTokens root ts).state, ⟨(ofTokens root ts).word.typed, none,
      (ofTokens root ts).word.quote, .flagName⟩⟩ := by
  unfold ofTokens at h ⊢
  dsimp only at h ⊢
  split at h
  · cases h
  · cases h
  · dsimp only at h ⊢
    rw [ParseState.resolve_of_flagName h]

end Walk

/-! ## 2. Names to offer -/

/-- **A name to offer**: it goes on from what has been typed, is not excluded, and belongs to a flag of
    the scope that may be repeated or has not been given since the scope was entered, and that is not
    hidden, unless hidden ones are asked for. -/
structure Engine.Offerable (e : Engine) (root : Command) (words : List String) (scope : Command)
    (typed name : String) : Prop where
  begins : typed.toList <+: name.toList
  allowed : name ∉ e.config.exclude
  flag : ∃ slot ∈ scope.flags, name ∈ slot.action.names
    ∧ (slot.action.repeatable = true ∨ ¬ ParseState.GivenSince root words slot)
    ∧ (slot.action.hidden = true → e.config.printHidden = true)

/-- The values offered are exactly the names to offer, each once and in the order of their
    declaration. -/
structure OffersFlags (e : Engine) (root : Command) (words : List String) (scope : Command)
    (typed : String) (offered : List String) : Prop where
  order : offered.Sublist scope.flagNames
  once : offered.Nodup
  exactly : ∀ name, name ∈ offered ↔ e.Offerable root words scope typed name

namespace Candidate

theorem distinct_sublist (cs : List Candidate) : (distinct cs).Sublist cs := by
  induction cs with
  | nil => exact .slnil
  | cons c cs ih => exact (List.filter_sublist.trans ih).cons_cons c

end Candidate

namespace Engine

variable {e : Engine} {host : Host} {s : ParseState} {typed : String} {q : Quote}

/-- In declared order the values are the ones that are kept. -/
theorem values_complete_of_declared (ho : e.config.order = .declared) :
    (e.complete host ⟨s, ⟨typed, none, q, .flagName⟩⟩).values
      = (e.kept host ⟨s, ⟨typed, none, q, .flagName⟩⟩).map (·.value) := by
  rw [values_complete]
  unfold select kept
  dsimp only
  rw [ho, Option.getD_none]
  have hfront : (fun v : String => "" ++ v) = id := funext fun _ => String.empty_append
  rw [hfront, List.map_id]

/-- Names are offered in the order in which the scope declares them. -/
theorem kept_sublist_flagNames : ((e.kept host ⟨s, ⟨typed, none, q, .flagName⟩⟩).map
    (·.value)).Sublist s.scope.flagNames := by
  have hkept : (e.kept host ⟨s, ⟨typed, none, q, .flagName⟩⟩).Sublist
      (e.flagCandidates s fun _ => true) :=
    (Candidate.distinct_sublist _).trans List.filter_sublist
  refine (hkept.map _).trans ?_
  rw [map_value_flagCandidates, Command.flagNames_eq]
  exact (List.Sublist.flatMap_right _ fun _ _ => List.filter_sublist).trans
    (List.filter_sublist.flatMap _)

/-- A flag is to be offered if it may be repeated or has not been given, and is not hidden. -/
theorem offersFlag_iff {slot : Slot} : e.offersFlag s slot = true ↔
    (slot.action.repeatable = true ∨ s.isSatisfied slot.index ≠ true)
      ∧ (slot.action.hidden = true → e.config.printHidden = true) := by
  unfold offersFlag
  cases slot.action.repeatable <;> cases s.isSatisfied slot.index <;> cases slot.action.hidden <;>
    simp

end Engine

namespace ParseState

variable {root : Command} {words : List String} {typed : String} {q : Quote}

/-- After a run, the values offered for the name of a flag are exactly the names to offer. -/
theorem offersFlags_run (hroot : ∀ c, root.HasScope c → c.WellFormed) {e : Engine}
    (ho : e.config.order = .declared) (he : e.validator = none) (host : Host) :
    OffersFlags e root words ((start root).consumeAll words).scope typed
      (e.complete host ⟨(start root).consumeAll words, ⟨typed, none, q, .flagName⟩⟩).values := by
  refine ⟨?_, ?_, fun name => ?_⟩
  · rw [Engine.values_complete_of_declared ho]
    exact Engine.kept_sublist_flagNames
  · rw [Engine.values_complete_of_declared ho]
    exact Engine.nodup_map_value_kept _ _ _
  · have haccepts : e.accepts name typed = true ↔ typed.toList <+: name.toList := by
      unfold Engine.accepts
      rw [he]
      exact startsWith_iff
    have hallows : e.config.allowsFlag name = true ↔ name ∉ e.config.exclude := by
      simp [Config.allowsFlag]
    rw [Engine.mem_values_flagName_iff, haccepts, hallows]
    constructor
    · intro h
      obtain ⟨slot, hs, hoff, hn, hallowed, hbegins⟩ := h
      obtain ⟨hopen, hshown⟩ := Engine.offersFlag_iff.mp hoff
      rw [ne_eq, isSatisfied_iff_givenSince hroot hs] at hopen
      exact ⟨hbegins, hallowed, slot, hs, hn, hopen, hshown⟩
    · intro h
      obtain ⟨slot, hs, hn, hopen, hshown⟩ := h.flag
      rw [← isSatisfied_iff_givenSince hroot hs] at hopen
      exact ⟨slot, hs, Engine.offersFlag_iff.mpr ⟨hopen, hshown⟩, hn, h.allowed, h.begins⟩

end ParseState

/-! ## 3. Every line -/

/-- **Exactly the right flags are offered**, for every line and cursor at which the name of a flag is
    completed in declared order: the names of the one scope that the path leads to, as far as they go
    on from what has been typed, are not excluded or hidden, and belong to a flag that may be repeated
    or that no word has given since that scope was entered. -/
theorem flags_offered_on_line (root : Command) (hv : root.validate = .ok ()) (e : Engine)
    (ho : e.config.order = .declared) (he : e.validator = none) (host : Host) (line : String)
    (cursor : Nat) (h : (Walk.ofLine root line cursor).word.context = .flagName) :
    let w := Walk.ofLine root line cursor
    (∃ names, w.state.commandPath = root.name :: names
        ∧ ∀ c, root.LeadsTo names c ↔ c = w.state.scope)
      ∧ OffersFlags e root (Walk.wordsBefore (tokens line cursor)) w.state.scope w.word.typed
        (e.completeLine host root line cursor).values := by
  intro w
  have hroot := (Command.validate_eq_ok_iff root).mp hv
  have hstate : w.state = (ParseState.start root).consumeAll (Walk.wordsBefore (tokens line cursor)) :=
    Walk.ofTokens_state root _
  have hwalk : w = ⟨w.state, ⟨w.word.typed, none, w.word.quote, .flagName⟩⟩ :=
    Walk.ofTokens_of_flagName h
  constructor
  · obtain ⟨names, hpath, hleads⟩ :=
      (ParseState.consistent_run root (Walk.wordsBefore (tokens line cursor))).path
    rw [← hstate] at hpath hleads
    refine ⟨names, hpath, fun c => ⟨fun hc => hc.unique hroot hleads, ?_⟩⟩
    rintro rfl
    exact hleads
  · have hcomplete : e.completeLine host root line cursor
        = e.complete host ⟨w.state, ⟨w.word.typed, none, w.word.quote, .flagName⟩⟩ := by
      rw [← hwalk]
      rfl
    rw [hcomplete, hstate]
    exact ParseState.offersFlags_run hroot ho he host

/-- A program with a flag that one of its two sub-commands declares too. -/
def shipping : Command :=
  { Command.empty "ship" with
    actions := [Action.flag ["--quiet"]]
    subcommands := [{ Command.empty "build" with actions := [Action.flag ["--release"]] },
      { Command.empty "deploy" with
        actions := [{ Action.flag ["--env"] with arity := .one }, Action.flag ["-q", "--quiet"]] }] }

/-- `--quiet` in front of `deploy` leaves that flag open behind it, and `--env=x` closes the other one.
    -/
theorem flags_offered_shipping :
    shipping.validate = .ok ()
      ∧ (Walk.ofLine shipping "ship --quiet deploy --env=x -" 29).word.context = .flagName
      ∧ OffersFlags ⟨.default, none⟩ shipping ["--quiet", "deploy", "--env=x"]
        (Walk.ofLine shipping "ship --quiet deploy --env=x -" 29).state.scope "-"
        ["-q", "--quiet"] := by
  have hflag : (Walk.ofLine shipping "ship --quiet deploy --env=x -" 29).word.context = .flagName := by
    rfl
  have hlaw := (flags_offered_on_line shipping rfl ⟨.default, none⟩ rfl rfl .bare
    "ship --quiet deploy --env=x -" 29 hflag).2
  have hwords : Walk.wordsBefore (tokens "ship --quiet deploy --env=x -" 29)
      = ["--quiet", "deploy", "--env=x"] := by decide
  have htyped : (Walk.ofLine shipping "ship --quiet deploy --env=x -" 29).word.typed = "-" := by
    decide
  have hvalues : (Engine.completeLine ⟨.default, none⟩ .bare shipping
      "ship --quiet deploy --env=x -" 29).values = ["-q", "--quiet"] := by decide
  rw [hwords, htyped, hvalues] at hlaw
  exact ⟨rfl, hflag, hlaw⟩

end TabCompletion
