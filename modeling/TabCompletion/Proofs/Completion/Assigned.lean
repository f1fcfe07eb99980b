import TabCompletion.Proofs.Completion.Sources
import TabCompletion.Proofs.Completion.Tail
import TabCompletion.Proofs.Completion.Values
import TabCompletion.Proofs.Text.Joins
import TabCompletion.Proofs.Walk.Given

/-!
# A value behind an equals sign, and the same value as a word of its own

The value of a flag may stand behind its name and an equals sign, or be the next word. Both are
completed alike: by the same source, with the same warnings, and to the same values in the same
order, but for the name and the equals sign in front of them.

* `Outcome.Prefixed`: an outcome is another one with a text in front of its values;
* `Engine.prefixed_complete`: the assignment in front of the word is all that tells two outcomes
  apart;
* `ParseState.ReadsFlag`: a state reads a word as the name of a flag that takes a value;
* `Completer.IgnoresParsed`: a source does not look at the values of earlier words;
* `assigned_like_separate`: the law.
-/

namespace TabCompletion

open Text Line

/-! ## 1. Outcomes with a text in front -/

/-- The candidate `d` is `c` with a text in front of its value. Whether it is finished is decided
    again, and only for an empty value can that make a difference. -/
structure Candidate.Prefixed (front : String) (c d : Candidate) : Prop where
  details : d = { c.prepend front with finished := d.finished }
  finished : c.value ≠ "" → d.finished = c.finished

/-- The outcome `o'` is `o` with a text in front of its values. -/
structure Outcome.Prefixed (front : String) (o o' : Outcome) : Prop where
  candidates : List.Forall₂ (Candidate.Prefixed front) o.candidates o'.candidates
  warnings : o'.warnings = o.warnings
  wordPrefix : o'.wordPrefix = front ++ o.wordPrefix
  quote : o'.quote = o.quote
  appendSpace : o'.appendSpace = o.appendSpace

/-- The values are the same, in the same order, with the text in front. -/
theorem Outcome.Prefixed.values {front : String} {o o' : Outcome} (h : o.Prefixed front o') :
    o'.values = o.values.map (front ++ ·) := by
  have hall : ∀ {cs ds : List Candidate}, List.Forall₂ (Candidate.Prefixed front) cs ds →
      ds.map (·.value) = (cs.map (·.value)).map (front ++ ·) := by
    intro cs ds hcs
    induction hcs with
    | nil => rfl
    | cons hc _ ih =>
      rw [List.map_cons, List.map_cons, List.map_cons, ih, hc.details]
      rfl
  exact hall h.candidates

namespace Candidate

theorem prepend_empty (c : Candidate) : c.prepend "" = c := by
  unfold prepend
  rw [String.empty_append]

/-- Behind a text a value that is not empty continues if it does so by itself. -/
theorem continues_prepend (front : String) {c : Candidate} (h : c.value ≠ "") :
    (c.prepend front).continues = c.continues := by
  unfold continues prepend
  dsimp only
  rw [endsInAny_append front h]

theorem prefixed_prepend (front : String) (c : Candidate) : c.Prefixed front (c.prepend front) :=
  ⟨rfl, fun _ => rfl⟩

/-- A sole candidate is finished with the text in front as it is without. -/
theorem prefixed_finishSole (front : String) (cs : List Candidate) :
    List.Forall₂ (Prefixed front) (finishSole cs) (finishSole (cs.map (prepend front))) := by
  have hall : List.Forall₂ (Prefixed front) cs (cs.map (prepend front)) :=
    List.forall₂_map_right_iff.mpr (List.forall₂_same.mpr fun c _ => prefixed_prepend front c)
  match cs, hall with
  | [], hall => exact hall
  | [c], _ =>
    refine .cons ⟨rfl, fun hv => ?_⟩ .nil
    exact congrArg not (continues_prepend front hv)
  | _ :: _ :: _, hall => exact hall

end Candidate

/-- **Where the same sources are asked for the same text**, the assignment in front of it is put in
    front of every value. -/
theorem Engine.prefixed_complete {e : Engine} {host : Host} {w w' : Walk} {front : String}
    (hs : e.sourceCandidates host w' = e.sourceCandidates host w)
    (ht : w'.word.typed = w.word.typed) (ha : w.word.assignment = none)
    (ha' : w'.word.assignment = some front) (hq : w'.word.quote = w.word.quote) :
    (e.complete host w).Prefixed front (e.complete host w') := by
  have hempty : Candidate.prepend "" = id := funext Candidate.prepend_empty
  unfold complete
  rw [hs, ht, ha, ha', hq]
  dsimp only
  rw [Option.getD_none, Option.getD_some, hempty, List.map_id, String.empty_append]
  exact ⟨Candidate.prefixed_finishSole front _, rfl, rfl, rfl, rfl⟩

/-! ## 2. The two ways to give a value -/

namespace ParseState

variable {s t : ParseState} {slot : Slot} {n p : String} {q : Quote}

/-- The word `n` is read as the name of the flag in `slot`: flags are matched, no flag needs a
    value, and `n` is one of the names, has more than one character, and no equals sign. The flag
    takes a value. -/
structure ReadsFlag (s : ParseState) (slot : Slot) (n : String) : Prop where
  matching : s.afterTerminator = false
  free : s.mustTakeValue = false
  declared : slot ∈ s.scope.flags
  name : n ∈ slot.action.names
  long : 2 ≤ n.length
  plain : '=' ∉ n.toList
  takesValue : slot.action.arity.takesValue = true

/-- Behind the name and an equals sign the rest of the word is a value of the flag. -/
theorem ReadsFlag.resolve_assigned (h : s.ReadsFlag slot n) (hw : s.scope.WellFormed)
    (p : String) (q : Quote) :
    s.resolve (n ++ "=" ++ p) q = ⟨p, some (n ++ "="), q, .valueOf slot⟩ := by
  have hstarts : s.scope.startsLikeFlag (n ++ "=" ++ p) = true := by
    refine Command.startsLikeFlag_of_prefix (hw.startsLikeFlag_of_mem h.declared h.name) ?_
    rw [String.append_assoc, String.toList_append]
    exact List.prefix_append _ _
  have hinline : inlineFlag? s.scope (n ++ "=" ++ p) = some (slot, n, p) :=
    inlineFlag?_eq_some_iff.mpr ⟨splitOnce_append h.plain p,
      hw.findFlag?_eq h.declared h.name, h.takesValue⟩
  exact resolve_inline (flagPossible_iff.mpr ⟨h.matching, h.free, hstarts⟩) hinline

/-- Behind the name as a word of its own the flag waits for its first value. -/
theorem ReadsFlag.consume_name (h : s.ReadsFlag slot n) (hw : s.scope.WellFormed) :
    (s.consume n).scope = s.scope ∧ (s.consume n).pending = some ⟨slot, 0⟩ := by
  obtain ⟨cursor, count, hc⟩ := s.beforeFlag_eq
  rw [consume_declared h.matching h.free hw h.declared h.name h.long, hc,
    bind_none _ slot h.takesValue]
  exact ⟨rfl, rfl⟩

/-- A flag that waits for its first value gets a word that cannot be a flag, and any word at all if
    it needs one. -/
theorem resolve_waiting (hp : t.pending = some ⟨slot, 0⟩)
    (hv : 1 ≤ slot.action.arity.min ∨ t.scope.startsLikeFlag p = false) (q : Quote) :
    t.resolve p q = ⟨p, none, q, .valueOf slot⟩ := by
  have hno : t.flagPossible p = false := by
    refine Bool.eq_false_iff.mpr fun hf => ?_
    obtain ⟨-, hfree, hstarts⟩ := flagPossible_iff.mp hf
    rcases hv with hmin | hother
    · rw [mustTakeValue_of_pending hp] at hfree
      exact absurd hmin (of_decide_eq_false hfree)
    · rw [hother] at hstarts
      cases hstarts
  have hcontext : t.valueContext = .valueOf slot := by
    unfold valueContext
    rw [hp]
  rw [resolve_impossible hno, hcontext]

end ParseState

/-! ## 3. Sources -/

/-- On this host the source does not look at the values of earlier words. -/
def Completer.IgnoresParsed (host : Host) (source : Completer) : Prop :=
  ∀ (request : CompletionRequest) (parsed : ParsedValues),
    source.complete host { request with parsed } = source.complete host request

/-- Nor does any source of an action without a completer of its own. -/
theorem Action.ignoresParsed_source? {a : Action} (h : a.completer = none) (host : Host) :
    ∀ source, a.source? = some source → source.IgnoresParsed host :=
  fun _ hs _ _ => Action.complete_source?_congr h hs rfl

/-- Two walks to a value of the same action, in scopes of the same name, have the same candidates,
    unless the source looks at earlier values. -/
theorem Engine.valueCandidates_congr {host : Host} {w w' : Walk} {a : Action}
    (hsource : ∀ source, a.source? = some source → source.IgnoresParsed host)
    (ht : w'.word.typed = w.word.typed) (hc : w'.state.scope = w.state.scope) :
    valueCandidates host w' a = valueCandidates host w a := by
  unfold valueCandidates
  cases hs : a.source? with
  | none => rfl
  | some source =>
    have hrequest : request w' a = { request w a with parsed := w'.state.parsed } := by
      unfold request
      rw [ht, hc]
    have hrun : source.run host (request w' a) = source.run host (request w a) := by
      unfold Completer.run
      rw [hrequest, hsource source hs]
    dsimp only
    rw [hrun]

/-! ## 4. The law -/

/-- **`name=value` completes like `name value`.** Whatever words come before, where a name is read
    as that of a flag with a value, the value behind an equals sign is completed as the value in the
    next word is, with the name and the equals sign in front, provided that the next word belongs to
    the flag and that the source does not look at the values of earlier words. -/
theorem assigned_like_separate (root : Command) (hv : root.validate = .ok ()) (program : String)
    (words : List String) {slot : Slot} {n p : String}
    (hn : ((ParseState.start root).consumeAll words).ReadsFlag slot n)
    (hp : 1 ≤ slot.action.arity.min
      ∨ ((ParseState.start root).consumeAll words).scope.startsLikeFlag p = false)
    (e : Engine) (host : Host)
    (hsource : ∀ source, slot.action.source? = some source → source.IgnoresParsed host)
    (q : Quote) :
    (e.complete host (.ofView root ⟨program :: (words ++ [n]), p, q⟩)).Prefixed (n ++ "=")
      (e.complete host (.ofView root ⟨program :: words, n ++ "=" ++ p, q⟩)) := by
  have hscope := (ParseState.sound_run root words).scope
  have hw := (Command.validate_eq_ok_iff root).mp hv _ hscope
  obtain ⟨hsame, hwaits⟩ := hn.consume_name hw
  have hassigned : Walk.ofView root ⟨program :: words, n ++ "=" ++ p, q⟩
      = ⟨(ParseState.start root).consumeAll words, ⟨p, some (n ++ "="), q, .valueOf slot⟩⟩ := by
    unfold Walk.ofView
    dsimp only
    rw [hn.resolve_assigned hw]
  have hseparate : Walk.ofView root ⟨program :: (words ++ [n]), p, q⟩
      = ⟨((ParseState.start root).consumeAll words).consume n, ⟨p, none, q, .valueOf slot⟩⟩ := by
    unfold Walk.ofView
    dsimp only
    rw [ParseState.consumeAll_concat, ParseState.resolve_waiting hwaits (hsame ▸ hp)]
  rw [hassigned, hseparate]
  refine Engine.prefixed_complete ?_ rfl rfl rfl rfl
  exact Engine.valueCandidates_congr hsource rfl hsame.symm

/-- A flag for a format, which may be left out. -/
def exportFormat : Action :=
  { Action.flag ["-f", "--format"] with arity := .optional, choices := ["png", "svg", "pdf"] }

/-- A program with that flag and one for any number of layers. -/
def exporting : Command :=
  { Command.empty "export" with
    actions := [{ Action.flag ["--layers"] with arity := .oneOrMore }, exportFormat] }

/-- Behind `--layers sky`, the word `--format=p` is completed as `p` is behind `--format`. -/
theorem assigned_like_separate_exporting :
    let s := (ParseState.start exporting).consumeAll ["--layers", "sky"]
    exporting.validate = .ok () ∧ s.ReadsFlag ⟨1, exportFormat⟩ "--format"
      ∧ s.scope.startsLikeFlag "p" = false
      ∧ (Engine.complete ⟨.default, none⟩ .bare
        (.ofView exporting ⟨["export", "--layers", "sky"], "--format=p", .none⟩)).values
          = ["--format=png", "--format=pdf"] := by
  intro s
  have hn : s.ReadsFlag ⟨1, exportFormat⟩ "--format" :=
    ⟨rfl, rfl, .tail _ (.head _), by decide, by decide, by decide, rfl⟩
  have h := assigned_like_separate exporting rfl "export" ["--layers", "sky"] (p := "p") hn
    (.inr rfl) ⟨.default, none⟩ .bare (Action.ignoresParsed_source? rfl .bare) .none
  refine ⟨rfl, hn, by decide, h.values.trans ?_⟩
  decide

end TabCompletion
