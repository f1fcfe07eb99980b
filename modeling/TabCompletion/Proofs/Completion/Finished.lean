import TabCompletion.Proofs.Completion.Values
import TabCompletion.Proofs.Walk.Belonging
import TabCompletion.Shell.Answer

/-!
# Which candidates are finished

A finished candidate gets the closing quote and a space. That is meant for a candidate that is left
alone and does not continue, and the engine sees to it when one candidate is left. When several are
left it does not touch their marks: they are what the sources have set.

* `SoleFinished`: only a sole candidate that does not continue is finished, and of several
  candidates none is closed;
* `Engine.KeepsMark`: of several candidates that are left, a source has marked one as finished;
* `Engine.soleFinished_complete_iff`: this is the only way in which `SoleFinished` fails;
* `Command.MarksNone`: no completer of the tree marks its candidates;
* `soleFinished_of_line`: the law for every line.
-/

namespace TabCompletion

open Text Line

/-! ## 1. The law -/

/-- The text of a candidate that gets neither a closing quote nor a space. -/
def ShellRequest.bareItem (r : ShellRequest) (o : Outcome) (c : Candidate) : String :=
  r.shell.render (r.shell.escape (dropBytesOrAll (r.keptBytes o) c.value) o.quote) c.description
    r.descriptionSeparator

theorem ShellRequest.item_of_not_finished {r : ShellRequest} {o : Outcome} {c : Candidate}
    (h : c.finished = false) : r.item o c = r.bareItem o c := by
  unfold ShellRequest.item
  rw [h]
  rfl

/-- A candidate is finished iff it is the only one and does not continue. So in the answer to any
    shell nothing is put behind the values of two or more candidates. -/
structure SoleFinished (o : Outcome) : Prop where
  finished : ∀ c ∈ o.candidates,
    (c.finished = true ↔ o.candidates = [c] ∧ c.continues = false)
  bare : 2 ≤ o.candidates.length → ∀ r : ShellRequest, r.encode o =
    joinWith r.separator (o.candidates.map (r.bareItem o)) ++ r.shell.listTerminator

theorem SoleFinished.of_nil {o : Outcome} (h : o.candidates = []) : SoleFinished o := by
  refine ⟨fun c hc => ?_, fun hlen => ?_⟩
  · rw [h] at hc
    cases hc
  · rw [h] at hlen
    cases hlen

/-- A sole candidate keeps the law if its mark says whether it continues. -/
theorem SoleFinished.of_singleton {o : Outcome} {c : Candidate}
    (h : o.candidates = [{ c with finished := !c.continues }]) : SoleFinished o := by
  refine ⟨fun d hd => ?_, fun hlen => ?_⟩
  · rw [h] at hd ⊢
    obtain rfl := List.mem_singleton.mp hd
    have hcont : ({ c with finished := !c.continues } : Candidate).continues = c.continues := rfl
    rw [hcont]
    simp
  · rw [h] at hlen
    exact absurd hlen (by simp)

/-- Several candidates keep the law if none is finished. -/
theorem SoleFinished.of_several {o : Outcome} (hlen : 2 ≤ o.candidates.length)
    (h : ∀ c ∈ o.candidates, c.finished = false) : SoleFinished o := by
  refine ⟨fun c hc => ⟨fun hf => ?_, fun hs => ?_⟩, fun _ r => ?_⟩
  · rw [h c hc] at hf
    cases hf
  · rw [hs.1] at hlen
    exact absurd hlen (by simp)
  · have hitems : o.candidates.map (r.item o) = o.candidates.map (r.bareItem o) :=
      List.map_congr_left fun c hc => ShellRequest.item_of_not_finished (h c hc)
    unfold ShellRequest.encode
    rw [hitems]

namespace Engine

variable {e : Engine} {host : Host} {w : Walk}

/-! ## 2. Marks that are kept -/

/-- The candidates of the sources that match, each value once. -/
def left (e : Engine) (host : Host) (w : Walk) : List Candidate :=
  e.select w.word.typed (e.sourceCandidates host w).1

/-- Two or more candidates are left, and a source has marked one of them as finished. -/
def KeepsMark (e : Engine) (host : Host) (w : Walk) : Prop :=
  2 ≤ (e.left host w).length ∧ ∃ c ∈ e.left host w, c.finished = true

theorem candidates_complete (e : Engine) (host : Host) (w : Walk) :
    (e.complete host w).candidates = Candidate.finishSole
      ((e.left host w).map (Candidate.prepend (w.word.assignment.getD ""))) := rfl

/-- Several candidates are passed on as they are. -/
theorem candidates_complete_of_several (h : 2 ≤ (e.left host w).length) :
    (e.complete host w).candidates
      = (e.left host w).map (Candidate.prepend (w.word.assignment.getD "")) := by
  rw [candidates_complete]
  match e.left host w, h with
  | _ :: _ :: _, _ => rfl

/-- **The law fails exactly when a mark is kept.** -/
theorem soleFinished_complete_iff (e : Engine) (host : Host) (w : Walk) :
    SoleFinished (e.complete host w) ↔ ¬ e.KeepsMark host w := by
  constructor
  · intro h hk
    obtain ⟨hlen, c, hc, hf⟩ := hk
    have hcs := candidates_complete_of_several hlen
    have hm := List.mem_map_of_mem (f := Candidate.prepend (w.word.assignment.getD "")) hc
    rw [← hcs] at hm
    have hone := congrArg List.length ((h.finished _ hm).mp hf).1
    rw [hcs, List.length_map, List.length_singleton] at hone
    omega
  · intro hk
    cases hl : e.left host w with
    | nil => exact .of_nil (by rw [candidates_complete, hl]; rfl)
    | cons c rest =>
      cases rest with
      | nil =>
        -- the engine sets the mark of the only candidate itself
        exact .of_singleton (by rw [candidates_complete, hl]; rfl)
      | cons d rest =>
        have hlen : 2 ≤ (e.left host w).length := by simp [hl]
        have hcs := candidates_complete_of_several hlen
        refine .of_several (by rw [hcs, List.length_map]; exact hlen) fun b hb => ?_
        rw [hcs] at hb
        obtain ⟨a, ha, rfl⟩ := List.mem_map.mp hb
        exact Bool.eq_false_iff.mpr fun hf => hk ⟨hlen, a, ha, hf⟩

end Engine

/-! ## 3. Sources that set no marks -/

/-- None of the candidates is marked as finished. -/
def Unmarked (cs : List Candidate) : Prop :=
  ∀ c ∈ cs, c.finished = false

theorem unmarked_nil : Unmarked [] :=
  fun _ hc => nomatch hc

theorem unmarked_append {cs ds : List Candidate} (hc : Unmarked cs) (hd : Unmarked ds) :
    Unmarked (cs ++ ds) :=
  List.forall_mem_append.mpr ⟨hc, hd⟩

theorem unmarked_if (b : Bool) {cs : List Candidate} (hc : Unmarked cs) :
    Unmarked (if b then cs else []) := by
  cases b with
  | true => exact hc
  | false => exact unmarked_nil

/-- On this host the completer never marks a candidate as finished. -/
def Completer.MarksNone (host : Host) (c : Completer) : Prop :=
  ∀ (request : CompletionRequest) (cs : List Candidate),
    c.complete host request = .candidates cs → Unmarked cs

/-- No completer that the tree declares ever marks a candidate as finished on this host. -/
def Command.MarksNone (host : Host) (root : Command) : Prop :=
  ∀ c, root.HasScope c → ∀ a ∈ c.actions, ∀ source, a.completer = some source →
    source.MarksNone host

namespace Completer

theorem unmarked_map_plain (values : List String) : Unmarked (values.map .plain) := by
  intro c hc
  obtain ⟨v, -, rfl⟩ := List.mem_map.mp hc
  rfl

theorem marksNone_choices (host : Host) (values : List String) :
    (choices values).MarksNone host := by
  intro request cs h
  cases h
  exact unmarked_map_plain values

theorem marksNone_environ (host : Host) : environ.MarksNone host := by
  intro request cs h
  cases h
  exact unmarked_map_plain _

/-- An entry of a directory is offered unmarked. -/
theorem finished_entryCandidate? {f : PathFilter} {files : FileSystem}
    {dir dirPart namePart name : String} {c : Candidate}
    (h : f.entryCandidate? files dir dirPart namePart name = some c) : c.finished = false := by
  unfold PathFilter.entryCandidate? at h
  split at h
  · cases h
  · split at h
    · cases h
      rfl
    · split at h
      · cases h
        rfl
      · cases h

theorem marksNone_paths (host : Host) (f : PathFilter) : (Completer.paths f).MarksNone host := by
  intro request cs h
  unfold complete PathFilter.paths at h
  dsimp only at h
  split at h
  · rename_i entries _
    cases h
    intro d hd
    obtain ⟨entry, -, he⟩ := List.mem_filterMap.mp (List.mem_mergeSort.mp hd)
    exact finished_entryCandidate? he
  · cases h
    exact unmarked_nil
  · cases h

/-- What a source gives that never marks a candidate. -/
theorem MarksNone.unmarked_run {c : Completer} {host : Host} (h : c.MarksNone host)
    {request : CompletionRequest} {cs : List Candidate} (hr : c.run host request = .ok cs) :
    Unmarked cs := by
  unfold run at hr
  split at hr
  · rename_i hc
    cases hr
    exact h request cs hc
  · cases hr
  · cases hr

end Completer

/-- Choices and hints mark nothing, so that an action's source does only if its completer does. -/
theorem Action.marksNone_source? {host : Host} {a : Action} {source : Completer}
    (h : ∀ c, a.completer = some c → c.MarksNone host) (hs : a.source? = some source) :
    source.MarksNone host := by
  unfold Action.source? at hs
  split at hs
  · rename_i hc
    cases hs
    exact h source hc
  · split at hs
    · cases hs
      exact Completer.marksNone_choices host _
    · split at hs <;> cases hs
      · exact Completer.marksNone_paths host _
      · exact Completer.marksNone_paths host _
      · exact Completer.marksNone_paths host _
      · exact Completer.marksNone_environ host

namespace Engine

variable {e : Engine} {host : Host} {w : Walk}

theorem unmarked_flagCandidates (e : Engine) (s : ParseState) (admits : String → Bool) :
    Unmarked (e.flagCandidates s admits) := by
  intro c hc
  obtain ⟨slot, -, hn⟩ := List.mem_flatMap.mp hc
  obtain ⟨n, -, rfl⟩ := List.mem_map.mp hn
  rfl

theorem unmarked_subcommandCandidates (s : ParseState) : Unmarked (subcommandCandidates s) := by
  intro c hc
  obtain ⟨child, -, hn⟩ := List.mem_flatMap.mp hc
  obtain ⟨n, -, rfl⟩ := List.mem_map.mp hn
  rfl

theorem unmarked_valueCandidates {a : Action} (h : ∀ c, a.completer = some c → c.MarksNone host) :
    Unmarked (valueCandidates host w a).1 := by
  unfold valueCandidates
  split
  · exact unmarked_nil
  · rename_i source hs
    split
    · rename_i cs hr
      exact (Action.marksNone_source? h hs).unmarked_run hr
    · exact unmarked_nil

theorem unmarked_positionalCandidates {next : Option Slot} {subcommands : Bool}
    (h : ∀ slot, next = some slot → ∀ c, slot.action.completer = some c → c.MarksNone host) :
    Unmarked (e.positionalCandidates host w next subcommands).1 := by
  have hnames := unmarked_if subcommands (unmarked_subcommandCandidates w.state)
  have hflags := fun b : Bool =>
    unmarked_if b (unmarked_flagCandidates e w.state e.config.optionCompletion.admits)
  unfold positionalCandidates
  cases next with
  | none => exact unmarked_append (unmarked_append hnames unmarked_nil) (hflags _)
  | some slot =>
    -- sub-commands that match may hide the values
    have hvalues : ∀ skip : Bool, Unmarked
        (if skip then (([], []) : List Candidate × List String)
          else valueCandidates host w slot.action).1 := by
      intro skip
      cases skip with
      | true => exact unmarked_nil
      | false => exact unmarked_valueCandidates (h slot rfl)
    exact unmarked_append (unmarked_append hnames (hvalues _)) (hflags _)

/-- **Where the completers mark none of their candidates, no source does.** -/
theorem unmarked_sourceCandidates {root : Command} (hr : root.MarksNone host) (hw : w.Belongs root) :
    Unmarked (e.sourceCandidates host w).1 := by
  have hvalue : ∀ a, w.word.context.valueAction? = some a →
      ∀ c, a.completer = some c → c.MarksNone host :=
    fun a ha => hr w.state.scope hw.scope a (hw.action a ha)
  unfold sourceCandidates
  split
  · exact unmarked_nil
  · exact unmarked_flagCandidates e w.state _
  · rename_i slot hc
    exact unmarked_valueCandidates (hvalue slot.action (by rw [hc]; rfl))
  · rename_i next subcommands hc
    refine unmarked_positionalCandidates fun slot hs => hvalue slot.action ?_
    rw [hc, hs]
    rfl

theorem mem_of_mem_select {typed : String} {cs : List Candidate} {c : Candidate}
    (h : c ∈ e.select typed cs) : c ∈ cs := by
  have hkept : c ∈ Candidate.distinct (cs.filter fun c => e.accepts c.value typed) := by
    unfold select at h
    dsimp only at h
    split at h
    · exact h
    · exact List.mem_mergeSort.mp h
  exact (List.mem_filter.mp (Candidate.distinct_subset _ hkept)).1

/-- No mark is kept where none is set. -/
theorem not_keepsMark {root : Command} (hr : root.MarksNone host) (hw : w.Belongs root) :
    ¬ e.KeepsMark host w := by
  intro hk
  obtain ⟨-, c, hc, hf⟩ := hk
  rw [unmarked_sourceCandidates hr hw c (mem_of_mem_select hc)] at hf
  cases hf

end Engine

/-! ## 4. Every line -/

/-- **Only a sole candidate that does not continue is finished, and of several candidates none is
    closed**, for every line, unless a completer's own mark stays on one of several candidates; this
    never happens if the completers of the tree set no marks. -/
theorem soleFinished_of_line (e : Engine) (host : Host) (root : Command) (line : String)
    (cursor : Nat) :
    (SoleFinished (e.completeLine host root line cursor)
        ↔ ¬ e.KeepsMark host (.ofLine root line cursor))
      ∧ (root.MarksNone host → SoleFinished (e.completeLine host root line cursor)) := by
  have hiff := e.soleFinished_complete_iff host (.ofLine root line cursor)
  exact ⟨hiff, fun hr => hiff.mpr (Engine.not_keepsMark hr (Walk.belongs_ofTokens root _))⟩

/-- A program for which a completer of its own names inks. -/
def inkPainting : Command :=
  { Command.empty "paint" with
    actions := [{ Action.operand "ink" with completer := some (.custom "inks" 0) }] }

/-- A host on which that completer names two inks, marked as finished or not. -/
def inkHost (finished : Bool) : Host :=
  { Host.bare with
    answers := fun _ _ => .candidates
      [{ Candidate.plain "red" with finished }, { Candidate.plain "rose" with finished }] }

theorem inkPainting_marksNone : inkPainting.MarksNone (inkHost false) := by
  intro c h a ha source hs
  cases h with
  | self =>
    obtain rfl := List.mem_singleton.mp ha
    cases hs
    intro request cs hcs
    cases hcs
    unfold Unmarked
    decide
  | under hc _ => cases hc

/-- Without marks of their own, Bash gets the two inks with nothing behind them. -/
theorem soleFinished_of_inkPainting : inkPainting.MarksNone (inkHost false)
    ∧ (ShellRequest.byHand .bash "paint r" 7).encode
        (Engine.completeLine ⟨.default, none⟩ (inkHost false) inkPainting "paint r" 7)
          = "red\x0brose" := by
  have h := (soleFinished_of_line ⟨.default, none⟩ (inkHost false) inkPainting "paint r" 7).2
    inkPainting_marksNone
  refine ⟨inkPainting_marksNone, ?_⟩
  rw [h.bare (by decide)]
  decide

/-- **A completer that marks its candidates breaks the law**: both inks stay finished. -/
theorem not_always_soleFinished : ¬ ∀ (e : Engine) (host : Host) (root : Command) (line : String)
    (cursor : Nat), SoleFinished (e.completeLine host root line cursor) := by
  intro h
  have hlaw := h ⟨.default, none⟩ (inkHost true) inkPainting "paint r" 7
  have hred := hlaw.finished { Candidate.plain "red" with finished := true } (by decide)
  exact absurd (hred.mp rfl).1 (by decide)

end TabCompletion
