import TabCompletion.Proofs.Walk.Occurrence
import TabCompletion.Proofs.Walk.Prediction

/-!
# How the positionals are filled

The words that are left to the positionals of a scope are handed out in blocks: each positional gets
its block before the next one gets any word, and what is left over is dropped. A block ends when
the positional is full, or when a flag closes it, which takes a number of words that it permits.

* `seek_spec`, `fillPositional_cases`: what one word does, with what holds on the way carried along;
* `handed`, `handedOut`: the words that positionals were given since the scope was entered;
* `Allotted`: these words, cut into blocks;
* `Filled`: the invariant, kept by every event;
* `Receives`, `nextPositional?_eq_some_iff`: the positional that a word would go to;
* `positionals_fill_in_order`: the blocks after every run.
-/

namespace TabCompletion

namespace ParseState

variable {s : ParseState} {w : String}

/-! ## 1. Looking for the next positional -/

/-- Where the search for a positional ends, starting at place `i` of `all` with `n` words there: at
    one that takes another word, or behind the last one. What holds at the start also holds there,
    if it goes on from a full positional to the next one. -/
theorem seek_spec {all : List Slot} {P : Nat → Nat → Prop}
    (hskip : ∀ i n slot, all[i]? = some slot → slot.action.arity.acceptsMore n = false →
      P i n → P (i + 1) 0) {i n : Nat} (h : P i n) :
    ∃ i' n' target, seek i n (all.drop i) = (i', n', target) ∧ P i' n'
      ∧ ((∃ slot, target = some slot ∧ all[i']? = some slot
          ∧ slot.action.arity.acceptsMore n' = true)
        ∨ (target = none ∧ all.length ≤ i')) := by
  generalize hrest : all.drop i = rest
  induction rest generalizing i n with
  | nil => exact ⟨i, n, none, rfl, h, .inr ⟨rfl, List.drop_eq_nil_iff.mp hrest⟩⟩
  | cons slot rest ih =>
    have hslot : all[i]? = some slot := by
      rw [← List.head?_drop, hrest]
      rfl
    have htail : all.drop (i + 1) = rest := by
      rw [← List.tail_drop, hrest]
      rfl
    unfold seek
    cases hm : slot.action.arity.acceptsMore n with
    | true => exact ⟨i, n, some slot, rfl, h, .inl ⟨slot, rfl, hslot, hm⟩⟩
    | false => exact ih (hskip i n slot hslot hm h) htail

/-- What a word does that is left to the positionals, when the search ends at place `i` with `n`
    words there. Either it is recorded for the positional there, which is left behind if it is full
    now, or it is dropped behind the last one. -/
inductive Fills (s : ParseState) (w : String) (i n : Nat) : Prop where
  | recorded {slot : Slot} (hnext : s.nextPositional? = some slot)
      (hslot : s.scope.positionals[i]? = some slot)
      (hmore : slot.action.arity.acceptsMore n = true)
      (hfill : s.fillPositional w = if slot.action.arity.acceptsMore (n + 1) then
          { s.record slot.action w with positionalCursor := i, positionalCount := n + 1 }
        else { s.record slot.action w with positionalCursor := i + 1, positionalCount := 0 })
  | dropped (hnext : s.nextPositional? = none) (hend : s.scope.positionals.length ≤ i)
      (hfill : s.fillPositional w = { s with positionalCursor := i, positionalCount := n })

/-- **Every word that is left to the positionals is recorded or dropped**, where the search for the
    next positional has ended. -/
theorem fillPositional_cases {P : Nat → Nat → Prop}
    (hskip : ∀ i n slot, s.scope.positionals[i]? = some slot →
      slot.action.arity.acceptsMore n = false → P i n → P (i + 1) 0)
    (h : P s.positionalCursor s.positionalCount) (w : String) :
    ∃ i n, P i n ∧ s.Fills w i n := by
  obtain ⟨i, n, target, hseek, hP, hend⟩ := seek_spec hskip h
  have hs : s.seekPositional = (i, n, target) := hseek
  have hnext : s.nextPositional? = target := congrArg (·.2.2) hs
  refine ⟨i, n, hP, ?_⟩
  rcases hend with ⟨slot, rfl, hslot, hmore⟩ | ⟨rfl, hlen⟩
  · refine .recorded hnext hslot hmore ?_
    unfold fillPositional
    rw [hs]
  · refine .dropped hnext hlen ?_
    unfold fillPositional
    rw [hs]

/-! ## 2. Words handed out -/

/-- Note an event in the list of words that were left to the positionals of the scope, each with the
    positional that it was recorded for, if any. -/
def handed (words : List (String × Option Slot)) : Event → List (String × Option Slot)
  | .fill target word => words ++ [(word, target)]
  | .enter _ _ => []
  | _ => words

/-- The words that were left to the positionals since the scope was entered in which the reading of
    `words` ends. -/
def handedOut (root : Command) (words : List String) : List (String × Option Slot) :=
  ((start root).history words).foldl handed []

/-- The words of a block, with their positional. -/
def handedTo (slot : Slot) (block : List String) : List (String × Option Slot) :=
  block.map (·, some slot)

/-- **Words handed out in blocks** to the positionals `ps`, in their order. Those in front of the
    place `cursor` have the blocks `closed`, the one at that place has the `count` words of
    `current`, and words are dropped only behind the last positional. -/
structure Allotted (ps : List Slot) (cursor count : Nat) (words : List (String × Option Slot))
    (closed : List (List String)) (current dropped : List String) : Prop where
  cut : words = (List.zipWith handedTo (ps.take cursor) closed).flatten
    ++ current.map (·, ps[cursor]?) ++ dropped.map (·, none)
  inside : cursor ≤ ps.length
  permitted : List.Forall₂ (fun slot block => slot.action.arity.Permits block.length)
    (ps.take cursor) closed
  counted : current.length = count
  recipient : current ≠ [] → cursor < ps.length
  surplus : dropped ≠ [] → cursor = ps.length

section Blocks

variable {ps : List Slot} {cursor count : Nat} {words : List (String × Option Slot)}
  {closed : List (List String)} {current dropped : List String}

theorem allotted_nil (ps : List Slot) : Allotted ps 0 0 [] [] [] [] where
  cut := rfl
  inside := Nat.zero_le _
  permitted := .nil
  counted := rfl
  recipient := fun h => absurd rfl h
  surplus := fun h => absurd rfl h

/-- In front of the end nothing has been dropped. -/
theorem Allotted.dropped_eq_nil (h : Allotted ps cursor count words closed current dropped)
    {slot : Slot} (hs : ps[cursor]? = some slot) : dropped = [] := by
  by_contra hd
  have hlt := (List.getElem?_eq_some_iff.mp hs).1
  have hend := h.surplus hd
  omega

/-- The next block begins when the current one has a number of words that is permitted. -/
theorem Allotted.advance (h : Allotted ps cursor count words closed current dropped) {slot : Slot}
    (hs : ps[cursor]? = some slot) (hc : slot.action.arity.Permits count) :
    Allotted ps (cursor + 1) 0 words (closed ++ [current]) [] [] := by
  have htake : ps.take (cursor + 1) = ps.take cursor ++ [slot] := by
    rw [List.take_add_one, hs]
    rfl
  have hblock : slot.action.arity.Permits current.length := by
    rw [h.counted]
    exact hc
  refine {
    cut := ?_
    inside := (List.getElem?_eq_some_iff.mp hs).1
    permitted := ?_
    counted := rfl
    recipient := fun hne => absurd rfl hne
    surplus := fun hne => absurd rfl hne }
  · rw [h.cut, h.dropped_eq_nil hs, htake, List.zipWith_append h.permitted.length_eq, hs]
    simp [handedTo]
  · rw [htake]
    exact List.rel_append h.permitted (.cons hblock .nil)

/-- A word is handed to the positional at the cursor. -/
theorem Allotted.put (h : Allotted ps cursor count words closed current dropped) {slot : Slot}
    (hs : ps[cursor]? = some slot) (w : String) :
    Allotted ps cursor (count + 1) (words ++ [(w, some slot)]) closed (current ++ [w]) [] where
  cut := by
    rw [h.cut, h.dropped_eq_nil hs, hs]
    simp
  inside := h.inside
  permitted := h.permitted
  counted := by simp [h.counted]
  recipient := fun _ => (List.getElem?_eq_some_iff.mp hs).1
  surplus := fun hne => absurd rfl hne

/-- Behind the last positional a word is dropped. -/
theorem Allotted.drop (h : Allotted ps cursor count words closed current dropped)
    (hend : ps.length ≤ cursor) (w : String) :
    Allotted ps cursor count (words ++ [(w, none)]) closed current (dropped ++ [w]) where
  cut := by
    rw [h.cut]
    simp
  inside := h.inside
  permitted := h.permitted
  counted := h.counted
  recipient := h.recipient
  surplus := fun _ => Nat.le_antisymm h.inside hend

/-- The words are handed out in blocks, and a positional that has words, but is not left behind yet,
    takes another one. -/
structure FilledTo (ps : List Slot) (cursor count : Nat) (words : List (String × Option Slot)) :
    Prop where
  blocks : ∃ closed current dropped, Allotted ps cursor count words closed current dropped
  room : 0 < count → ∃ slot, ps[cursor]? = some slot
    ∧ slot.action.arity.acceptsMore count = true

/-- A place that has no words yet needs the blocks only. -/
theorem Allotted.filledTo (h : Allotted ps cursor 0 words closed current dropped) :
    FilledTo ps cursor 0 words :=
  ⟨⟨closed, current, dropped, h⟩, fun hpos => absurd hpos (Nat.lt_irrefl 0)⟩

/-- The search for the next positional goes on from a full one; it takes no words at all. -/
theorem FilledTo.skip (h : FilledTo ps cursor count words) {slot : Slot}
    (hs : ps[cursor]? = some slot) (hfull : slot.action.arity.acceptsMore count = false) :
    FilledTo ps (cursor + 1) 0 words := by
  obtain ⟨closed, current, dropped, ha⟩ := h.blocks
  have hzero : count = 0 := by
    by_contra hne
    obtain ⟨other, hother, hmore⟩ := h.room (Nat.pos_of_ne_zero hne)
    obtain rfl : slot = other := Option.some.inj (hs.symm.trans hother)
    exact nomatch hfull.symm.trans hmore
  subst hzero
  exact (ha.advance hs (Arity.permits_zero hfull)).filledTo

/-- A word for the positional at the cursor, which is left behind when it is full. -/
theorem FilledTo.put (h : FilledTo ps cursor count words) {slot : Slot}
    (hs : ps[cursor]? = some slot) (hmore : slot.action.arity.acceptsMore count = true)
    (w : String) :
    if slot.action.arity.acceptsMore (count + 1) then
      FilledTo ps cursor (count + 1) (words ++ [(w, some slot)])
    else FilledTo ps (cursor + 1) 0 (words ++ [(w, some slot)]) := by
  obtain ⟨closed, current, dropped, ha⟩ := h.blocks
  have hput := ha.put hs w
  split
  · rename_i hm
    exact ⟨⟨_, _, _, hput⟩, fun _ => ⟨slot, hs, hm⟩⟩
  · rename_i hm
    have hfull := Arity.permits_of_filled hmore (Bool.eq_false_iff.mpr hm)
    exact (hput.advance hs hfull).filledTo

end Blocks

/-! ## 3. The invariant -/

/-- **The words that were handed out fill the positionals** up to the place of the state. -/
def Filled (words : List (String × Option Slot)) (s : ParseState) : Prop :=
  FilledTo s.scope.positionals s.positionalCursor s.positionalCount words

section Invariant

variable {words : List (String × Option Slot)}

/-- A flag closes a positional only when its block is long enough. -/
theorem Filled.close (h : Filled words s) : Filled words s.closePositional := by
  unfold closePositional
  split
  · exact h
  · rename_i hcount
    obtain ⟨slot, hslot, hmore⟩ := h.room (Nat.pos_of_ne_zero hcount)
    obtain ⟨closed, current, dropped, ha⟩ := h.blocks
    rw [hslot]
    dsimp only
    split
    · rename_i hmin
      exact (ha.advance hslot (Arity.permits_of_enough hmin hmore)).filledTo
    · exact h

/-- A word goes to the end of the current block, begins a later one, or is dropped. -/
theorem Filled.fill (h : Filled words s) (w : String) :
    Filled (words ++ [(w, s.nextPositional?)]) (s.fillPositional w) := by
  obtain ⟨i, n, hi, hend⟩ := fillPositional_cases
    (P := fun i n => FilledTo s.scope.positionals i n words)
    (fun _ _ _ hslot hfull hi => hi.skip hslot hfull) h w
  cases hend with
  | @recorded slot hnext hslot hmore hfill =>
    have hput := hi.put hslot hmore w
    rw [hnext, hfill]
    split at hput
    · rename_i hm
      rw [if_pos hm]
      exact hput
    · rename_i hm
      rw [if_neg hm]
      exact hput
  | dropped hnext hlen hfill =>
    obtain ⟨closed, current, dropped, ha⟩ := hi.blocks
    rw [hnext, hfill]
    exact ⟨⟨_, _, _, ha.drop hlen w⟩, hi.room⟩

/-- **Every event keeps the blocks.** -/
theorem filled_after {e : Event} (h : Filled words s) (he : s.Happens e) :
    Filled (handed words e) (s.after e) := by
  cases he with
  | feed => exact h
  | release => exact h
  | stopFlags => exact h
  | close => exact h.close
  | @bind slot v =>
    obtain ⟨pending, parsed, hb⟩ := s.bind_eq slot v
    show Filled words (s.bind slot v)
    rw [hb]
    exact h
  | @enter place child => exact (allotted_nil child.positionals).filledTo
  | @fill w => exact h.fill w

end Invariant

/-- After every run the words fill the positionals. -/
theorem filled_run (root : Command) (words : List String) :
    Filled (handedOut root words) ((start root).consumeAll words) := by
  refine keep_run (P := fun past s => Filled (past.foldl handed []) s) root
    (allotted_nil root.positionals).filledTo (fun past s e h he => ?_) words
  rw [List.foldl_append]
  exact filled_after h he

/-! ## 4. The next positional -/

/-- The word `w`, given to the positionals, goes to the one in `slot`: it is recorded for it, and
    the next word finds either this positional with a word in it, or the place behind it, untouched.
    -/
structure Receives (s : ParseState) (slot : Slot) (w : String) : Prop where
  recorded : Gains s (s.fillPositional w) slot.action.dest w
  place : ∃ i, s.scope.positionals[i]? = some slot ∧ s.positionalCursor ≤ i
    ∧ (((s.fillPositional w).positionalCursor = i ∧ 0 < (s.fillPositional w).positionalCount)
      ∨ ((s.fillPositional w).positionalCursor = i + 1
        ∧ (s.fillPositional w).positionalCount = 0))

/-- The positional that is announced receives the word. -/
theorem receives_of_nextPositional? {slot : Slot} (h : s.nextPositional? = some slot)
    (w : String) : s.Receives slot w := by
  -- the search never goes back
  obtain ⟨i, n, hle, hend⟩ := fillPositional_cases (P := fun i _ => s.positionalCursor ≤ i)
    (fun _ _ _ _ _ hle => Nat.le_succ_of_le hle) (Nat.le_refl _) w
  cases hend with
  | dropped hnext => exact nomatch h.symm.trans hnext
  | @recorded slot' hnext hslot hmore hfill =>
    obtain rfl : slot = slot' := Option.some.inj (h.symm.trans hnext)
    cases hm : slot.action.arity.acceptsMore (n + 1) with
    | true =>
      rw [hm, if_pos rfl] at hfill
      exact ⟨gains_of_record (by rw [hfill]; rfl), i, hslot, hle,
        .inl ⟨by rw [hfill], by rw [hfill]; exact Nat.succ_pos n⟩⟩
    | false =>
      rw [hm, if_neg Bool.false_ne_true] at hfill
      exact ⟨gains_of_record (by rw [hfill]; rfl), i, hslot, hle,
        .inr ⟨by rw [hfill], by rw [hfill]⟩⟩

/-- A destination that gains a value does not stay as it is. -/
theorem parsed_ne_of_gains {t : ParseState} {dest value : String} (h : Gains s t dest value) :
    t.parsed ≠ s.parsed := by
  intro he
  have hd := h dest
  rw [he, if_pos rfl] at hd
  have hlen := congrArg (fun found : Option (List String) => (found.getD []).length) hd
  simp at hlen

/-- A word goes to one place only. -/
theorem Receives.unique {slot slot' : Slot} (h : s.Receives slot w) (h' : s.Receives slot' w) :
    slot = slot' := by
  obtain ⟨i, hslot, -, hplace⟩ := h.place
  obtain ⟨j, hslot', -, hplace'⟩ := h'.place
  have hij : i = j := by omega
  subst hij
  exact Option.some.inj (hslot.symm.trans hslot')

/-- No word is recorded when no positional is announced. -/
theorem parsed_fillPositional_of_none (h : s.nextPositional? = none) (w : String) :
    (s.fillPositional w).parsed = s.parsed := by
  obtain ⟨cursor, count, hf⟩ := s.fillPositional_eq w
  rw [hf, h]

/-- **The positional that is announced is exactly the one that receives the next word.** -/
theorem nextPositional?_eq_some_iff {slot : Slot} (w : String) :
    s.nextPositional? = some slot ↔ s.Receives slot w := by
  constructor
  · exact fun h => receives_of_nextPositional? h w
  · intro h
    cases hn : s.nextPositional? with
    | none => exact absurd (parsed_fillPositional_of_none hn w) (parsed_ne_of_gains h.recorded)
    | some slot' => rw [h.unique (receives_of_nextPositional? hn w)]

/-- **No positional is announced exactly when the next word would be dropped.** -/
theorem nextPositional?_eq_none_iff (w : String) :
    s.nextPositional? = none ↔ (s.fillPositional w).parsed = s.parsed := by
  constructor
  · exact fun h => parsed_fillPositional_of_none h w
  · intro h
    cases hn : s.nextPositional? with
    | none => rfl
    | some slot =>
      exact absurd h (parsed_ne_of_gains (receives_of_nextPositional? hn w).recorded)

/-! ## 5. Every run -/

/-- **The positionals of a scope are filled in the order of their declaration, without gaps and
    without loss**, for every command and every sequence of words; and the positional that is
    announced is the one that the next word is recorded for. -/
theorem positionals_fill_in_order (root : Command) (words : List String) :
    let s := (start root).consumeAll words
    (∃ closed current dropped, Allotted s.scope.positionals s.positionalCursor s.positionalCount
        (handedOut root words) closed current dropped)
      ∧ ∀ w, (∀ slot, s.nextPositional? = some slot ↔ s.Receives slot w)
        ∧ (s.nextPositional? = none ↔ (s.fillPositional w).parsed = s.parsed) := by
  intro s
  exact ⟨(filled_run root words).blocks, fun w =>
    ⟨fun _ => nextPositional?_eq_some_iff w, nextPositional?_eq_none_iff w⟩⟩

/-- The flag closes the files, the target takes one word, and the last word is dropped. -/
example : (handedOut { Command.empty "copy" with
    actions := [{ Action.operand "files" with arity := .oneOrMore }, Action.operand "target",
      Action.flag ["-v"]] } ["a", "b", "-v", "c", "d"]).map
        (fun (word, target) => (word, target.map (·.index)))
      = [("a", some 0), ("b", some 0), ("c", some 1), ("d", none)] := by
  decide

end ParseState

end TabCompletion
