import TabCompletion.Json.Reader
import TabCompletion.Proofs.Json.Tokens

/-!
# A written value is read back

The reader keeps the open lists and objects on a stack. The tokens of a value leave the stack as it
was and put the value in its place, whatever is open around it.

* `Reading.AwaitsValue`: a value may come next;
* `run_tokens`: the tokens of a value complete that value;
* `parse?_pretty`: the text of a value is read as the value.
-/

namespace TabCompletion.Json

namespace Reading

/-! ## 1. Reading tokens -/

/-- Read tokens one after the other. -/
def run (r : Reading) (ts : List Token) : Option Reading :=
  ts.foldlM step r

theorem run_cons (r : Reading) (t : Token) (ts : List Token) :
    r.run (t :: ts) = (r.step t).bind (·.run ts) := rfl

theorem run_append (r : Reading) (ts us : List Token) :
    r.run (ts ++ us) = (r.run ts).bind (·.run us) :=
  List.foldlM_append

theorem run_single (r : Reading) (t : Token) : r.run [t] = r.step t := by
  rw [run_cons]
  show (r.step t).bind some = _
  rw [Option.bind_fun_some]

/-- A value may come next. -/
def AwaitsValue (r : Reading) : Prop :=
  r.awaited = .value ∨ r.awaited = .itemOrClose

/-- A key may come next. -/
def AwaitsKey (r : Reading) : Prop :=
  r.awaited = .key ∨ r.awaited = .keyOrClose

variable {r : Reading} {t : Token}

/-- Where a value may come next, a token that closes nothing begins it. -/
theorem step_of_awaitsValue (h : r.AwaitsValue) (hl : t ≠ .closeList) (ho : t ≠ .closeObject) :
    r.step t = stepValue r.stack t := by
  have hclose : stepClose r.stack t = none := by
    unfold stepClose
    split
    · exact absurd rfl hl
    · exact absurd rfl ho
    · rfl
  unfold step
  rcases h with h | h
  · rw [h]
  · rw [h]
    dsimp only
    rw [hclose, Option.none_or]

theorem step_of_awaitsKey {ms : List (Option String × Value)} {rest : List Frame}
    (h : r.AwaitsKey) (hs : r.stack = .object ms :: rest) (k : Option String) :
    r.step (.atom (.text k)) = some ⟨.member ms k :: rest, .colon, none⟩ := by
  unfold step
  rcases h with h | h
  · rw [h, hs]
    rfl
  · rw [h, hs]
    rfl

/-- A single value takes its place. -/
theorem run_atom (h : r.AwaitsValue) (v : Value) : r.run [.atom v] = complete v r.stack := by
  rw [run_single, step_of_awaitsValue h Token.noConfusion Token.noConfusion]
  rfl

/-! ## 2. The parts of a list or object -/

/-- The items of a list are added to it. -/
theorem run_itemTokens {vs : List Value} (hne : vs ≠ [])
    (h : ∀ v ∈ vs, ∀ r : Reading, r.AwaitsValue → r.run v.tokens = complete v r.stack)
    {items : List Value} {rest : List Frame} (hr : r.AwaitsValue)
    (hs : r.stack = .list items :: rest) :
    r.run (itemTokens vs) = some ⟨.list (vs.reverse ++ items) :: rest, .separator, none⟩ := by
  induction vs generalizing items r with
  | nil => exact absurd rfl hne
  | cons v vs ih =>
    obtain ⟨hv, hvs⟩ := List.forall_mem_cons.mp h
    have hfirst : r.run v.tokens = some ⟨.list (v :: items) :: rest, .separator, none⟩ := by
      rw [hv r hr, hs]
      rfl
    cases vs with
    | nil => exact hfirst
    | cons w vs =>
      have hrest : run ⟨.list (v :: items) :: rest, .value, none⟩ (itemTokens (w :: vs))
          = some ⟨.list ((w :: vs).reverse ++ v :: items) :: rest, .separator, none⟩ :=
        ih (List.cons_ne_nil w vs) hvs (.inl rfl) rfl
      show r.run (v.tokens ++ .comma :: itemTokens (w :: vs)) = _
      rw [run_append, hfirst, Option.bind_some, List.reverse_cons, List.append_assoc,
        List.singleton_append]
      exact hrest

/-- The members of an object are added to it. -/
theorem run_memberTokens {ms : List (Option String × Value)} (hne : ms ≠ [])
    (h : ∀ m ∈ ms, ∀ r : Reading, r.AwaitsValue → r.run m.2.tokens = complete m.2 r.stack)
    {members : List (Option String × Value)} {rest : List Frame} (hr : r.AwaitsKey)
    (hs : r.stack = .object members :: rest) :
    r.run (memberTokens ms) = some ⟨.object (ms.reverse ++ members) :: rest, .separator, none⟩ := by
  induction ms generalizing members r with
  | nil => exact absurd rfl hne
  | cons m ms ih =>
    obtain ⟨hm, hms⟩ := List.forall_mem_cons.mp h
    obtain ⟨k, v⟩ := m
    -- the key and the colon leave the object open for the value of the member
    have hfirst : ∀ us, r.run (.atom (.text k) :: .colon :: (v.tokens ++ us))
        = run ⟨.object ((k, v) :: members) :: rest, .separator, none⟩ us := by
      intro us
      have hv : run ⟨.member members k :: rest, .value, none⟩ v.tokens
          = some ⟨.object ((k, v) :: members) :: rest, .separator, none⟩ :=
        hm ⟨.member members k :: rest, .value, none⟩ (.inl rfl)
      rw [run_cons, step_of_awaitsKey hr hs, Option.bind_some]
      show run ⟨.member members k :: rest, .value, none⟩ (v.tokens ++ us) = _
      rw [run_append, hv, Option.bind_some]
    cases ms with
    | nil =>
      have hlast := hfirst []
      rwa [List.append_nil] at hlast
    | cons m ms =>
      have hrest : run ⟨.object ((k, v) :: members) :: rest, .key, none⟩ (memberTokens (m :: ms))
          = some ⟨.object ((m :: ms).reverse ++ (k, v) :: members) :: rest, .separator, none⟩ :=
        ih (List.cons_ne_nil m ms) hms (.inl rfl) rfl
      refine (hfirst (.comma :: memberTokens (m :: ms))).trans ?_
      rw [List.reverse_cons, List.append_assoc, List.singleton_append]
      exact hrest

/-! ## 3. Whole values -/

/-- **The tokens of a value complete that value**, whatever is open around it. -/
theorem run_tokens {v : Value} (h : v.Definite) :
    ∀ r : Reading, r.AwaitsValue → r.run v.tokens = complete v r.stack := by
  induction h with
  | null => exact fun _ hr => run_atom hr _
  | bool b => exact fun _ hr => run_atom hr _
  | number n => exact fun _ hr => run_atom hr _
  | text s => exact fun _ hr => run_atom hr _
  | @list vs _ ih =>
    intro r hr
    unfold Value.tokens
    rw [run_cons, step_of_awaitsValue hr Token.noConfusion Token.noConfusion]
    show run ⟨.list [] :: r.stack, .itemOrClose, none⟩ (itemTokens vs ++ [.closeList]) = _
    by_cases hvs : vs = []
    · rw [hvs]
      show run ⟨.list [] :: r.stack, .itemOrClose, none⟩ [.closeList] = _
      rw [run_single]
      exact Option.or_none
    · rw [run_append, run_itemTokens hvs ih (.inr rfl) rfl, Option.bind_some, run_single,
        List.append_nil]
      show complete (.list vs.reverse.reverse) r.stack = _
      rw [List.reverse_reverse]
  | @object ms _ _ ih =>
    intro r hr
    unfold Value.tokens
    rw [run_cons, step_of_awaitsValue hr Token.noConfusion Token.noConfusion]
    show run ⟨.object [] :: r.stack, .keyOrClose, none⟩ (memberTokens ms ++ [.closeObject]) = _
    by_cases hms : ms = []
    · rw [hms]
      show run ⟨.object [] :: r.stack, .keyOrClose, none⟩ [.closeObject] = _
      rw [run_single]
      exact Option.or_none
    · rw [run_append, run_memberTokens hms ih (.inr rfl) rfl, Option.bind_some, run_single,
        List.append_nil]
      show complete (.object ms.reverse.reverse) r.stack = _
      rw [List.reverse_reverse]

end Reading

/-- **The text of a value is read as the value.** -/
theorem parse?_pretty {v : Value} (h : v.Definite) : parse? v.pretty = some v := by
  unfold parse? Value.pretty
  rw [String.toList_ofList, tokens?_write h, Option.bind_some]
  show (Reading.run .start v.tokens).bind (·.result) = _
  rw [Reading.run_tokens h .start (.inl rfl)]
  rfl

end TabCompletion.Json
