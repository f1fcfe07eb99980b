import TabCompletion.Proofs.Json.Atoms

/-!
# The tokens of a written value

What is written for a value is read as the tokens of the value: brackets, separators and single
values, without the space between them. A number or a name is a token only once something follows
that ends it; all that may follow one in a written value does.

* `Value.Definite`: a value that can be written, because all its texts and numbers are given;
* `Value.tokens`: the tokens of a value;
* `Lexes`: characters that are read as certain tokens;
* `tokens?_write`: a written value is read as its tokens.
-/

namespace TabCompletion.Json

/-! ## 1. Values and their tokens -/

/-- All texts, keys and numbers of the value are given. -/
inductive Value.Definite : Value → Prop where
  | null : Definite .null
  | bool (b : Bool) : Definite (.bool b)
  | number (n : Nat) : Definite (.number (some n))
  | text (s : String) : Definite (.text (some s))
  | list {vs : List Value} (h : ∀ v ∈ vs, v.Definite) : Definite (.list vs)
  | object {ms : List (Option String × Value)} (hk : ∀ m ∈ ms, m.1.isSome = true)
      (h : ∀ m ∈ ms, m.2.Definite) : Definite (.object ms)

mutual

/-- The tokens of a value. -/
def Value.tokens : Value → List Token
  | .list vs => .openList :: (itemTokens vs ++ [.closeList])
  | .object ms => .openObject :: (memberTokens ms ++ [.closeObject])
  | .null => [.atom .null]
  | .bool b => [.atom (.bool b)]
  | .number n => [.atom (.number n)]
  | .text s => [.atom (.text s)]

/-- The tokens of the items of a list. -/
def itemTokens : List Value → List Token
  | [] => []
  | [v] => v.tokens
  | v :: w :: vs => v.tokens ++ .comma :: itemTokens (w :: vs)

/-- The tokens of the members of an object. -/
def memberTokens : List (Option String × Value) → List Token
  | [] => []
  | [(k, v)] => .atom (.text k) :: .colon :: v.tokens
  | (k, v) :: m :: ms =>
    .atom (.text k) :: .colon :: (v.tokens ++ .comma :: memberTokens (m :: ms))

end

/-! ## 2. Reading characters -/

namespace Lexing

/-- Read characters one after the other. -/
def run (l : Lexing) (cs : List Char) : Option Lexing :=
  cs.foldlM step l

theorem run_cons (l : Lexing) (c : Char) (cs : List Char) :
    l.run (c :: cs) = (l.step c).bind (·.run cs) := rfl

theorem run_append (l : Lexing) (cs ds : List Char) :
    l.run (cs ++ ds) = (l.run cs).bind (·.run ds) :=
  List.foldlM_append

variable {l : Lexing} {done : List Token} {c : Char}

/-- Where a number or a name may end, a character that cannot go on with it is read as it is
    between tokens. -/
theorem step_of_flush (hf : l.flush = some done) (hc : isBare c = false) :
    l.step c = (⟨.between, done⟩ : Lexing).step c := by
  have hl : l.step c = l.stepOutside c := by
    unfold step
    unfold flush at hf
    split
    · rename_i h
      rw [h] at hf
      cases hf
    · rename_i h
      rw [h] at hf
      cases hf
    · rfl
  have hd : (⟨.between, done⟩ : Lexing).step c = (⟨.between, done⟩ : Lexing).stepOutside c := rfl
  rw [hl, hd]
  unfold stepOutside
  rw [hc, if_neg Bool.false_ne_true, if_neg Bool.false_ne_true, hf]
  rfl

theorem run_of_flush (hf : l.flush = some done) (hc : isBare c = false) (cs : List Char) :
    l.run (c :: cs) = (⟨.between, done⟩ : Lexing).run (c :: cs) := by
  rw [run_cons, run_cons, step_of_flush hf hc]

/-! ### Characters of a text -/

/-- Between quotes a character that is neither a quote, a backslash nor a control character is read
    as it is. -/
theorem step_plain {body : List Char} (hq : c ≠ '"') (hs : c ≠ '\\') (hn : 0x20 ≤ c.toNat) :
    (⟨.text body, done⟩ : Lexing).step c = some ⟨.text (c :: body), done⟩ := by
  unfold step
  dsimp only
  rw [if_neg hq, if_neg hs, if_neg (Nat.not_lt.mpr hn)]

/-- No hexadecimal digit is a quote, a backslash or a control character. -/
theorem digitChar_plain : ∀ n < 0x10,
    n.digitChar ≠ '"' ∧ n.digitChar ≠ '\\' ∧ 0x20 ≤ n.digitChar.toNat := by
  decide

/-- Between quotes what is written for a character is read without ending the text. -/
theorem run_writeChar (c : Char) (body : List Char) :
    (⟨.text body, done⟩ : Lexing).run (writeChar c)
      = some ⟨.text ((writeChar c).reverse ++ body), done⟩ := by
  rcases writeChar_cases c with ⟨e, -, -, hw⟩ | ⟨hn, hw⟩ | ⟨hq, hs, hn, hw⟩
  · rw [hw]
    rfl
  · have hhigh := digitChar_plain (c.toNat / 16) (by omega)
    have hlow := digitChar_plain (c.toNat % 16) (by omega)
    rw [hw]
    show (⟨.text ('0' :: '0' :: 'u' :: '\\' :: body), done⟩ : Lexing).run
      [(c.toNat / 16).digitChar, (c.toNat % 16).digitChar] = _
    rw [run_cons, step_plain hhigh.1 hhigh.2.1 hhigh.2.2, Option.bind_some, run_cons,
      step_plain hlow.1 hlow.2.1 hlow.2.2]
    rfl
  · rw [hw, run_cons, step_plain hq hs hn]
    rfl

theorem run_flatMap_writeChar (cs body : List Char) :
    (⟨.text body, done⟩ : Lexing).run (cs.flatMap writeChar)
      = some ⟨.text ((cs.flatMap writeChar).reverse ++ body), done⟩ := by
  induction cs generalizing body with
  | nil => rfl
  | cons c cs ih =>
    rw [List.flatMap_cons, run_append, run_writeChar, Option.bind_some, ih, List.reverse_append,
      List.append_assoc]

/-- **A written text is one token.** -/
theorem run_writeText (s : String) (done : List Token) :
    (⟨.between, done⟩ : Lexing).run (writeText s)
      = some ⟨.between, .atom (.text (some s)) :: done⟩ := by
  unfold writeText
  rw [List.append_assoc, List.singleton_append]
  show (⟨.text [], done⟩ : Lexing).run (s.toList.flatMap writeChar ++ ['"']) = _
  rw [run_append, run_flatMap_writeChar, Option.bind_some, run_cons, List.append_nil]
  unfold step
  dsimp only
  rw [if_pos rfl, List.reverse_reverse, textValue?_writeChar]
  rfl

/-! ### Characters of a name or number -/

theorem run_bare {cs run : List Char} (h : ∀ c ∈ cs, isBare c = true) :
    (⟨.bare run, done⟩ : Lexing).run cs = some ⟨.bare (cs.reverse ++ run), done⟩ := by
  induction cs generalizing run with
  | nil => rfl
  | cons c cs ih =>
    obtain ⟨hc, hcs⟩ := List.forall_mem_cons.mp h
    have hstep : (⟨.bare run, done⟩ : Lexing).step c = some ⟨.bare (c :: run), done⟩ := by
      show stepOutside _ c = _
      unfold stepOutside
      rw [if_pos hc]
    rw [run_cons, hstep, Option.bind_some, ih hcs, List.reverse_cons, List.append_assoc,
      List.singleton_append]

end Lexing

/-! ## 3. Characters and tokens -/

/-- Between tokens, the characters are read as the tokens `ts`, at the latest when something
    follows that ends the last one. -/
def Lexes (cs : List Char) (ts : List Token) : Prop :=
  ∀ done, ∃ l, (⟨.between, done⟩ : Lexing).run cs = some l ∧ l.flush = some (ts.reverse ++ done)

namespace Lexes

variable {cs ds : List Char} {ts us : List Token} {c : Char}

/-- Tokens may follow each other if no number or name in front can go on with the second one. -/
theorem append (hc : isBare c = false) (h : Lexes cs ts) (h' : Lexes (c :: ds) us) :
    Lexes (cs ++ c :: ds) (ts ++ us) := by
  intro done
  obtain ⟨l, hl, hf⟩ := h done
  obtain ⟨l', hl', hf'⟩ := h' (ts.reverse ++ done)
  refine ⟨l', ?_, ?_⟩
  · rw [Lexing.run_append, hl, Option.bind_some, Lexing.run_of_flush hf hc, hl']
  · rw [hf', List.reverse_append, List.append_assoc]

/-- Behind characters that are read as one token for themselves, any other token may follow. -/
theorem behind {t : Token} (hd : ∀ done, (⟨.between, done⟩ : Lexing).run ds
      = some ⟨.between, t :: done⟩) (h : Lexes cs ts) : Lexes (ds ++ cs) (t :: ts) := by
  intro done
  obtain ⟨l, hl, hf⟩ := h (t :: done)
  refine ⟨l, ?_, ?_⟩
  · rw [Lexing.run_append, hd, Option.bind_some, hl]
  · rw [hf, List.reverse_cons, List.append_assoc, List.singleton_append]

theorem nil : Lexes [] [] := fun done => ⟨⟨.between, done⟩, rfl, rfl⟩

theorem text (s : String) (h : Lexes cs ts) :
    Lexes (writeText s ++ cs) (.atom (.text (some s)) :: ts) :=
  behind (Lexing.run_writeText s) h

theorem punctuation {t : Token} (hd : ∀ done, (⟨.between, done⟩ : Lexing).step c
      = some ⟨.between, t :: done⟩) (h : Lexes cs ts) : Lexes (c :: cs) (t :: ts) := by
  have hrun : ∀ done, (⟨.between, done⟩ : Lexing).run [c] = some ⟨.between, t :: done⟩ := by
    intro done
    rw [Lexing.run_cons, hd]
    rfl
  exact behind hrun h

theorem space (hd : ∀ done, (⟨.between, done⟩ : Lexing).step c = some ⟨.between, done⟩)
    (h : Lexes cs ts) : Lexes (c :: cs) ts := by
  intro done
  obtain ⟨l, hl, hf⟩ := h done
  exact ⟨l, by rw [Lexing.run_cons, hd, Option.bind_some, hl], hf⟩

theorem lineStart (depth : Nat) (h : Lexes cs ts) : Lexes (lineStart depth ++ cs) ts := by
  unfold Json.lineStart
  rw [List.cons_append]
  refine space (fun _ => rfl) ?_
  induction 2 * depth with
  | zero => exact h
  | succ n ih => exact space (fun _ => rfl) ih

/-- A name or a number is a token of its own. -/
theorem bare {v : Value} (hb : ∀ c ∈ cs, isBare c = true) (hv : bareValue? cs = some v) :
    Lexes cs [.atom v] := by
  intro done
  cases cs with
  | nil => cases hv
  | cons c cs =>
    obtain ⟨hc, hcs⟩ := List.forall_mem_cons.mp hb
    refine ⟨⟨.bare (cs.reverse ++ [c]), done⟩, ?_, ?_⟩
    · have hstep : (⟨.between, done⟩ : Lexing).step c = some ⟨.bare [c], done⟩ := by
        show Lexing.stepOutside _ c = _
        unfold Lexing.stepOutside
        rw [if_pos hc]
      rw [Lexing.run_cons, hstep, Option.bind_some, Lexing.run_bare hcs]
    · unfold Lexing.flush
      dsimp only
      rw [List.reverse_append, List.reverse_reverse, List.reverse_singleton, List.singleton_append,
        hv]
      rfl

end Lexes

/-! ## 4. Written values -/

theorem isBare_of_isDigit {c : Char} (h : c.isDigit = true) : isBare c = true := by
  simp [isBare, Char.isAlphanum, h]

/-- The items of a list are read one after the other. -/
theorem lexes_writeItems {depth : Nat} {vs : List Value}
    (h : ∀ v ∈ vs, Lexes (v.write depth) v.tokens) :
    Lexes (writeItems depth vs) (itemTokens vs) := by
  induction vs with
  | nil => exact .nil
  | cons v vs ih =>
    obtain ⟨hv, hvs⟩ := List.forall_mem_cons.mp h
    cases vs with
    | nil => exact .lineStart depth hv
    | cons w vs =>
      have hrest : Lexes (',' :: writeItems depth (w :: vs)) (.comma :: itemTokens (w :: vs)) :=
        .punctuation (fun _ => rfl) (ih hvs)
      exact .lineStart depth (.append rfl hv hrest)

/-- The members of an object are read one after the other. -/
theorem lexes_writeMembers {depth : Nat} {ms : List (Option String × Value)}
    (hk : ∀ m ∈ ms, m.1.isSome = true) (h : ∀ m ∈ ms, Lexes (m.2.write depth) m.2.tokens) :
    Lexes (writeMembers depth ms) (memberTokens ms) := by
  induction ms with
  | nil => exact .nil
  | cons m ms ih =>
    obtain ⟨hkey, hkeys⟩ := List.forall_mem_cons.mp hk
    obtain ⟨hv, hvs⟩ := List.forall_mem_cons.mp h
    obtain ⟨k, v⟩ := m
    obtain ⟨key, rfl⟩ := Option.isSome_iff_exists.mp hkey
    -- a key, the colon behind it, and what follows the space
    have hmember : ∀ {cs ts}, Lexes cs ts →
        Lexes (Json.lineStart depth ++ (writeText key ++ (':' :: ' ' :: cs)))
          (.atom (.text (some key)) :: .colon :: ts) := fun hcs =>
      .lineStart depth (.text key (.punctuation (fun _ => rfl) (.space (fun _ => rfl) hcs)))
    cases ms with
    | nil => exact hmember hv
    | cons m ms =>
      have hrest : Lexes (',' :: writeMembers depth (m :: ms)) (.comma :: memberTokens (m :: ms)) :=
        .punctuation (fun _ => rfl) (ih hkeys hvs)
      exact hmember (.append rfl hv hrest)

/-- **What is written for a value is read as its tokens.** -/
theorem lexes_write {v : Value} (h : v.Definite) : ∀ depth, Lexes (v.write depth) v.tokens := by
  induction h with
  | null =>
    have hb : ∀ c ∈ ['n', 'u', 'l', 'l'], isBare c = true :=
      List.all_eq_true.mp (by decide)
    exact fun _ => .bare hb rfl
  | bool b =>
    cases b with
    | true =>
      have hb : ∀ c ∈ ['t', 'r', 'u', 'e'], isBare c = true :=
        List.all_eq_true.mp (by decide)
      exact fun _ => .bare hb rfl
    | false =>
      have hb : ∀ c ∈ ['f', 'a', 'l', 's', 'e'], isBare c = true :=
        List.all_eq_true.mp (by decide)
      exact fun _ => .bare hb rfl
  | number n =>
    exact fun _ => .bare (fun c hc => isBare_of_isDigit (isDigit_toDigits n c hc))
      (bareValue?_toDigits n)
  | text s =>
    intro depth
    have hs := Lexes.text s .nil
    rwa [List.append_nil] at hs
  | @list vs _ ih =>
    intro depth
    have hclose : Lexes (Json.lineStart depth ++ [']']) [.closeList] :=
      .lineStart depth (.punctuation (fun _ => rfl) .nil)
    unfold Value.write Value.tokens
    split
    · rename_i hempty
      rw [List.isEmpty_iff.mp hempty]
      exact .punctuation (fun _ => rfl) (.punctuation (fun _ => rfl) .nil)
    · exact .punctuation (fun _ => rfl)
        (.append rfl (lexes_writeItems fun v hv => ih v hv (depth + 1)) hclose)
  | @object ms hk _ ih =>
    intro depth
    have hclose : Lexes (Json.lineStart depth ++ ['}']) [.closeObject] :=
      .lineStart depth (.punctuation (fun _ => rfl) .nil)
    unfold Value.write Value.tokens
    split
    · rename_i hempty
      rw [List.isEmpty_iff.mp hempty]
      exact .punctuation (fun _ => rfl) (.punctuation (fun _ => rfl) .nil)
    · exact .punctuation (fun _ => rfl)
        (.append rfl (lexes_writeMembers hk fun m hm => ih m hm (depth + 1)) hclose)

/-- **The text of a value is made of the tokens of the value.** -/
theorem tokens?_write {v : Value} (h : v.Definite) (depth : Nat) :
    tokens? (v.write depth) = some v.tokens := by
  obtain ⟨l, hl, hf⟩ := lexes_write h depth []
  unfold tokens?
  show ((Lexing.run ⟨.between, []⟩ (v.write depth)).bind Lexing.flush).map List.reverse = _
  rw [hl, Option.bind_some, hf, Option.map_some, List.append_nil, List.reverse_reverse]

end TabCompletion.Json
