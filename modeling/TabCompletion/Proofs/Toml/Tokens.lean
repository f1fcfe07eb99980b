import TabCompletion.Proofs.Toml.Texts

/-!
# The tokens of what is written

Keys, truth values, texts and lists of texts are read as their tokens. A key, a truth value and some
of the texts are complete only once a separator follows: more quotes behind those of a text, say,
would belong to it. In what is written each of them has a separator behind it.

* `Lexing.Settles`: the states in which a separator completes the last token;
* `Lexes`, `Reads`: characters that are read as certain tokens, at the latest when a separator
  follows, or at once;
* `lexes_writeText`: a written text is one token;
* `reads_writeTexts`, `reads_writeEntry`, `reads_writeHeader`: lists, entries and headers.
-/

namespace TabCompletion.Toml

/-! ## 1. Reading characters -/

namespace Lexing

/-- Read characters one after the other. -/
def run (l : Lexing) (cs : List Char) : Option Lexing :=
  cs.foldlM step l

theorem run_cons (l : Lexing) (c : Char) (cs : List Char) :
    l.run (c :: cs) = (l.step c).bind (·.run cs) := rfl

theorem run_append (l : Lexing) (cs ds : List Char) :
    l.run (cs ++ ds) = (l.run cs).bind (·.run ds) :=
  List.foldlM_append

theorem run_single (l : Lexing) (c : Char) : l.run [c] = l.step c := by
  rw [run_cons]
  show (l.step c).bind some = _
  rw [Option.bind_fun_some]

/-- `l.Settles done`: with a separator behind what has been read, the tokens are `done`. -/
inductive Settles : Lexing → List Token → Prop where
  | outside (done : List Token) : Settles ⟨.outside, done⟩ done
  | run {cs : List Char} (hcs : cs ≠ []) (done : List Token) :
      Settles ⟨.run cs, done⟩ (.run cs.reverse :: done)
  | empty {q : Char} (hq : punctuation? q = none) (done : List Token) :
      Settles ⟨.opening q true, done⟩ (.text false "" :: done)
  | block {q : Char} {body : List Char} {quotes : Nat} {t : Token} (hq : punctuation? q = none)
      (hn : 3 ≤ quotes) (ht : blockText? q body quotes = some t) (done : List Token) :
      Settles ⟨.block q body quotes, done⟩ (t :: done)

variable {l : Lexing} {done : List Token} {c q : Char} {t : Token}

theorem stepOutside_of_punctuation? (hc : punctuation? c = some t) :
    stepOutside [] done c = ⟨.outside, t :: done⟩ := by
  unfold stepOutside
  rw [hc]
  rfl

/-- **A separator completes the last token.** -/
theorem Settles.step (h : l.Settles done) (hc : punctuation? c = some t) :
    l.step c = some ⟨.outside, t :: done⟩ := by
  have hother : ∀ {q}, punctuation? q = none → c ≠ q := by
    rintro q hq rfl
    exact nomatch hq.symm.trans hc
  cases h with
  | outside => exact congrArg some (stepOutside_of_punctuation? hc)
  | run hcs =>
    unfold Lexing.step stepOutside
    dsimp only
    rw [hc, List.isEmpty_eq_false_iff.mpr hcs]
    rfl
  | empty hq =>
    unfold Lexing.step
    dsimp only
    rw [if_neg (hother hq), stepOutside_of_punctuation? hc]
  | block hq hn ht =>
    unfold Lexing.step stepBlock
    dsimp only
    rw [if_neg (hother hq), if_pos hn, ht, Option.map_some, stepOutside_of_punctuation? hc]

end Lexing

/-- The characters are read as the tokens `ts`, at the latest when a separator follows. -/
def Lexes (cs : List Char) (ts : List Token) : Prop :=
  ∀ done, ∃ l, (⟨.outside, done⟩ : Lexing).run cs = some l ∧ l.Settles (ts.reverse ++ done)

/-- The characters are read as the tokens `ts`, whatever follows. -/
def Reads (cs : List Char) (ts : List Token) : Prop :=
  ∀ done, (⟨.outside, done⟩ : Lexing).run cs = some ⟨.outside, ts.reverse ++ done⟩

variable {cs ds : List Char} {ts us : List Token} {c : Char} {t : Token}

theorem Reads.lexes (h : Reads cs ts) : Lexes cs ts :=
  fun done => ⟨_, h done, .outside _⟩

theorem Reads.append (h : Reads cs ts) (h' : Reads ds us) : Reads (cs ++ ds) (ts ++ us) := by
  intro done
  rw [Lexing.run_append, h, Option.bind_some, h', List.reverse_append, List.append_assoc]

theorem Reads.append_lexes (h : Reads cs ts) (h' : Lexes ds us) : Lexes (cs ++ ds) (ts ++ us) := by
  intro done
  obtain ⟨l, hl, hs⟩ := h' (ts.reverse ++ done)
  refine ⟨l, ?_, ?_⟩
  · rw [Lexing.run_append, h, Option.bind_some, hl]
  · rwa [List.reverse_append, List.append_assoc]

theorem Reads.punctuation (hc : punctuation? c = some t) : Reads [c] [t] := by
  intro done
  rw [Lexing.run_single]
  exact (Lexing.Settles.outside done).step hc

/-- A separator ends what stands before it. -/
theorem Lexes.closed (h : Lexes cs ts) (hc : punctuation? c = some t) :
    Reads (cs ++ [c]) (ts ++ [t]) := by
  intro done
  obtain ⟨l, hl, hs⟩ := h done
  rw [Lexing.run_append, hl, Option.bind_some, Lexing.run_single, hs.step hc, List.reverse_append]
  rfl

/-- Characters that are read at once are a text made of these tokens. -/
theorem tokens?_of_reads (h : Reads cs ts) (hmark : cs.head? ≠ some '\uFEFF') :
    tokens? cs = some ts := by
  have hbody : ((cs.foldlM Lexing.step ⟨.outside, []⟩).bind Lexing.finish).map List.reverse
      = some ts := by
    show (((⟨.outside, []⟩ : Lexing).run cs).bind Lexing.finish).map List.reverse = _
    rw [h, Option.bind_some]
    show some (ts.reverse ++ []).reverse = _
    rw [List.append_nil, List.reverse_reverse]
  unfold tokens?
  split
  · exact absurd rfl hmark
  · exact hbody

/-! ## 2. Keys and truth values -/

/-- Whether the character belongs to a run of characters wherever it stands. -/
def isBare (c : Char) : Bool :=
  (punctuation? c).isNone && c != '#' && c != '\r' && c != '"' && c != '\''

theorem stepOutside_of_isBare (hc : isBare c = true) (run : List Char) (done : List Token) :
    stepOutside run done c = ⟨.run (c :: run), done⟩ := by
  unfold isBare at hc
  simp only [Bool.and_eq_true, Option.isNone_iff_eq_none, bne_iff_ne] at hc
  obtain ⟨⟨⟨⟨hpunctuation, hcomment⟩, hreturn⟩, hdouble⟩, hsingle⟩ := hc
  unfold stepOutside
  rw [hpunctuation]
  simp [hcomment, hreturn, hdouble, hsingle]

/-- **A run of characters is one token.** -/
theorem lexes_run (hne : cs ≠ []) (h : ∀ c ∈ cs, isBare c = true) : Lexes cs [.run cs] := by
  have hgo : ∀ run done, (⟨.run run, done⟩ : Lexing).run cs
      = some ⟨.run (cs.reverse ++ run), done⟩ := by
    clear hne
    induction cs with
    | nil => exact fun _ _ => rfl
    | cons c cs ih =>
      intro run done
      obtain ⟨hc, hcs⟩ := List.forall_mem_cons.mp h
      have hstep : (⟨.run run, done⟩ : Lexing).step c = some ⟨.run (c :: run), done⟩ :=
        congrArg some (stepOutside_of_isBare hc run done)
      rw [Lexing.run_cons, hstep, Option.bind_some, ih hcs, List.reverse_cons, List.append_assoc,
        List.singleton_append]
  intro done
  refine ⟨⟨.run cs.reverse, done⟩, ?_, ?_⟩
  · rw [← List.append_nil cs.reverse, ← hgo]
    cases cs with
    | nil => exact absurd rfl hne
    | cons c cs => rfl
  · have hsettles := Lexing.Settles.run (mt List.reverse_eq_nil_iff.mp hne) done
    rwa [List.reverse_reverse] at hsettles

theorem lexes_writeBool (b : Bool) : Lexes (writeBool b) [.run (writeBool b)] := by
  cases b with
  | true => exact lexes_run (List.cons_ne_nil _ _) (List.all_eq_true.mp (by decide))
  | false => exact lexes_run (List.cons_ne_nil _ _) (List.all_eq_true.mp (by decide))

/-! ## 3. Texts -/

namespace Lexing

variable {done : List Token} {q : Char}

theorem punctuation?_quote (hq : q = '"' ∨ q = '\'') : punctuation? q = none := by
  rcases hq with rfl | rfl
  · rfl
  · rfl

theorem step_quote (hq : q = '"' ∨ q = '\'') :
    (⟨.outside, done⟩ : Lexing).step q = some ⟨.opening q false, done⟩ := by
  rcases hq with rfl | rfl
  · rfl
  · rfl

/-- In a text of one line, characters that may stand there are read as they are. -/
theorem run_line {k k' : Nat} {cs : List Char} (h : Quotable q 0 k cs k') (body : List Char) :
    (⟨.line q body, done⟩ : Lexing).run cs = some ⟨.line q (cs.reverse ++ body), done⟩ := by
  induction h generalizing body with
  | nil => rfl
  | quote hk => exact absurd hk (Nat.not_lt_zero _)
  | @char k k' c cs hq hs _ ih =>
    have hstep : (⟨.line q body, done⟩ : Lexing).step c = some ⟨.line q (c :: body), done⟩ := by
      unfold step stepLine
      dsimp only
      rw [if_neg hq, if_neg (by simpa using hs)]
    rw [run_cons, hstep, Option.bind_some, ih, List.reverse_cons, List.append_assoc,
      List.singleton_append]
  | @pair k k' c cs hq _ ih =>
    subst hq
    show (⟨.line '"' (c :: '\\' :: body), done⟩ : Lexing).run cs = _
    rw [ih, List.reverse_cons, List.reverse_cons, List.append_assoc, List.append_assoc]
    rfl

/-- In a block, characters that may stand there are read as they are. The quotes just read are kept
    apart, because they may be the first ones of the end. -/
theorem run_block {k k' : Nat} {cs : List Char} (h : Quotable q 2 k cs k') (hk : k ≤ 2)
    (done : List Token) (body : List Char) : ∃ body',
      (⟨.block q body k, done⟩ : Lexing).run cs = some ⟨.block q body' k', done⟩
        ∧ List.replicate k' q ++ body' = cs.reverse ++ (List.replicate k q ++ body) := by
  induction h generalizing body with
  | nil => exact ⟨body, rfl, rfl⟩
  | @quote k k' cs hlt _ ih =>
    obtain ⟨body', hrun, hbody⟩ := ih hlt body
    have hstep : (⟨.block q body k, done⟩ : Lexing).step q
        = some ⟨.block q body (k + 1), done⟩ := by
      unfold step stepBlock
      dsimp only
      rw [if_pos rfl, if_neg (by omega)]
    refine ⟨body', ?_, ?_⟩
    · rw [run_cons, hstep, Option.bind_some, hrun]
    · rw [hbody, List.replicate_succ, List.reverse_cons, List.append_assoc]
      rfl
  | @char k k' c cs hq hs _ ih =>
    obtain ⟨body', hrun, hbody⟩ := ih (Nat.zero_le 2) (c :: (List.replicate k q ++ body))
    have hstep : (⟨.block q body k, done⟩ : Lexing).step c
        = some ⟨.block q (c :: (List.replicate k q ++ body)) 0, done⟩ := by
      unfold step stepBlock
      dsimp only
      rw [if_neg hq, if_neg (by omega), if_neg (by simpa using hs)]
    refine ⟨body', ?_, ?_⟩
    · rw [run_cons, hstep, Option.bind_some, hrun]
    · rw [hbody, List.reverse_cons, List.append_assoc]
      rfl
  | @pair k k' c cs hq _ ih =>
    subst hq
    obtain ⟨body', hrun, hbody⟩ :=
      ih (Nat.zero_le 2) (c :: '\\' :: (List.replicate k '"' ++ body))
    have hstep : (⟨.block '"' body k, done⟩ : Lexing).step '\\'
        = some ⟨.blockEscape ('\\' :: (List.replicate k '"' ++ body)), done⟩ := by
      unfold step stepBlock
      dsimp only
      rw [if_neg (by decide), if_neg (by omega), if_pos (by decide)]
    refine ⟨body', ?_, ?_⟩
    · rw [run_cons, hstep, Option.bind_some]
      exact hrun
    · rw [hbody, List.reverse_cons, List.reverse_cons, List.append_assoc, List.append_assoc]
      rfl

/-- A quote in a block is counted, unless it is the last one that can belong to the end. -/
theorem step_blockQuote {n : Nat} (hn : n ≠ 4) (body : List Char) :
    (⟨.block q body n, done⟩ : Lexing).step q = some ⟨.block q body (n + 1), done⟩ := by
  unfold step stepBlock
  dsimp only
  rw [if_pos rfl, if_neg hn]

/-- Three quotes end a block. Up to two more just before them belong to its text. -/
theorem run_blockEnd (hq : q = '"' ∨ q = '\'') {k : Nat} (hk : k ≤ 2) (done : List Token)
    {body : List Char} {t : Token}
    (ht : textOf? q true (List.replicate k q ++ body).reverse = some t) :
    ∃ l, (⟨.block q body k, done⟩ : Lexing).run [q, q, q] = some l ∧ l.Settles (t :: done) := by
  have hnone := punctuation?_quote hq
  have htwo : (⟨.block q body k, done⟩ : Lexing).run [q, q, q]
      = (⟨.block q body (k + 2), done⟩ : Lexing).step q := by
    rw [run_cons, step_blockQuote (by omega), Option.bind_some, run_cons,
      step_blockQuote (by omega), Option.bind_some, run_single]
  rw [htwo]
  obtain hfew | rfl : k < 2 ∨ k = 2 := by omega
  · have hblock : blockText? q body (k + 3) = some t := by
      unfold blockText?
      rwa [Nat.add_sub_cancel]
    exact ⟨_, step_blockQuote (by omega) body, .block hnone (by omega) hblock done⟩
  · refine ⟨⟨.outside, t :: done⟩, ?_, .outside _⟩
    unfold step stepBlock
    dsimp only
    rw [if_pos rfl, if_pos rfl]
    show (textOf? q true (List.replicate 2 q ++ body).reverse).map _ = _
    rw [ht]
    rfl

end Lexing

/-- A text of one line is one token. -/
theorem lexes_line {q : Char} (hq : q = '"' ∨ q = '\'') {k : Nat} {body : List Char}
    (h : Quotable q 0 0 body k) (ht : textOf? q false body = some t) :
    Lexes ([q] ++ body ++ [q]) [t] := by
  intro done
  rw [List.append_assoc, List.singleton_append, Lexing.run_cons, Lexing.step_quote hq,
    Option.bind_some]
  cases body with
  | nil =>
    -- two quotes could be the first ones of a block
    have hempty : some (Token.text false "") = some t := by
      rw [← ht]
      rcases hq with rfl | rfl
      · rfl
      · rfl
    cases hempty
    refine ⟨⟨.opening q true, done⟩, ?_, .empty (Lexing.punctuation?_quote hq) done⟩
    rw [List.nil_append, Lexing.run_single]
    unfold Lexing.step
    dsimp only
    rw [if_pos rfl]
  | cons c cs =>
    have hc : c ≠ q := by
      cases h with
      | quote hk => exact absurd hk (Nat.not_lt_zero _)
      | char hne => exact hne
      | pair hdouble =>
        rw [hdouble]
        decide
    have hopen : (⟨.opening q false, done⟩ : Lexing).run (c :: cs ++ [q])
        = (⟨.line q [], done⟩ : Lexing).run (c :: cs ++ [q]) := by
      rw [List.cons_append, Lexing.run_cons, Lexing.run_cons]
      unfold Lexing.step
      dsimp only
      rw [if_neg hc]
    refine ⟨⟨.outside, t :: done⟩, ?_, .outside _⟩
    rw [hopen, Lexing.run_append, Lexing.run_line h, Option.bind_some, List.append_nil,
      Lexing.run_single]
    unfold Lexing.step stepLine
    dsimp only
    rw [if_pos rfl, List.reverse_reverse, ht]
    rfl

/-- A block is one token. -/
theorem lexes_block {q : Char} (hq : q = '"' ∨ q = '\'') {k : Nat} {body : List Char}
    (h : Quotable q 2 0 body k) (ht : textOf? q true body = some t) :
    Lexes ([q, q, q] ++ body ++ [q, q, q]) [t] := by
  intro done
  have hopen : (⟨.outside, done⟩ : Lexing).run [q, q, q] = some ⟨.block q [] 0, done⟩ := by
    rcases hq with rfl | rfl
    · rfl
    · rfl
  obtain ⟨body', hrun, hbody⟩ := Lexing.run_block h (Nat.zero_le 2) done []
  have hwhole : (List.replicate k q ++ body').reverse = body := by
    rw [hbody]
    simp
  rw [← hwhole] at ht
  obtain ⟨l, hend, hsettles⟩ := Lexing.run_blockEnd hq (h.le (Nat.zero_le 2)) done ht
  refine ⟨l, ?_, hsettles⟩
  rw [List.append_assoc, Lexing.run_append, hopen, Option.bind_some, Lexing.run_append, hrun,
    Option.bind_some, hend]

/-- The token of a written text. -/
def textToken (s : String) : Token := .text (textStyle s.toList).isBlock s

/-- **A written text is one token.** -/
theorem lexes_writeText (s : String) : Lexes (writeText s) [textToken s] := by
  have hquote : (textStyle s.toList).quote = '"' ∨ (textStyle s.toList).quote = '\'' := by
    cases textStyle s.toList <;> decide
  have htext := textOf?_content s.toList
  obtain ⟨k, hk⟩ := quotable_content s.toList
  rw [writeText_eq]
  unfold textToken TextStyle.quotes
  rw [String.ofList_toList] at htext
  cases hblock : (textStyle s.toList).isBlock with
  | false =>
    rw [hblock] at hk htext
    exact lexes_line hquote hk htext
  | true =>
    rw [hblock] at hk htext
    exact lexes_block hquote hk htext

/-! ## 4. Lists, entries and headers -/

/-- The tokens of a list of texts. -/
def textsTokens : List String → List Token
  | [] => [.openBracket, .closeBracket]
  | [s] => [.openBracket, textToken s, .closeBracket]
  | ss => [.openBracket, .newline]
    ++ ss.flatMap (fun s => [.space, .space, .space, .space, textToken s, .comma, .newline])
    ++ [.closeBracket]

/-- **A list of texts is read as its tokens.** -/
theorem reads_writeTexts (ss : List String) : Reads (writeTexts ss) (textsTokens ss) := by
  have hopen : Reads ['['] [.openBracket] := .punctuation rfl
  have hclose : Reads [']'] [.closeBracket] := .punctuation rfl
  have hbreak : Reads ['\n'] [.newline] := .punctuation rfl
  have hspace : Reads [' '] [.space] := .punctuation rfl
  have hitem : ∀ s, Reads ([' ', ' ', ' ', ' '] ++ writeText s ++ [',', '\n'])
      [.space, .space, .space, .space, textToken s, .comma, .newline] := by
    intro s
    have hindent := (hspace.append hspace).append (hspace.append hspace)
    have hcomma := (hindent.append_lexes (lexes_writeText s)).closed (c := ',') rfl
    have hline := hcomma.append hbreak
    rwa [List.append_assoc _ [','] ['\n']] at hline
  have hitems : Reads (ss.flatMap fun s => [' ', ' ', ' ', ' '] ++ writeText s ++ [',', '\n'])
      (ss.flatMap fun s => [.space, .space, .space, .space, textToken s, .comma, .newline]) := by
    induction ss with
    | nil => exact fun _ => rfl
    | cons s ss ih => exact (hitem s).append ih
  match ss with
  | [] => exact hopen.append hclose
  | [s] => exact (hopen.append_lexes (lexes_writeText s)).closed rfl
  | s :: s' :: ss => exact ((hopen.append hbreak).append hitems).append hclose

/-- The tokens of an entry. -/
def entryTokens (key : String) (value : List Token) : List Token :=
  [.run key.toList, .space, .equals, .space] ++ value ++ [.newline]

/-- An entry is read as its tokens. -/
theorem reads_writeEntry {key : String} (hkey : Lexes key.toList [.run key.toList])
    {value : List Char} (h : Lexes value ts) :
    Reads (writeEntry key value) (entryTokens key ts) := by
  have hequals : Reads (key.toList ++ [' ', '=', ' '])
      [.run key.toList, .space, .equals, .space] := by
    have hname := hkey.closed (c := ' ') rfl
    have hsign := (Reads.punctuation (c := '=') rfl).append (Reads.punctuation (c := ' ') rfl)
    have hline := hname.append hsign
    rwa [List.append_assoc] at hline
  exact (hequals.append_lexes h).closed rfl

/-- The tokens of the header of a table. -/
def headerTokens (key : String) : List Token :=
  [.newline, .openBracket, .run key.toList, .closeBracket, .newline]

/-- A header is read as its tokens. -/
theorem reads_writeHeader {key : String} (hkey : Lexes key.toList [.run key.toList]) :
    Reads (writeHeader key) (headerTokens key) := by
  have hopen : Reads ['\n', '['] [.newline, .openBracket] :=
    Reads.append (.punctuation (c := '\n') rfl) (.punctuation (c := '[') rfl)
  have hname := (hopen.append_lexes hkey).closed (c := ']') rfl
  have hline := hname.append (.punctuation (c := '\n') rfl)
  rwa [List.append_assoc] at hline

end TabCompletion.Toml
