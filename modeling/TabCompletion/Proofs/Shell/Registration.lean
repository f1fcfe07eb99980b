import TabCompletion.Proofs.Line.Patches
import TabCompletion.Proofs.Shell.QuotedWords
import TabCompletion.Proofs.Text.Cuts

/-!
# The line that registers a program

The last line of a hook registers the program. For Bash and Zsh it consists of words without a
meaning of their own and of the program's name in single quotes, so that it is read as the same
number of words whatever the name is. For Tcsh a rule in single quotes follows, and the names in the
rule are put in single quotes again; so they stand outside of all quotes.

* `lastLine`: the line that registers the program;
* `exposed`: the names that stand outside of quotes for Tcsh;
* `RuleParts`: the rule in pieces, with the names between them;
* `wordTexts_tcsh_of_quote`: a quote in a name leaves a quote open at the end of the rule;
* `registration_words`: how these lines are read;
* `registration_words_not_always_four`: a blank in a program's name breaks the rule for Tcsh.
-/

namespace TabCompletion.Hook

open Text Line Shell

variable {h : Hook} {ls : List String}

/-! ## 1. The last line -/

/-- The last line of a text in which every line ends with a line break. -/
def lastLine (text : String) : String :=
  (splitAfterLast '\n' (String.ofList text.toList.dropLast)).2

theorem lines_concat (ls : List String) (l : String) : lines (ls ++ [l]) = lines ls ++ (l ++ "\n") := by
  induction ls with
  | nil => simp [lines]
  | cons k ls ih =>
    have hcons : ∀ k ls, lines (k :: ls) = k ++ "\n" ++ lines ls := fun _ _ => rfl
    rw [List.cons_append, hcons, hcons, ih, ← String.append_assoc]

/-- Lines end with a line break. -/
theorem closed_lines (ls : List String) : Closed '\n' (lines ls) := by
  rcases List.eq_nil_or_concat ls with rfl | ⟨ls, l, rfl⟩
  · exact .inl rfl
  · refine .inr ⟨lines ls ++ l, ?_⟩
    rw [List.concat_eq_append, lines_concat, String.append_assoc]
    rfl

theorem lastLine_lines (hne : ls ≠ []) (hl : '\n' ∉ (ls.getLast hne).toList) :
    lastLine (lines ls) = ls.getLast hne := by
  obtain ⟨front, l, rfl⟩ : ∃ front l, ls = front ++ [l] :=
    ⟨ls.dropLast, ls.getLast hne, (List.dropLast_append_getLast hne).symm⟩
  rw [List.getLast_append_singleton] at hl ⊢
  have hchars : (lines (front ++ [l])).toList.dropLast = (lines front ++ l).toList := by
    rw [lines_concat, ← String.append_assoc, String.toList_append]
    exact List.dropLast_concat
  unfold lastLine
  rw [hchars, String.ofList_toList, splitAfterLast_append (closed_lines front) hl]

/-! ## 2. Bash and Zsh -/

theorem isLetter_of_isAlphanum {c : Char} (h : c.isAlphanum = true) : isLetter c = true := by
  have hrange : (65 ≤ c.toNat ∧ c.toNat ≤ 90 ∨ 97 ≤ c.toNat ∧ c.toNat ≤ 122)
      ∨ 48 ≤ c.toNat ∧ c.toNat ≤ 57 := by
    replace h : ((decide (c.val ≥ 65 ∧ c.val ≤ 90) || (decide (c.val ≥ 97) && decide (c.val ≤ 122)))
        || (decide (c.val ≥ 48) && decide (c.val ≤ 57))) = true := h
    simp only [Bool.or_eq_true, Bool.and_eq_true, decide_eq_true_eq, ge_iff_le,
      UInt32.le_iff_toNat_le] at h
    exact h
  have hne : ∀ d : Char, d.toNat < 48 ∨ d.toNat = 92 → c ≠ d := by
    intro d hd he
    subst he
    omega
  refine isLetter_iff.mpr ⟨?_, isBare_iff.mpr ⟨hne _ (.inr rfl), hne _ (.inl ?_), hne _ (.inl ?_)⟩⟩
  · refine Bool.eq_false_iff.mpr fun hb => ?_
    unfold isBlank at hb
    simp only [Bool.or_eq_true, Bool.and_eq_true, decide_eq_true_eq, beq_iff_eq] at hb
    omega
  · decide
  · decide

/-- The name of the function has only letters. -/
theorem isLetter_functionName (h : Hook) : ∀ c ∈ h.functionName.toList, isLetter c = true := by
  unfold functionName
  rw [String.toList_append]
  refine List.forall_mem_append.mpr ⟨List.all_eq_true.mp (by decide), fun c hc => ?_⟩
  rw [String.toList_ofList] at hc
  obtain ⟨d, -, rfl⟩ := List.mem_map.mp hc
  split
  · exact isLetter_of_isAlphanum (by assumption)
  · decide

theorem writes_functionName (h : Hook) :
    Scan.Writes h.functionName.toList h.functionName.toList := by
  refine Scan.writes_letters ?_ h.isLetter_functionName
  unfold functionName
  rw [String.toList_append]
  exact List.append_ne_nil_of_left_ne_nil (by decide) _

/-- Words in a line with a space between neighbours. -/
theorem wordTexts_of_writes {line : String} {forms texts : List (List Char)}
    (hline : line.toList = List.intercalate [' '] forms) (h : List.Forall₂ Scan.Writes forms texts)
    (cursor : Nat) : wordTexts line cursor = texts.map String.ofList := by
  rw [wordTexts_eq_map_text, hline, map_text_words_intercalate h (by decide)]

/-- A plain word is written as it is. -/
theorem writes_plainWord {w : String} (hne : w ≠ "") (hw : w.toList.all isLetter = true) :
    Scan.Writes w.toList w.toList :=
  Scan.writes_letters (mt String.toList_eq_nil_iff.mp hne) (List.all_eq_true.mp hw)

theorem writes_plainWords (ws : List String)
    (h : ∀ w ∈ ws, w ≠ "" ∧ w.toList.all isLetter = true) :
    List.Forall₂ Scan.Writes (ws.map String.toList) (ws.map String.toList) := by
  rw [List.forall₂_map_left_iff, List.forall₂_map_right_iff, List.forall₂_same]
  exact fun w hw => writes_plainWord (h w hw).1 (h w hw).2

/-- The last line for Bash. -/
theorem wordTexts_bash (h : Hook) (cursor : Nat) :
    wordTexts ("complete -o nospace -o default -o bashdefault -F " ++ h.functionName ++ " "
      ++ singleQuote h.program) cursor
      = ["complete", "-o", "nospace", "-o", "default", "-o", "bashdefault", "-F",
        h.functionName, h.program] := by
  have hwords := writes_plainWords
    ["complete", "-o", "nospace", "-o", "default", "-o", "bashdefault", "-F"] (by decide)
  have hforms := List.rel_append hwords
    (.cons h.writes_functionName (.cons (writes_singleQuote h.program) .nil))
  rw [wordTexts_of_writes (by simp [List.intercalate]) hforms]
  simp

/-- The last line for Zsh. -/
theorem wordTexts_zsh (h : Hook) (cursor : Nat) :
    wordTexts ("compdef " ++ h.functionName ++ " " ++ singleQuote h.program) cursor
      = ["compdef", h.functionName, h.program] := by
  have hforms := List.rel_append (writes_plainWords ["compdef"] (by decide))
    (.cons h.writes_functionName (.cons (writes_singleQuote h.program) .nil))
  rw [wordTexts_of_writes (by simp [List.intercalate]) hforms]
  simp

/-! ## 3. The rule for Tcsh -/

/-- The names that are put in single quotes within the rule for Tcsh. -/
def exposed (h : Hook) : List String :=
  match h.deputy with
  | some d => [d.specFile, d.executable]
  | none => [h.program]

/-- The rule for Tcsh with its quotes. -/
def tcshRule (h : Hook) : String :=
  "'p@*@\x60env _ARGCOMP=1 _ARGCOMP_SHELL=tcsh " ++ h.invocation (singleQuote h.program) ++ "\x60@'"

/-- The last line for Tcsh. -/
def tcshLine (h : Hook) : String :=
  "complete " ++ singleQuote h.program ++ " " ++ h.tcshRule ++ " ;"

theorem tcsh_eq (h : Hook) : h.tcsh = lines [h.title, h.tcshLine] := by
  have hline : "complete " ++ singleQuote h.program ++ " 'p@*@\x60env " ++ RequestVar.request.name
      ++ "=1 " ++ RequestVar.shell.name ++ "=tcsh " ++ h.invocation (singleQuote h.program)
      ++ "\x60@' ;" = h.tcshLine := by
    apply String.ext
    unfold tcshLine tcshRule RequestVar.name
    simp only [String.toList_append, List.append_assoc]
    rfl
  unfold tcsh
  dsimp only
  exact congrArg (fun l => lines [h.title, l]) hline

/-- The rule as it is meant, with the names as they are. -/
def meantRule (h : Hook) : String :=
  let command := match h.deputy with
    | some d => specFileVar ++ "=" ++ d.specFile ++ " " ++ d.executable
    | none => h.program
  "p@*@\x60env _ARGCOMP=1 _ARGCOMP_SHELL=tcsh " ++ command ++ "\x60@"

/-- A text in single quotes in which names are quoted again: `q` stands in front of the first name,
    and each name has its piece behind it. -/
def nested (q : List Char) (pieces : List (List Char × List Char)) : List Char :=
  '\'' :: q ++ (pieces.flatMap fun p => quotedForm p.1 ++ p.2) ++ ['\'']

/-- The rule is made of these pieces. What stands between the names has no quotes. -/
structure RuleParts (h : Hook) (q : List Char) (pieces : List (List Char × List Char)) : Prop where
  rule : h.tcshRule.toList = nested q pieces
  meant : h.meantRule.toList = q ++ pieces.flatMap fun p => p.1 ++ p.2
  names : pieces.map (·.1) = h.exposed.map String.toList
  front : '\'' ∉ q
  between : ∀ p ∈ pieces, ∀ c ∈ p.2, isBare c = true

theorem exists_ruleParts (h : Hook) : ∃ q pieces, h.RuleParts q pieces := by
  obtain ⟨program, sh, deputy⟩ := h
  cases deputy with
  | none =>
    refine ⟨"p@*@\x60env _ARGCOMP=1 _ARGCOMP_SHELL=tcsh ".toList, [(program.toList, ['\x60', '@'])],
      ?_, ?_, rfl, by decide, by simp [isBare]⟩
    · unfold tcshRule invocation
      dsimp only
      rw [String.toList_append, String.toList_append, toList_singleQuote]
      simp [nested]
    · unfold meantRule
      simp
  | some d =>
    refine ⟨"p@*@\x60env _ARGCOMP=1 _ARGCOMP_SHELL=tcsh _ARGCOMP_SPEC_FILE=".toList,
      [(d.specFile.toList, [' ']), (d.executable.toList, ['\x60', '@'])], ?_, ?_, rfl, by decide,
      by simp [isBare]⟩
    · unfold tcshRule invocation specFileVar
      dsimp only
      simp only [String.toList_append, toList_singleQuote]
      simp [nested]
    · unfold meantRule specFileVar
      simp

/-- What stands in front of the rule. -/
def tcshFront (h : Hook) : List Char :=
  "complete".toList ++ [' '] ++ (singleQuote h.program).toList ++ [' ']

theorem toList_tcshLine (h : Hook) :
    h.tcshLine.toList = h.tcshFront ++ (h.tcshRule.toList ++ [' ', ';']) := by
  unfold tcshLine tcshFront
  simp

/-- Two words with a blank behind each are finished. -/
theorem rests_two {form text form' text' : List Char} (h : Scan.Writes form text)
    (h' : Scan.Writes form' text') :
    Scan.Rests ((form ++ [' '] ++ form' ++ [' ']).foldl Scan.step Scan.start) [text, text'] := by
  have hfirst := Scan.rests_start.blank (h Scan.start rfl) (c := ' ') (by decide)
  have hsecond := hfirst.blank (h' _ hfirst.mode) (c := ' ') (by decide)
  rw [List.foldl_append, List.foldl_append, List.foldl_append]
  exact hsecond

/-- In front of the rule two words are finished. -/
theorem rests_tcshFront (h : Hook) :
    Scan.Rests (h.tcshFront.foldl Scan.step Scan.start) ["complete".toList, h.program.toList] :=
  rests_two (writes_plainWord (by decide) (by decide)) (writes_singleQuote h.program)

/-- **The name of the program is the second word**, whatever becomes of the rule. -/
theorem wordTexts_tcsh (h : Hook) (cursor : Nat) :
    ∃ rest, wordTexts h.tcshLine cursor = "complete" :: h.program :: rest := by
  have hprefix : ["complete".toList, h.program.toList]
      <+: (words h.tcshLine.toList).map (·.text) := by
    rw [← h.rests_tcshFront.texts]
    refine List.IsPrefix.map _ (List.IsPrefix.trans ?_ (Scan.done_prefix_finish _))
    rw [toList_tcshLine, List.foldl_append]
    exact List.reverse_prefix.mpr (Scan.done_suffix_run _ _)
  obtain ⟨rest, hrest⟩ := hprefix
  refine ⟨rest.map String.ofList, ?_⟩
  rw [wordTexts_eq_map_text, ← hrest]
  simp

/-! ## 4. Names without quotes in the rule -/

variable {q : List Char} {pieces : List (List Char × List Char)}

theorem flatMap_singleForm_of_not_mem {cs : List Char} (h : '\'' ∉ cs) :
    cs.flatMap singleForm = cs := by
  have hform : ∀ c ∈ cs, singleForm c = [c] := fun c hc =>
    if_neg fun he : c = '\'' => h (he ▸ hc)
  rw [List.flatMap_congr hform, List.flatMap_singleton']

/-- **Names without quotes are the bare pieces of the rule**: the quotes around them end the quoted
    piece before and begin the one behind. -/
theorem nested_eq_patch (h : ∀ p ∈ pieces, '\'' ∉ p.1) : nested q pieces = patch q pieces := by
  unfold nested
  induction pieces generalizing q with
  | nil => simp [patch, inQuotes]
  | cons p pieces ih =>
    obtain ⟨name, q'⟩ := p
    obtain ⟨hname, hnames⟩ := List.forall_mem_cons.mp h
    rw [patch_cons, ← ih hnames, List.flatMap_cons]
    unfold quotedForm inQuotes
    rw [flatMap_singleForm_of_not_mem hname]
    simp

/-- What holds of the names holds of the pieces that stand for them. -/
theorem RuleParts.forall_names (hr : h.RuleParts q pieces) (P : Char → Prop) :
    (∀ x ∈ h.exposed, ∀ c ∈ x.toList, P c) ↔ ∀ p ∈ pieces, ∀ c ∈ p.1, P c := by
  rw [← List.forall_mem_map (f := Prod.fst) (P := fun l => ∀ c ∈ l, P c), hr.names,
    List.forall_mem_map]

/-- What stands between the names is a quoted piece. -/
theorem RuleParts.quoted (hr : h.RuleParts q pieces) : ∀ p ∈ pieces, '\'' ∉ p.2 :=
  fun p hp hc => (isBare_iff.mp (hr.between p hp _ hc)).2.1 rfl

theorem RuleParts.rule_eq_patch (hr : h.RuleParts q pieces)
    (hbare : ∀ p ∈ pieces, ∀ c ∈ p.1, isBare c = true) : h.tcshRule.toList = patch q pieces := by
  rw [hr.rule]
  exact nested_eq_patch fun p hp hc => (isBare_iff.mp (hbare p hp _ hc)).2.1 rfl

/-- Without blanks in them the names leave the rule in one piece. -/
theorem wordTexts_tcsh_of_letters (hr : h.RuleParts q pieces)
    (hletters : ∀ p ∈ pieces, ∀ c ∈ p.1, isLetter c = true) (cursor : Nat) :
    wordTexts h.tcshLine cursor = ["complete", h.program, h.meantRule, ";"] := by
  have hrule := hr.rule_eq_patch fun p hp c hc => (isLetter_iff.mp (hletters p hp c hc)).2
  have hwrites : Scan.Writes h.tcshRule.toList h.meantRule.toList := by
    rw [hrule, hr.meant]
    exact Scan.writes_patch hr.front hr.quoted hletters
  have hforms : List.Forall₂ Scan.Writes
      ["complete".toList, (singleQuote h.program).toList, h.tcshRule.toList, [';']]
      ["complete".toList, h.program.toList, h.meantRule.toList, [';']] :=
    .cons (writes_plainWord (by decide) (by decide)) (.cons (writes_singleQuote h.program)
      (.cons hwrites (.cons (writes_plainWord (w := ";") (by decide) (by decide)) .nil)))
  have hline : h.tcshLine.toList = List.intercalate [' ']
      ["complete".toList, (singleQuote h.program).toList, h.tcshRule.toList, [';']] := by
    rw [toList_tcshLine]
    unfold tcshFront
    generalize "complete".toList = first
    simp [List.intercalate]
  rw [wordTexts_of_writes hline hforms]
  simp

/-- With a blank in one of them it falls apart. -/
theorem lt_length_wordTexts_tcsh (hr : h.RuleParts q pieces)
    (hbare : ∀ p ∈ pieces, ∀ c ∈ p.1, isBare c = true)
    (hblank : ∃ p ∈ pieces, ∃ c ∈ p.1, isBlank c = true) (cursor : Nat) :
    4 < (wordTexts h.tcshLine cursor).length := by
  have hrule := hr.rule_eq_patch hbare
  have hfront := h.rests_tcshFront
  have hdone : (h.tcshFront.foldl Scan.step Scan.start).done.length = 2 := by
    have hlen := congrArg List.length hfront.texts
    simpa using hlen
  have hparts := Scan.parts_patch hfront.mode hr.front hr.quoted hbare
  have hbroken := hparts.breaks hblank
  have hspace := Scan.done_step_blank hparts.mode hparts.begun (c := ' ') (by decide)
  have hmode := (Scan.spelled_blank hparts.mode (c := ' ') (by decide)).1
  have hlast := Scan.spells_letter hmode (c := ';') (by decide)
  have hwords : (words h.tcshLine.toList).length
      = (((patch q pieces).foldl Scan.step (h.tcshFront.foldl Scan.step Scan.start)).step ' ').done.length
        + 1 := by
    unfold words
    rw [toList_tcshLine, List.foldl_append, List.foldl_append, hrule]
    rw [← hlast.done]
    exact Scan.length_finish hlast.mode hlast.begun
  rw [wordTexts_eq_map_text, List.length_map, List.length_map, hwords]
  omega

/-- **Names without quotes and backslashes leave the rule in one piece iff they have no blanks.** -/
theorem length_wordTexts_tcsh_iff (hbare : ∀ x ∈ h.exposed, ∀ c ∈ x.toList, isBare c = true)
    (cursor : Nat) : (wordTexts h.tcshLine cursor).length = 4 ↔
      ∀ x ∈ h.exposed, ∀ c ∈ x.toList, isBlank c = false := by
  obtain ⟨q, pieces, hr⟩ := h.exists_ruleParts
  rw [hr.forall_names fun c => isBlank c = false]
  rw [hr.forall_names fun c => isBare c = true] at hbare
  constructor
  · intro hlen p hp c hc
    refine Bool.eq_false_iff.mpr fun hb => ?_
    have hlt := lt_length_wordTexts_tcsh hr hbare ⟨p, hp, c, hc, hb⟩ cursor
    omega
  · intro hblank
    rw [wordTexts_tcsh_of_letters hr fun p hp c hc =>
      isLetter_iff.mpr ⟨hblank p hp c hc, hbare p hp c hc⟩]
    rfl

/-! ## 5. Names with quotes in the rule -/

/-- A character that outside quotes is a letter, a blank, or a single quote. -/
def Unescaped (c : Char) : Prop := c ≠ '\\' ∧ c ≠ '"'

theorem isBare_of_unescaped {name : List Char} (hname : ∀ c ∈ name, Unescaped c)
    (hq : '\'' ∉ name) : ∀ c ∈ name, isBare c = true := fun c hc =>
  isBare_iff.mpr ⟨(hname c hc).1, fun he => hq (he ▸ hc), (hname c hc).2⟩

variable {s : Scan} {name : List Char}

/-- A name without quotes closes the quote that is open, and opens it again. -/
theorem mode_quotedForm (hm : s.mode = .single) (hname : ∀ c ∈ name, Unescaped c)
    (hq : '\'' ∉ name) : ((quotedForm name).foldl Scan.step s).mode = .single := by
  have hclose := Scan.spells_close_single hm
  have hplain := Scan.mode_run_bare hclose.mode (isBare_of_unescaped hname hq)
  unfold quotedForm
  rw [flatMap_singleForm_of_not_mem hq, List.cons_append, List.foldl_cons, List.foldl_append]
  exact (Scan.spells_open_single hplain).mode

/-- **A quote in a name reverses what is quoted from there on**, so that behind the name no quote is
    open. -/
theorem mode_quotedForm_of_mem (hm : s.mode = .single) (hname : ∀ c ∈ name, Unescaped c)
    (hq : '\'' ∈ name) : ((quotedForm name).foldl Scan.step s).mode = .plain := by
  obtain ⟨before, behind, rfl, hbefore⟩ := List.eq_append_cons_of_mem hq
  have hclose := Scan.spells_close_single hm
  have hplain := Scan.mode_run_bare hclose.mode
    (isBare_of_unescaped (fun c hc => hname c (List.mem_append_left _ hc)) hbefore)
  -- the four characters that stand for the first quote in the name
  have hopen := Scan.spells_open_single hplain
  have hslash := Scan.spells_single hopen.mode (c := '\\') (by decide)
  have hopen' := Scan.spells_open_single (Scan.spells_close_single hslash.mode).mode
  have hrest := spells_singleForms hopen'.mode hopen'.begun behind
  have hform : quotedForm (before ++ '\'' :: behind)
      = '\'' :: before ++ ['\'', '\\', '\'', '\''] ++ behind.flatMap singleForm ++ ['\''] := by
    unfold quotedForm
    rw [List.flatMap_append, List.flatMap_cons, flatMap_singleForm_of_not_mem hbefore]
    simp [singleForm]
  rw [hform, List.foldl_append, List.foldl_append, List.foldl_append]
  exact (Scan.spells_close_single hrest.mode).mode

/-- Behind the names no quote is open if there was none in front of them, or if one of them has a
    quote. -/
theorem mode_pieces (hnames : ∀ p ∈ pieces, ∀ c ∈ p.1, Unescaped c)
    (hbetween : ∀ p ∈ pieces, ∀ c ∈ p.2, isBare c = true)
    (hs : s.mode = .plain ∨ s.mode = .single ∧ ∃ p ∈ pieces, '\'' ∈ p.1) :
    ((pieces.flatMap fun p => quotedForm p.1 ++ p.2).foldl Scan.step s).mode = .plain := by
  induction pieces generalizing s with
  | nil => exact hs.resolve_right fun hq => by simp at hq
  | cons p pieces ih =>
    obtain ⟨name, piece⟩ := p
    obtain ⟨hname, hnames⟩ := List.forall_mem_cons.mp hnames
    obtain ⟨hpiece, hbetween⟩ := List.forall_mem_cons.mp hbetween
    rw [List.flatMap_cons, List.foldl_append, List.foldl_append]
    refine ih hnames hbetween ?_
    rcases hs with hm | ⟨hm, hq⟩
    · exact .inl (Scan.mode_run_bare (writes_quotedForm name _ hm).mode hpiece)
    · by_cases hmem : '\'' ∈ name
      · exact .inl (Scan.mode_run_bare (mode_quotedForm_of_mem hm hname hmem) hpiece)
      · refine .inr ⟨Scan.mode_run_single (mode_quotedForm hm hname hmem) fun hc => ?_, ?_⟩
        · exact (isBare_iff.mp (hpiece _ hc)).2.1 rfl
        · obtain ⟨p, hp, hc⟩ := hq
          rcases List.mem_cons.mp hp with rfl | hp
          · exact absurd hc hmem
          · exact ⟨p, hp, hc⟩

/-- **A quote in a name leaves a quote open at the end of the rule**, which takes in the rest of the
    line. -/
theorem wordTexts_tcsh_of_quote (hr : h.RuleParts q pieces)
    (hnames : ∀ p ∈ pieces, ∀ c ∈ p.1, Unescaped c) (hq : ∃ p ∈ pieces, '\'' ∈ p.1)
    (cursor : Nat) :
    ∃ front last, wordTexts h.tcshLine cursor = front ++ [last] ∧ [' ', ';'] <:+ last.toList := by
  have hopen := Scan.spells_open_single h.rests_tcshFront.mode
  have hsingle := Scan.mode_run_single hopen.mode hr.front
  have hplain := mode_pieces hnames hr.between (.inr ⟨hsingle, hq⟩)
  -- the quote that ought to close the rule opens one
  have hreopen := Scan.spells_open_single hplain
  have hspace := Scan.spells_single hreopen.mode (c := ' ') (by decide)
  have hrest := hspace.trans (Scan.spells_single hspace.mode (c := ';') (by decide))
  obtain ⟨ws, w, hfinish, hlast⟩ := Scan.finish_of_single hrest.mode hrest
  refine ⟨ws.map (String.ofList ·.text), String.ofList w.text, ?_, ?_⟩
  · have hline : h.tcshLine.toList = h.tcshFront ++ ('\'' :: (q
        ++ ((pieces.flatMap fun p => quotedForm p.1 ++ p.2) ++ ['\'', ' ', ';']))) := by
      rw [toList_tcshLine, hr.rule]
      unfold nested
      simp
    have hwords : words h.tcshLine.toList = ws ++ [w] := by
      unfold words
      rw [hline, List.foldl_append, List.foldl_cons, List.foldl_append, List.foldl_append]
      exact hfinish
    rw [wordTexts_eq_map_text, hwords]
    simp
  · rw [String.toList_ofList]
    exact hlast

/-- **Names without double quotes and backslashes leave the rule as it is meant iff they have neither
    blanks nor quotes.** -/
theorem wordTexts_tcsh_iff (hnames : ∀ x ∈ h.exposed, ∀ c ∈ x.toList, Unescaped c) (cursor : Nat) :
    wordTexts h.tcshLine cursor = ["complete", h.program, h.meantRule, ";"] ↔
      ∀ x ∈ h.exposed, ∀ c ∈ x.toList, isBlank c = false ∧ c ≠ '\'' := by
  obtain ⟨q, pieces, hr⟩ := h.exists_ruleParts
  constructor
  · intro hwords
    have hnoQuote : ∀ x ∈ h.exposed, ∀ c ∈ x.toList, c ≠ '\'' := by
      rw [hr.forall_names]
      rintro p hp c hc rfl
      obtain ⟨front, last, hopen, hlast⟩ := wordTexts_tcsh_of_quote hr
        ((hr.forall_names Unescaped).mp hnames) ⟨p, hp, hc⟩ cursor
      have hend := congrArg List.getLast? (hopen.symm.trans hwords)
      rw [List.getLast?_concat] at hend
      obtain rfl : last = ";" := Option.some.inj hend
      exact absurd hlast.length_le (by decide)
    have hbare : ∀ x ∈ h.exposed, ∀ c ∈ x.toList, isBare c = true := fun x hx c hc =>
      isBare_iff.mpr ⟨(hnames x hx c hc).1, hnoQuote x hx c hc, (hnames x hx c hc).2⟩
    have hblank := (length_wordTexts_tcsh_iff hbare cursor).mp (by rw [hwords]; rfl)
    exact fun x hx c hc => ⟨hblank x hx c hc, hnoQuote x hx c hc⟩
  · intro hplain
    refine wordTexts_tcsh_of_letters hr (fun p hp c hc => ?_) cursor
    obtain ⟨hb, hquote⟩ := (hr.forall_names fun c => isBlank c = false ∧ c ≠ '\'').mp hplain p hp c hc
    obtain ⟨hslash, hdouble⟩ := (hr.forall_names Unescaped).mp hnames p hp c hc
    exact isLetter_iff.mpr ⟨hb, isBare_iff.mpr ⟨hslash, hquote, hdouble⟩⟩

/-! ## 6. The names on one line -/

/-- The names have no line breaks. -/
structure OnOneLine (program : String) (deputy : Option Deputy) : Prop where
  program : '\n' ∉ program.toList
  deputy : ∀ d ∈ deputy, '\n' ∉ d.specFile.toList ∧ '\n' ∉ d.executable.toList

theorem not_mem_singleQuote {word : String} (h : '\n' ∉ word.toList) :
    '\n' ∉ (singleQuote word).toList := by
  unfold singleQuote
  rw [String.toList_append, String.toList_append]
  refine List.not_mem_append (List.not_mem_append (by decide) fun hc => ?_) (by decide)
  rcases mem_toList_replaceChar hc with hc | ⟨hc, -⟩
  · exact absurd hc (by decide)
  · exact h hc

theorem not_mem_functionName (h : Hook) : '\n' ∉ h.functionName.toList := fun hc =>
  absurd (h.isLetter_functionName _ hc) (by decide)

theorem not_mem_tcshLine (ho : OnOneLine h.program h.deputy) : '\n' ∉ h.tcshLine.toList := by
  have hprogram := not_mem_singleQuote ho.program
  have hinvocation : '\n' ∉ (h.invocation (singleQuote h.program)).toList := by
    obtain ⟨program, sh, deputy⟩ := h
    cases deputy with
    | none => exact hprogram
    | some d =>
      obtain ⟨hfile, hexe⟩ := ho.deputy d rfl
      unfold invocation specFileVar
      simp only [String.toList_append, List.mem_append, not_or]
      exact ⟨⟨⟨⟨by decide, by decide⟩, not_mem_singleQuote hfile⟩, by decide⟩,
        not_mem_singleQuote hexe⟩
  unfold tcshLine tcshRule
  simp only [String.toList_append, List.mem_append, not_or]
  exact ⟨⟨⟨⟨by decide, hprogram⟩, by decide⟩, ⟨by decide, hinvocation⟩, by decide⟩, by decide⟩

/-- The function's name and the program's bring in no line break. -/
theorem not_mem_plainLine {front : String} (hfront : '\n' ∉ front.toList)
    (hp : '\n' ∉ h.program.toList) :
    '\n' ∉ (front ++ h.functionName ++ " " ++ singleQuote h.program).toList := by
  simp only [String.toList_append, List.mem_append, not_or]
  exact ⟨⟨⟨hfront, h.not_mem_functionName⟩, by decide⟩, not_mem_singleQuote hp⟩

theorem lastLine_bash (ho : OnOneLine h.program h.deputy) : lastLine h.bash
    = "complete -o nospace -o default -o bashdefault -F " ++ h.functionName ++ " "
      ++ singleQuote h.program :=
  lastLine_lines (List.cons_ne_nil _ _) (not_mem_plainLine (by decide) ho.program)

theorem lastLine_zsh (ho : OnOneLine h.program h.deputy) :
    lastLine h.zsh = "compdef " ++ h.functionName ++ " " ++ singleQuote h.program :=
  lastLine_lines (List.cons_ne_nil _ _) (not_mem_plainLine (by decide) ho.program)

theorem lastLine_tcsh (ho : OnOneLine h.program h.deputy) : lastLine h.tcsh = h.tcshLine := by
  rw [tcsh_eq]
  exact lastLine_lines (List.cons_ne_nil _ _) (not_mem_tcshLine ho)

/-! ## 7. All shells -/

/-- The words of the line that registers the program. -/
def registration (h : Hook) (cursor : Nat) : List String := wordTexts (lastLine h.text) cursor

variable {program : String} {deputy : Option Deputy}

theorem registration_tcsh (ho : OnOneLine program deputy) (cursor : Nat) :
    registration ⟨program, .tcsh, deputy⟩ cursor
      = wordTexts (tcshLine ⟨program, .tcsh, deputy⟩) cursor := by
  unfold registration
  exact congrArg (wordTexts · cursor) (lastLine_tcsh (h := ⟨program, .tcsh, deputy⟩) ho)

/-- How the line that registers a program is read. -/
structure Registers (program : String) (deputy : Option Deputy) (cursor : Nat) : Prop where
  /-- Bash gets ten words, the last of which is the program. -/
  bash : registration ⟨program, .bash, deputy⟩ cursor
    = ["complete", "-o", "nospace", "-o", "default", "-o", "bashdefault", "-F",
      functionName ⟨program, .bash, deputy⟩, program]
  /-- Zsh gets three. -/
  zsh : registration ⟨program, .zsh, deputy⟩ cursor
    = ["compdef", functionName ⟨program, .zsh, deputy⟩, program]
  /-- For Tcsh the program is the second word. -/
  tcsh : ∃ rest, registration ⟨program, .tcsh, deputy⟩ cursor = "complete" :: program :: rest
  /-- Of names without quotes and backslashes, those without blanks make four words for Tcsh. -/
  tcshLength : (∀ x ∈ exposed ⟨program, .tcsh, deputy⟩, ∀ c ∈ x.toList, isBare c = true) →
    ((registration ⟨program, .tcsh, deputy⟩ cursor).length = 4 ↔
      ∀ x ∈ exposed ⟨program, .tcsh, deputy⟩, ∀ c ∈ x.toList, isBlank c = false)
  /-- Of names without double quotes and backslashes, those with neither blanks nor quotes make the
      four words that are meant. -/
  tcshMeant : (∀ x ∈ exposed ⟨program, .tcsh, deputy⟩, ∀ c ∈ x.toList, Unescaped c) →
    (registration ⟨program, .tcsh, deputy⟩ cursor
        = ["complete", program, meantRule ⟨program, .tcsh, deputy⟩, ";"] ↔
      ∀ x ∈ exposed ⟨program, .tcsh, deputy⟩, ∀ c ∈ x.toList, isBlank c = false ∧ c ≠ '\'')
  /-- With a quote in one of them the last word takes in the end of the line. -/
  tcshQuote : (∀ x ∈ exposed ⟨program, .tcsh, deputy⟩, ∀ c ∈ x.toList, Unescaped c) →
    (∃ x ∈ exposed ⟨program, .tcsh, deputy⟩, '\'' ∈ x.toList) →
      ∃ front last, registration ⟨program, .tcsh, deputy⟩ cursor = front ++ [last]
        ∧ [' ', ';'] <:+ last.toList

/-- **The program is registered under its own name**: for Bash with ten words and for Zsh with three
    whatever the names are, and for Tcsh as the second word. The rule for Tcsh leaves the names it
    has outside quotes, so that a blank in one of them breaks it, and a quote leaves a quote open. -/
theorem registration_words (ho : OnOneLine program deputy) (cursor : Nat) :
    Registers program deputy cursor := by
  have hbash : lastLine (Hook.text ⟨program, .bash, deputy⟩) = _ :=
    lastLine_bash (h := ⟨program, .bash, deputy⟩) ho
  have hzsh : lastLine (Hook.text ⟨program, .zsh, deputy⟩) = _ :=
    lastLine_zsh (h := ⟨program, .zsh, deputy⟩) ho
  have htcsh := registration_tcsh ho cursor
  constructor
  case bash =>
    unfold registration
    rw [hbash]
    exact wordTexts_bash _ cursor
  case zsh =>
    unfold registration
    rw [hzsh]
    exact wordTexts_zsh _ cursor
  case tcsh =>
    rw [htcsh]
    exact wordTexts_tcsh _ cursor
  case tcshLength =>
    intro hbare
    rw [htcsh]
    exact length_wordTexts_tcsh_iff hbare cursor
  case tcshMeant =>
    intro hnames
    rw [htcsh]
    exact wordTexts_tcsh_iff hnames cursor
  case tcshQuote =>
    intro hnames hq
    obtain ⟨q, pieces, hr⟩ := exists_ruleParts ⟨program, .tcsh, deputy⟩
    rw [htcsh]
    refine wordTexts_tcsh_of_quote hr ((hr.forall_names Unescaped).mp hnames) ?_ cursor
    by_contra hnone
    obtain ⟨x, hx, hc⟩ := hq
    refine (hr.forall_names fun c => c ≠ '\'').mpr (fun p hp c hc he => ?_) x hx _ hc rfl
    exact hnone ⟨p, hp, he ▸ hc⟩

/-- A deputy whose path has a blank: the rule for Tcsh falls apart. A program whose name has a quote:
    the rule does not end. -/
theorem registration_words_deputy :
    OnOneLine "git" (some ⟨"/etc/git specs.json", "argcomp"⟩)
      ∧ (∀ x ∈ exposed ⟨"git", .tcsh, some ⟨"/etc/git specs.json", "argcomp"⟩⟩,
        ∀ c ∈ x.toList, isBare c = true)
      ∧ registration ⟨"git", .bash, some ⟨"/etc/git specs.json", "argcomp"⟩⟩ 0
        = ["complete", "-o", "nospace", "-o", "default", "-o", "bashdefault", "-F",
          "_argcomp_git", "git"]
      ∧ (registration ⟨"git", .tcsh, some ⟨"/etc/git specs.json", "argcomp"⟩⟩ 0).length ≠ 4
      ∧ registration ⟨"it's", .tcsh, none⟩ 0
        ≠ ["complete", "it's", meantRule ⟨"it's", .tcsh, none⟩, ";"] := by
  have ho : OnOneLine "git" (some ⟨"/etc/git specs.json", "argcomp"⟩) :=
    ⟨by decide, fun d hd => by cases hd; decide⟩
  have hnames : ∀ x ∈ exposed ⟨"git", .tcsh, some ⟨"/etc/git specs.json", "argcomp"⟩⟩,
      x.toList.all isBare = true := by decide
  have hbare := fun x hx => List.all_eq_true.mp (hnames x hx)
  have hlaws := registration_words ho 0
  have ho' : OnOneLine "it's" none := ⟨by decide, fun d hd => by cases hd⟩
  have hquoted := registration_words ho' 0
  have hunescaped : ∀ x ∈ exposed ⟨"it's", .tcsh, none⟩, ∀ c ∈ x.toList, Unescaped c := by
    refine List.forall_mem_singleton.mpr fun c hc => ⟨?_, ?_⟩ <;> rintro rfl <;>
      exact absurd hc (by decide)
  refine ⟨ho, hbare, ?_, fun hlen => ?_, fun hwords => ?_⟩
  · rw [hlaws.bash]
    decide
  · have hblank := (hlaws.tcshLength hbare).mp hlen "/etc/git specs.json" List.mem_cons_self ' '
      (by decide)
    exact absurd hblank (by decide)
  · have hquote := (hquoted.tcshMeant hunescaped).mp hwords "it's" List.mem_cons_self '\''
      (by decide)
    exact hquote.2 rfl

/-- **A blank in a program's name is enough to break the rule for Tcsh.** -/
theorem registration_words_not_always_four :
    ¬ ∀ (program : String) (deputy : Option Deputy), OnOneLine program deputy → ∀ cursor,
      (registration ⟨program, .tcsh, deputy⟩ cursor).length = 4 := by
  intro hall
  have ho : OnOneLine "my prog" none := ⟨by decide, fun d hd => by cases hd⟩
  have hbare : ∀ x ∈ exposed ⟨"my prog", .tcsh, none⟩, ∀ c ∈ x.toList, isBare c = true :=
    List.forall_mem_singleton.mpr (List.all_eq_true.mp (by decide))
  have hlen := hall "my prog" none ho 0
  rw [registration_tcsh ho] at hlen
  have hblank := (length_wordTexts_tcsh_iff hbare 0).mp hlen "my prog" List.mem_cons_self ' '
    (by decide)
  exact absurd hblank (by decide)

end TabCompletion.Hook
