import Mathlib.Order.Bounds.Defs
import TabCompletion.Proofs.Line.Layout
import TabCompletion.Proofs.Text.Cuts
import TabCompletion.Proofs.Text.Numerals
import TabCompletion.Shell.Request

/-!
# Which environments hold a request

A request is spread over many variables, and each shell has rules of its own for them. The rules are
given here as relations between the environment and what is asked, one for each part of a request;
the request is decoded iff every part is there.

* `AskedBy`, `Points`, `AnswersTo`: the shell that asks, the line with a place in it, and the channel;
* `shell?_eq_some_iff`, `line?_eq_some_iff`, `channel?_eq_some_iff`: each part is read as these say;
* `isGreatest_clampCursor`: the cursor is the last character boundary up to the place;
* `decode_exact`: the law for whole requests.
-/

namespace TabCompletion

open Text Line

variable {env : Environment} {sh : Shell} {line name : String} {channel : Channel}
  {v : RequestVar}

/-! ## 1. Names of shells -/

namespace Shell

/-- The names under which a shell is known. -/
def names : Shell → List String
  | .bash => ["bash"]
  | .zsh => ["zsh"]
  | .tcsh => ["tcsh", "csh"]
  | .fish => ["fish"]
  | .powershell => ["powershell", "pwsh"]

/-- The text is a name of the shell in letters of either case, with blanks around it. -/
def IsCalled (sh : Shell) (text : String) : Prop :=
  ∃ core, Padded text core ∧ ∃ name ∈ sh.names, core.map Char.toLower = name.toList

theorem ofLowerName?_eq_some_iff : ofLowerName? name = some sh ↔ name ∈ sh.names := by
  constructor
  · intro h
    unfold ofLowerName? at h
    split at h <;> cases h <;> decide
  · intro h
    cases sh <;> simp only [names, List.mem_cons, List.not_mem_nil, or_false] at h
    case tcsh => rcases h with rfl | rfl <;> rfl
    case powershell => rcases h with rfl | rfl <;> rfl
    all_goals subst h; rfl

theorem toLower_of_isBlank {c : Char} (h : isBlank c = true) : c.toLower = c := by
  unfold Char.toLower
  rw [dif_neg]
  intro hc
  obtain ⟨hlow, hhigh⟩ := hc
  have hlow : 65 ≤ c.toNat := UInt32.le_iff_toNat_le.mp hlow
  have hhigh : c.toNat ≤ 90 := UInt32.le_iff_toNat_le.mp hhigh
  unfold isBlank at h
  simp only [Bool.or_eq_true, Bool.and_eq_true, decide_eq_true_eq, beq_iff_eq] at h
  omega

/-- A name has no blanks, in letters of whatever case. -/
theorem isBlank_eq_false_of_toLower {core : List Char} (hname : name ∈ sh.names)
    (h : core.map Char.toLower = name.toList) : ∀ c ∈ core, isBlank c = false := by
  intro c hc
  refine Bool.eq_false_iff.mpr fun hb => ?_
  have hmem : c ∈ name.toList := by
    rw [← h, ← toLower_of_isBlank hb]
    exact List.mem_map_of_mem hc
  have hnames : ∀ sh : Shell, ∀ name ∈ sh.names, name.toList.any isBlank = false := by
    intro sh
    cases sh <;> decide
  exact absurd hb (List.any_eq_false.mp (hnames sh name hname) c hmem)

theorem ofName?_eq_some_iff : ofName? name = some sh ↔ sh.IsCalled name := by
  unfold ofName?
  rw [ofLowerName?_eq_some_iff]
  constructor
  · intro h
    exact ⟨_, padded_trim name, _, h, String.toList_ofList.symm⟩
  · intro h
    obtain ⟨core, hcore, known, hknown, hlower⟩ := h
    rw [hcore.toList_trim (isBlank_eq_false_of_toLower hknown hlower), hlower,
      String.ofList_toList]
    exact hknown

theorem not_isCalled_empty (sh : Shell) : ¬ sh.IsCalled "" := by
  rw [← ofName?_eq_some_iff]
  exact fun h => nomatch h

end Shell

/-! ## 2. The parts of a request -/

namespace ShellRequest

/-- The variable has a value, neither empty nor `0`. -/
def SwitchedOn (env : Environment) (v : RequestVar) : Prop :=
  ∃ s, value? env v = some s ∧ s ≠ "" ∧ s ≠ "0"

/-- The shell that asks; Bash if it is not named. -/
inductive AskedBy (env : Environment) : Shell → Prop
  | unset (h : value? env .shell = none) : AskedBy env .bash
  | empty (h : value? env .shell = some "") : AskedBy env .bash
  | named {name : String} {sh : Shell} (h : value? env .shell = some name)
      (hname : sh.IsCalled name) : AskedBy env sh

/-- The line and a place in it, in bytes. Tcsh may give the line up to the cursor and nothing else. -/
inductive Points (env : Environment) : Shell → String → Nat → Prop
  | upToCursor {line : String} (h : value? env .tcshLine = some line) :
      Points env .tcsh line line.utf8ByteSize
  | pointed {sh : Shell} {line text : String} {point : Nat}
      (htcsh : sh = .tcsh → value? env .tcshLine = none) (hline : value? env .line = some line)
      (htext : value? env .point = some text) (hpoint : Numeral plusSigns text point)
      (hbound : point < wordBound) : Points env sh line point

/-- The channel for the answer. -/
inductive AnswersTo (env : Environment) : Shell → Channel → Prop
  | tempFile {sh : Shell} {path : String} (h : sh = .powershell ∨ SwitchedOn env .useTempFile)
      (hpath : value? env .tempFileName = some path) (hne : path ≠ "") :
      AnswersTo env sh (.tempFile path)
  | stdout (h : ¬ SwitchedOn env .useTempFile) : AnswersTo env .tcsh .stdout
  | usual {sh : Shell} (hps : sh ≠ .powershell) (htcsh : sh ≠ .tcsh)
      (h : ¬ SwitchedOn env .useTempFile) (hunset : value? env .descriptor = none) :
      AnswersTo env sh (.descriptor defaultDescriptor)
  | descriptor {sh : Shell} {text : String} {n : Nat} (hps : sh ≠ .powershell)
      (htcsh : sh ≠ .tcsh) (h : ¬ SwitchedOn env .useTempFile)
      (htext : value? env .descriptor = some text)
      (hn : Numeral plusSigns text n ∧ n < halfWordBound ∨ Numeral minusSigns text n ∧ n = 0) :
      AnswersTo env sh (.descriptor n)

theorem isOn_iff : isOn env v = true ↔ SwitchedOn env v := by
  unfold isOn SwitchedOn isTruthy
  cases value? env v with
  | none => simp
  | some s => simp

theorem nonEmpty?_eq_some_iff {s : String} :
    nonEmpty? env v = some s ↔ value? env v = some s ∧ s ≠ "" := by
  unfold nonEmpty?
  rw [Option.filter_eq_some_iff]
  simp

theorem nonEmpty?_eq_none_iff :
    nonEmpty? env v = none ↔ value? env v = none ∨ value? env v = some "" := by
  unfold nonEmpty?
  cases value? env v with
  | none => simp
  | some s => simp

theorem shell?_eq_some_iff : shell? env = some sh ↔ AskedBy env sh := by
  unfold shell?
  constructor
  · intro h
    split at h
    · rename_i name hname
      exact .named (nonEmpty?_eq_some_iff.mp hname).1 (Shell.ofName?_eq_some_iff.mp h)
    · rename_i hnone
      cases h
      exact (nonEmpty?_eq_none_iff.mp hnone).elim .unset .empty
  · intro h
    cases h with
    | unset h => rw [nonEmpty?_eq_none_iff.mpr (.inl h)]
    | empty h => rw [nonEmpty?_eq_none_iff.mpr (.inr h)]
    | @named name sh h hname =>
      have hne : name ≠ "" := fun he => Shell.not_isCalled_empty sh (he ▸ hname)
      rw [nonEmpty?_eq_some_iff.mpr ⟨h, hne⟩]
      exact Shell.ofName?_eq_some_iff.mpr hname

theorem pointedLine?_eq_some_iff {cursor : Nat} : pointedLine? env = some (line, cursor) ↔
    value? env .line = some line ∧ ∃ text point, value? env .point = some text
      ∧ Numeral plusSigns text point ∧ point < wordBound ∧ cursor = clampCursor line point := by
  unfold pointedLine?
  simp only [Option.bind_eq_bind, Option.bind_eq_some_iff, nat?_trim_eq_some_iff]
  constructor
  · intro h
    obtain ⟨_, hline, text, htext, point, ⟨hpoint, hbound⟩, hpair⟩ := h
    cases hpair
    exact ⟨hline, text, point, htext, hpoint, hbound, rfl⟩
  · intro h
    obtain ⟨hline, text, point, htext, hpoint, hbound, rfl⟩ := h
    exact ⟨line, hline, text, htext, point, ⟨hpoint, hbound⟩, rfl⟩

/-- At the end of a line the cursor stays where it is. -/
theorem clampCursor_utf8ByteSize (line : String) :
    clampCursor line line.utf8ByteSize = line.utf8ByteSize := by
  have h := utf8ByteSize_cutAt line.toList line.utf8ByteSize
  have hcut := cutAt_utf8ByteSize line.toList
  rw [String.ofList_toList] at hcut
  rw [hcut, String.ofList_toList] at h
  exact h.symm

theorem line?_eq_some_iff {cursor : Nat} : line? env sh = some (line, cursor) ↔
    ∃ point, Points env sh line point ∧ cursor = clampCursor line point := by
  unfold line?
  constructor
  · intro h
    split at h
    · rename_i l hl
      cases h
      split at hl
      · rename_i htcsh
        subst htcsh
        exact ⟨_, .upToCursor hl, (clampCursor_utf8ByteSize line).symm⟩
      · cases hl
    · rename_i hnone
      obtain ⟨hline, text, point, htext, hpoint, hbound, rfl⟩ := pointedLine?_eq_some_iff.mp h
      refine ⟨point, .pointed (fun htcsh => ?_) hline htext hpoint hbound, rfl⟩
      rw [if_pos htcsh] at hnone
      exact hnone
  · intro h
    obtain ⟨point, hp, rfl⟩ := h
    cases hp with
    | upToCursor h =>
      rw [if_pos rfl, h, clampCursor_utf8ByteSize]
    | @pointed _ _ text _ htcsh hline htext hpoint hbound =>
      have hnone : (if sh = .tcsh then value? env .tcshLine else none) = none := by
        split
        · rename_i h
          exact htcsh h
        · rfl
      rw [hnone]
      exact pointedLine?_eq_some_iff.mpr ⟨hline, text, point, htext, hpoint, hbound, rfl⟩

theorem descriptor?_eq_some_iff {z : Int} : descriptor? env = some z ↔
    value? env .descriptor = none ∧ z = defaultDescriptor
      ∨ ∃ text, value? env .descriptor = some text ∧ ∃ n : Nat, z = n
        ∧ (Numeral plusSigns text n ∧ n < halfWordBound ∨ Numeral minusSigns text n ∧ n = 0) := by
  unfold descriptor?
  cases value? env .descriptor with
  | none => simp [eq_comm]
  | some text => exact int?_trim_filter_eq_some_iff.trans (by simp)

theorem needsFile_iff : (isOn env .useTempFile || decide (sh = .powershell)) = true ↔
    sh = .powershell ∨ SwitchedOn env .useTempFile := by
  rw [Bool.or_eq_true_iff, isOn_iff, decide_eq_true_iff, or_comm]

theorem channel?_eq_some_iff : channel? env sh = some channel ↔ AnswersTo env sh channel := by
  unfold channel?
  constructor
  · intro h
    split at h
    · rename_i hfile
      obtain ⟨path, hpath, rfl⟩ := Option.map_eq_some_iff.mp h
      obtain ⟨hset, hne⟩ := nonEmpty?_eq_some_iff.mp hpath
      exact .tempFile (needsFile_iff.mp hfile) hset hne
    · rename_i hfile
      obtain ⟨hps, hoff⟩ := not_or.mp (mt needsFile_iff.mpr hfile)
      split at h
      · rename_i htcsh
        cases h
        subst htcsh
        exact .stdout hoff
      · rename_i htcsh
        obtain ⟨z, hz, rfl⟩ := Option.map_eq_some_iff.mp h
        rcases descriptor?_eq_some_iff.mp hz with ⟨hunset, rfl⟩ | ⟨text, htext, n, rfl, hn⟩
        · exact .usual hps htcsh hoff hunset
        · exact .descriptor hps htcsh hoff htext hn
  · intro h
    cases h with
    | tempFile hfile hpath hne =>
      rw [if_pos (needsFile_iff.mpr hfile), nonEmpty?_eq_some_iff.mpr ⟨hpath, hne⟩]
      rfl
    | stdout hoff => rw [if_neg (mt needsFile_iff.mp (not_or.mpr ⟨by decide, hoff⟩)), if_pos rfl]
    | usual hps htcsh hoff hunset =>
      rw [if_neg (mt needsFile_iff.mp (not_or.mpr ⟨hps, hoff⟩)), if_neg htcsh,
        descriptor?_eq_some_iff.mpr (.inl ⟨hunset, rfl⟩)]
      rfl
    | descriptor hps htcsh hoff htext hn =>
      rw [if_neg (mt needsFile_iff.mp (not_or.mpr ⟨hps, hoff⟩)), if_neg htcsh,
        descriptor?_eq_some_iff.mpr (.inr ⟨_, htext, _, rfl, hn⟩)]
      rfl

end ShellRequest

/-! ## 3. The cursor -/

namespace Line

theorem onBoundary_floorBoundary (cs : List Char) (n : Nat) :
    OnBoundary cs (floorBoundary cs n) :=
  ⟨_, _, (cutAt_append cs n).symm, (utf8ByteSize_cutAt cs n).symm⟩

theorem floorBoundary_le (cs : List Char) (n : Nat) : floorBoundary cs n ≤ n := by
  induction cs generalizing n with
  | nil => exact Nat.zero_le n
  | cons c cs ih =>
    unfold floorBoundary
    split
    · have h := ih (n - c.utf8Size)
      omega
    · exact Nat.zero_le n

theorem le_floorBoundary {cs : List Char} {n k : Nat} (hk : OnBoundary cs k) (hn : k ≤ n) :
    k ≤ floorBoundary cs n := by
  obtain ⟨before, behind, rfl, rfl⟩ := hk
  induction before generalizing n with
  | nil => exact Nat.zero_le _
  | cons c before ih =>
    rw [utf8ByteSize_ofList_cons] at hn ⊢
    have h := ih (n := n - c.utf8Size) (by omega)
    rw [List.cons_append, floorBoundary, if_pos (by omega)]
    omega

theorem OnBoundary.le_utf8ByteSize {s : String} {k : Nat} (h : OnBoundary s.toList k) :
    k ≤ s.utf8ByteSize := by
  obtain ⟨before, behind, hs, rfl⟩ := h
  have hsize := utf8ByteSize_ofList_append before behind
  rw [← hs, String.ofList_toList] at hsize
  omega

/-- **The cursor is the greatest character boundary of the line up to a place in it.** -/
theorem isGreatest_clampCursor (line : String) (point : Nat) :
    IsGreatest {k | OnBoundary line.toList k ∧ k ≤ point ∧ k ≤ line.utf8ByteSize}
      (clampCursor line point) := by
  have hb : OnBoundary line.toList (clampCursor line point) := onBoundary_floorBoundary _ _
  refine ⟨⟨hb, floorBoundary_le _ _, hb.le_utf8ByteSize⟩, fun k hk => ?_⟩
  exact le_floorBoundary hk.1 hk.2.1

end Line

/-! ## 4. Whole requests -/

namespace ShellRequest

/-- The environment holds a request: it has been switched on, a known shell asks, and for this shell
    the line and the channel are there. -/
structure Held (env : Environment) : Prop where
  on : SwitchedOn env .request
  parts : ∃ sh, AskedBy env sh ∧ (∃ line point, Points env sh line point)
    ∧ ∃ channel, AnswersTo env sh channel

/-- What a program can rely on in a request. -/
structure Usable (env : Environment) (r : ShellRequest) : Prop where
  shell : AskedBy env r.shell
  cursor : ∃ point, Points env r.shell r.line point
    ∧ IsGreatest {k | OnBoundary r.line.toList k ∧ k ≤ point ∧ k ≤ r.line.utf8ByteSize} r.cursor
  channel : AnswersTo env r.shell r.channel
  separator : r.separator ≠ ""
  descriptionSeparator : r.descriptionSeparator ≠ some ""
  descriptor : ∀ n, r.channel = .descriptor n → 0 ≤ n
  tempFile : ∀ path, r.channel = .tempFile path → path ≠ ""
  powershell : r.shell = .powershell → ∃ path, r.channel = .tempFile path
  tcsh : r.shell = .tcsh → ∀ n, r.channel ≠ .descriptor n

theorem nonEmpty?_getD_ne_empty {d : String} (hd : d ≠ "") : (nonEmpty? env v).getD d ≠ "" := by
  cases h : nonEmpty? env v with
  | none => exact hd
  | some s => exact (nonEmpty?_eq_some_iff.mp h).2

theorem nonEmpty?_or_ne_empty {d : Option String} (hd : d ≠ some "") :
    (nonEmpty? env v).or d ≠ some "" := by
  cases h : nonEmpty? env v with
  | none => exact hd
  | some s =>
    intro he
    cases he
    exact (nonEmpty?_eq_some_iff.mp h).2 rfl

theorem AnswersTo.descriptor_nonneg {n : Int} (h : AnswersTo env sh (.descriptor n)) : 0 ≤ n := by
  cases h with
  | usual => decide
  | descriptor => exact Int.natCast_nonneg _

theorem AnswersTo.path_ne_empty {path : String} (h : AnswersTo env sh (.tempFile path)) :
    path ≠ "" := by
  cases h with
  | tempFile _ _ hne => exact hne

theorem AnswersTo.of_powershell (h : AnswersTo env .powershell channel) :
    ∃ path, channel = .tempFile path := by
  cases h with
  | @tempFile _ path _ _ _ => exact ⟨path, rfl⟩
  | usual hps => exact absurd rfl hps
  | descriptor hps => exact absurd rfl hps

theorem AnswersTo.of_tcsh (h : AnswersTo env .tcsh channel) (n : Int) :
    channel ≠ .descriptor n := by
  cases h with
  | tempFile => exact fun h => nomatch h
  | stdout => exact fun h => nomatch h
  | usual _ htcsh => exact absurd rfl htcsh
  | descriptor _ htcsh => exact absurd rfl htcsh

/-- A request is decoded from its parts. -/
theorem decode?_eq_some {r : ShellRequest} (h : decode? env = some r) :
    SwitchedOn env .request ∧ AskedBy env r.shell
      ∧ (∃ point, Points env r.shell r.line point ∧ r.cursor = clampCursor r.line point)
      ∧ AnswersTo env r.shell r.channel
      ∧ r.separator = (nonEmpty? env .separator).getD r.shell.defaultSeparator
      ∧ r.descriptionSeparator = (nonEmpty? env .descriptionSeparator).or
          r.shell.defaultDescriptionSeparator? := by
  unfold decode? at h
  split at h
  · rename_i hon
    simp only [Option.bind_eq_bind, Option.bind_eq_some_iff, Prod.exists] at h
    obtain ⟨sh, hsh, line, cursor, hline, channel, hchannel, hr⟩ := h
    cases hr
    exact ⟨isOn_iff.mp hon, shell?_eq_some_iff.mp hsh, line?_eq_some_iff.mp hline,
      channel?_eq_some_iff.mp hchannel, rfl, rfl⟩
  · cases h

theorem isSome_decode?_of_held (h : Held env) : (decode? env).isSome = true := by
  obtain ⟨hon, sh, hsh, ⟨line, point, hpoint⟩, channel, hchannel⟩ := h
  unfold decode?
  rw [if_pos (isOn_iff.mpr hon), shell?_eq_some_iff.mpr hsh]
  simp only [Option.bind_eq_bind, Option.bind_some]
  rw [line?_eq_some_iff.mpr ⟨point, hpoint, rfl⟩, channel?_eq_some_iff.mpr hchannel]
  rfl

/-- **A request is decoded iff the environment holds one, and every request is usable.** -/
theorem decode_exact (env : Environment) :
    ((decode? env).isSome = true ↔ Held env) ∧ ∀ r, decode? env = some r → Usable env r := by
  refine ⟨⟨fun h => ?_, isSome_decode?_of_held⟩, fun r h => ?_⟩
  · obtain ⟨r, hr⟩ := Option.isSome_iff_exists.mp h
    obtain ⟨hon, hsh, ⟨point, hpoint, -⟩, hchannel, -, -⟩ := decode?_eq_some hr
    exact ⟨hon, r.shell, hsh, ⟨r.line, point, hpoint⟩, r.channel, hchannel⟩
  · obtain ⟨-, hsh, ⟨point, hpoint, hcursor⟩, hchannel, hsep, hdesc⟩ := decode?_eq_some h
    refine ⟨hsh, ⟨point, hpoint, hcursor ▸ isGreatest_clampCursor _ _⟩, hchannel, ?_, ?_, ?_, ?_,
      ?_, ?_⟩
    · rw [hsep]
      exact nonEmpty?_getD_ne_empty (by cases r.shell <;> decide)
    · rw [hdesc]
      exact nonEmpty?_or_ne_empty (by cases r.shell <;> decide)
    · exact fun n hn => AnswersTo.descriptor_nonneg (hn ▸ hchannel)
    · exact fun path hpath => AnswersTo.path_ne_empty (hpath ▸ hchannel)
    · exact fun hps => AnswersTo.of_powershell (hps ▸ hchannel)
    · exact fun htcsh => AnswersTo.of_tcsh (htcsh ▸ hchannel)

/-- A request of PowerShell, with a place within the last character of the line. -/
def asking : Environment :=
  [("_ARGCOMP", "1"), ("_ARGCOMP_SHELL", " PWsh"), ("COMP_LINE", "prog é"), ("COMP_POINT", "+06\n"),
    ("_ARGCOMP_STDOUT_FILENAME", "/tmp/out"), ("_ARGCOMP_IFS", "")]

theorem decode_exact_asking :
    let r : ShellRequest := ⟨"prog é", 5, .powershell, .tempFile "/tmp/out", "\n", none,
      defaultWordbreaks, false, false⟩
    Held asking ∧ decode? asking = some r ∧ Usable asking r := by
  intro r
  have hr : decode? asking = some r := by decide
  exact ⟨(decode_exact asking).1.mp (by rw [hr]; rfl), hr, (decode_exact asking).2 r hr⟩

/-- Without the file there is no request. -/
example : decode? (asking.eraseP (·.1 = "_ARGCOMP_STDOUT_FILENAME")) = none := by decide

end ShellRequest

end TabCompletion
