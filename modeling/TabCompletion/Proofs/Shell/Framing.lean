import TabCompletion.Proofs.Text.Cuts
import TabCompletion.Proofs.Text.Joins
import TabCompletion.Shell.Answer

/-!
# An answer and its items

The shell reads an answer by splitting it where it expects a separator. With the separators that a
shell has by default, nothing that is written for a candidate brings in another separator: escapes,
quotes and what stands in front of a description are made of other characters, and line breaks in a
description become spaces.

* `added`: the characters that are written besides the texts of a candidate;
* `mem_toList_item`: where the characters of an item come from;
* `Separable`: candidates that can be told apart in an answer;
* `fishFields`: how Fish reads an item;
* `encode_splits`: the law.
-/

namespace TabCompletion

open Text Line

variable {r : ShellRequest} {o : Outcome} {c : Candidate} {d : Char} {value : String}

/-! ## 1. Where the characters of an item come from -/

theorem mem_toList_dropBytesOrAll {n : Nat} (h : d ∈ (dropBytesOrAll n value).toList) :
    d ∈ value.toList := by
  unfold dropBytesOrAll at h
  split at h
  · rename_i rest hrest
    rw [String.toList_ofList] at h
    exact mem_of_dropBytes? hrest h
  · exact h

namespace Shell

variable {sh : Shell} {q : Quote}

/-- The characters that are written besides the value and the description of a candidate: what
    escapes and quotes are made of, spaces, and what stands in front of a description. -/
def added : List Char := ['\\', '\'', '"', '\x60', ' ', ':', '\t']

theorem mem_added_of_escapeWith {escape : Char} {special : Char → Bool} (he : escape ∈ added)
    (h : d ∈ (escapeWith escape special value).toList) : d ∈ added ∨ d ∈ value.toList :=
  (mem_toList_escapeWith h).imp_left fun hd : d = escape => hd ▸ he

theorem mem_added_of_replaceChar {c : Char} {by_ : String} (hby : by_.toList ⊆ added)
    (h : d ∈ (replaceChar c by_ value).toList) : d ∈ added ∨ d ∈ value.toList :=
  (mem_toList_replaceChar h).imp (fun hd => hby hd) And.left

theorem mem_toList_escape (h : d ∈ (sh.escape value q).toList) :
    d ∈ added ∨ d ∈ value.toList := by
  cases sh with
  | bash =>
    cases q with
    | none => exact mem_added_of_escapeWith (by decide) h
    | double => exact mem_added_of_escapeWith (by decide) h
    | single => exact mem_added_of_replaceChar (by decide) h
  | powershell =>
    cases q with
    | none => exact mem_added_of_escapeWith (by decide) h
    | double => exact mem_added_of_escapeWith (by decide) h
    | single => exact mem_added_of_replaceChar (by decide) h
  | zsh => exact .inr h
  | tcsh => exact .inr h
  | fish => exact .inr h

/-- A character of a description that gets into an answer. Line breaks do not. -/
def Described (description : Option String) (d : Char) : Prop :=
  ∃ help, description = some help ∧ d ∈ help.toList ∧ d ≠ '\n'

theorem mem_toList_withDescription {separator : String} {description : Option String}
    (hsep : separator.toList ⊆ added)
    (h : d ∈ (withDescription separator value description).toList) :
    d ∈ added ∨ d ∈ value.toList ∨ Described description d := by
  unfold withDescription at h
  split at h
  · exact .inr (.inl h)
  · rename_i help
    split at h
    · exact .inr (.inl h)
    · rw [String.toList_append, String.toList_append, List.append_assoc, List.mem_append,
        List.mem_append] at h
      rcases h with h | h | h
      · exact .inr (.inl h)
      · exact .inl (hsep h)
      · have hspace : " ".toList ⊆ added := by decide
        exact (mem_toList_replaceChar h).imp (fun hd => hspace hd) fun hd => .inr ⟨help, rfl, hd⟩

/-- Whether the shell shows descriptions. -/
def Describes (sh : Shell) : Prop := sh = .zsh ∨ sh = .fish

theorem mem_toList_render {description : Option String}
    (h : d ∈ (sh.render value description sh.defaultDescriptionSeparator?).toList) :
    d ∈ added ∨ d ∈ value.toList ∨ sh.Describes ∧ Described description d := by
  cases sh with
  | bash => exact .inr (.inl h)
  | tcsh => exact .inr (.inl h)
  | powershell => exact .inr (.inl h)
  | zsh =>
    rcases mem_toList_withDescription (by decide) h with h | h | h
    · exact .inl h
    · exact (mem_added_of_replaceChar (by decide) h).imp_right .inl
    · exact .inr (.inr ⟨.inl rfl, h⟩)
  | fish =>
    rcases mem_toList_withDescription (by decide) h with h | h | h
    · exact .inl h
    · exact .inr (.inl h)
    · exact .inr (.inr ⟨.inr rfl, h⟩)

end Shell

namespace ShellRequest

/-- The request has the separators that the shell has by default. -/
structure DefaultSeparators (r : ShellRequest) : Prop where
  separator : r.separator = r.shell.defaultSeparator
  descriptionSeparator : r.descriptionSeparator = r.shell.defaultDescriptionSeparator?

theorem byHand_defaultSeparators (sh : Shell) (line : String) (cursor : Nat) :
    (byHand sh line cursor).DefaultSeparators :=
  ⟨rfl, rfl⟩

theorem mem_toList_ending (h : d ∈ (r.ending o).toList) : d ∈ Shell.added := by
  unfold ending at h
  dsimp only at h
  rw [String.toList_append, List.mem_append] at h
  have hquotes : ∀ q : Quote, ∀ c, q.closing? = some c → c ∈ Shell.added := by
    intro q c hc
    cases q <;> cases hc <;> decide
  rcases h with h | h
  · split at h
    · rename_i close hclose
      split at h
      · obtain rfl := List.mem_singleton.mp ((String.toList_ofList (l := [close])) ▸ h)
        exact hquotes _ _ hclose
      · cases h
    · cases h
  · split at h
    · have hspace : " ".toList ⊆ Shell.added := by decide
      exact hspace h
    · cases h

/-- **A character of an item** is added, or it is one of the value, or else the shell shows
    descriptions and it is one of the description, but no line break. -/
theorem mem_toList_item (hr : r.DefaultSeparators) (h : d ∈ (r.item o c).toList) :
    d ∈ Shell.added ∨ d ∈ c.value.toList
      ∨ r.shell.Describes ∧ Shell.Described c.description d := by
  have hescaped : ∀ d ∈ (r.shell.escape (dropBytesOrAll (r.keptBytes o) c.value) o.quote).toList,
      d ∈ Shell.added ∨ d ∈ c.value.toList := fun d hd =>
    (Shell.mem_toList_escape hd).imp_right mem_toList_dropBytesOrAll
  unfold item at h
  dsimp only at h
  rw [hr.descriptionSeparator] at h
  rcases Shell.mem_toList_render h with h | h | h
  · exact .inl h
  · have hvalue : d ∈ Shell.added ∨ d ∈ c.value.toList := by
      split at h
      · rw [String.toList_append, List.mem_append] at h
        rcases h with h | h
        · exact hescaped d h
        · exact .inl (mem_toList_ending h)
      · exact hescaped d h
    exact hvalue.imp_right .inl
  · exact .inr (.inr h)

end ShellRequest

/-! ## 2. The items of an answer -/

/-- The character that separates candidates if the request does not say. -/
def Shell.separatorChar : Shell → Char
  | .bash | .zsh => '\x0b'
  | .tcsh | .fish | .powershell => '\n'

theorem Shell.defaultSeparator_eq (sh : Shell) :
    sh.defaultSeparator = String.singleton sh.separatorChar := by
  cases sh <;> rfl

theorem Shell.separatorChar_not_mem_added (sh : Shell) : sh.separatorChar ∉ added := by
  cases sh <;> decide

/-- Candidates that the shell can tell apart in an answer: no value has the character that separates
    them, and no description that Zsh is given has it. -/
structure Separable (sh : Shell) (o : Outcome) : Prop where
  nonempty : o.candidates ≠ []
  values : ∀ c ∈ o.candidates, sh.separatorChar ∉ c.value.toList
  descriptions : sh = .zsh → ∀ c ∈ o.candidates, ∀ help, c.description = some help →
    sh.separatorChar ∉ help.toList

/-- No item brings in a separator. -/
theorem Separable.not_mem_item (h : Separable r.shell o) (hr : r.DefaultSeparators)
    (hc : c ∈ o.candidates) : r.shell.separatorChar ∉ (r.item o c).toList := by
  intro hd
  rcases ShellRequest.mem_toList_item hr hd with hd | hd | ⟨hsh, help, hhelp, hd, hne⟩
  · exact r.shell.separatorChar_not_mem_added hd
  · exact h.values c hc hd
  · rcases hsh with hsh | hsh
    · exact h.descriptions hsh c hc help hhelp hd
    · rw [hsh] at hne
      exact hne rfl

/-- **An answer without its end, split at the separator, is the list of its items.** -/
theorem Separable.splitAll_items (h : Separable r.shell o) (hr : r.DefaultSeparators) :
    splitAll r.shell.separatorChar (joinWith r.separator (o.candidates.map (r.item o)))
      = o.candidates.map (r.item o) := by
  rw [hr.separator, Shell.defaultSeparator_eq]
  refine splitAll_joinWith (mt List.map_eq_nil_iff.mp h.nonempty) (List.forall_mem_map.mpr ?_)
  exact fun c hc => h.not_mem_item hr hc

/-! ## 3. What Fish reads of an item -/

/-- The value and the description that Fish reads: the parts of an item before and behind its first
    tab. -/
def fishFields (item : String) : String × Option String :=
  match splitOnce '\t' item with
  | some (value, description) => (value, some description)
  | none => (item, none)

/-- The value of a candidate, with the closing quote if it is finished inside an open quote. -/
def Outcome.shown (o : Outcome) (c : Candidate) : String :=
  if c.finished then c.value ++ (o.quote.closing?.elim "" String.singleton) else c.value

/-- The description of a candidate on one line, if it has one that is not empty. -/
def Candidate.help? (c : Candidate) : Option String :=
  (c.description.filter fun help => !help.isEmpty).map (replaceChar '\n' " ")

theorem fishFields_of_not_mem (h : '\t' ∉ value.toList) : fishFields value = (value, none) := by
  unfold fishFields
  rw [splitOnce_eq_none_iff.mpr h]

theorem fishFields_append (h : '\t' ∉ value.toList) (help : String) :
    fishFields (value ++ "\t" ++ help) = (value, some help) := by
  have hcut : splitOnce '\t' (value ++ "\t" ++ help) = some (value, help) :=
    splitOnce_append h help
  unfold fishFields
  rw [hcut]

/-- A shell that replaces whole words is given whole values. -/
theorem dropBytesOrAll_keptBytes (h : r.shell.stripsWordbreaks = false) (value : String) :
    dropBytesOrAll (r.keptBytes o) value = value := by
  unfold ShellRequest.keptBytes dropBytesOrAll
  rw [h, Bool.false_and, if_neg Bool.false_ne_true, dropBytes?]
  exact String.ofList_toList

theorem item_of_fish (hsh : r.shell = .fish) (hr : r.DefaultSeparators) :
    r.item o c = Shell.withDescription "\t" (o.shown c) c.description := by
  have hkept : dropBytesOrAll (r.keptBytes o) c.value = c.value :=
    dropBytesOrAll_keptBytes (by rw [hsh]; rfl) _
  have hspace : (o.appendSpace && Shell.fish.appendsSpace && !r.suppressSpace) = false := by
    have hno : Shell.fish.appendsSpace = false := rfl
    rw [hno, Bool.and_false, Bool.false_and]
  have hending : r.ending o = o.quote.closing?.elim "" String.singleton := by
    unfold ShellRequest.ending
    rw [hsh, hspace]
    cases o.quote <;> rfl
  unfold ShellRequest.item Outcome.shown
  dsimp only
  rw [hkept, hending, hr.descriptionSeparator, hsh]
  rfl

theorem not_mem_shown (h : '\t' ∉ c.value.toList) : '\t' ∉ (o.shown c).toList := by
  have hclose : '\t' ∉ (o.quote.closing?.elim "" String.singleton).toList := by
    cases o.quote <;> decide
  unfold Outcome.shown
  split
  · rw [String.toList_append, List.mem_append]
    exact not_or.mpr ⟨h, hclose⟩
  · exact h

/-- **What Fish reads of an item.** -/
theorem fishFields_item (hsh : r.shell = .fish) (hr : r.DefaultSeparators)
    (h : '\t' ∉ c.value.toList) : fishFields (r.item o c) = (o.shown c, c.help?) := by
  rw [item_of_fish hsh hr]
  have hshown : '\t' ∉ (o.shown c).toList := not_mem_shown h
  unfold Shell.withDescription Candidate.help?
  cases c.description with
  | none => exact fishFields_of_not_mem hshown
  | some help =>
    dsimp only
    cases he : help.isEmpty with
    | true =>
      rw [if_pos rfl, Option.filter_some, he]
      exact fishFields_of_not_mem hshown
    | false =>
      rw [if_neg Bool.false_ne_true, Option.filter_some, he]
      exact fishFields_append hshown _

/-- **An answer is read back**: without its end, and split where the shell expects a separator, it
    is one item for each candidate, in their order. Fish finds in each of them the value, and behind
    the first tab the description. -/
theorem encode_splits (hr : r.DefaultSeparators) (ho : Separable r.shell o) :
    ∃ body, r.encode o = body ++ r.shell.listTerminator
      ∧ splitAll r.shell.separatorChar body = o.candidates.map (r.item o)
      ∧ (r.shell = .fish → (∀ c ∈ o.candidates, '\t' ∉ c.value.toList) →
        (splitAll r.shell.separatorChar body).map fishFields
          = o.candidates.map fun c => (o.shown c, c.help?)) := by
  refine ⟨_, rfl, ho.splitAll_items hr, fun hsh hvalues => ?_⟩
  rw [ho.splitAll_items hr, List.map_map]
  exact List.map_congr_left fun c hc => fishFields_item hsh hr (hvalues c hc)

/-- Two candidates behind an open quote. One is finished, and has a description of two lines. -/
def uploading : Outcome where
  candidates := [{ Candidate.described "push" (some "Upload\nchanges\tnow") with finished := true },
    .plain "pull all"]
  warnings := []
  wordPrefix := "pu"
  quote := .single
  appendSpace := true

theorem encode_splits_uploading :
    (ShellRequest.byHand .fish "git 'pu" 7).DefaultSeparators ∧ Separable .fish uploading
      ∧ ∃ body, (ShellRequest.byHand .fish "git 'pu" 7).encode uploading = body
        ∧ (splitAll '\n' body).map fishFields
          = [("push'", some "Upload changes\tnow"), ("pull all", none)] := by
  have hr := ShellRequest.byHand_defaultSeparators .fish "git 'pu" 7
  have ho : Separable .fish uploading := ⟨by decide, by decide, nofun⟩
  obtain ⟨body, hbody, -, hfish⟩ := encode_splits hr ho
  refine ⟨hr, ho, body, hbody.trans String.append_empty, ?_⟩
  exact (hfish rfl (by decide)).trans (by decide)

end TabCompletion
