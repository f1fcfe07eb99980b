import TabCompletion.Proofs.Shell.Framing

/-!
# What Zsh reads of an item

Where descriptions are in use, a value ends at the first colon that no backslash escapes. Colons in
a value are escaped, but backslashes are not. So a backslash at the end of a value escapes the colon
that separates it from its description, and the two are read as one value.

* `zshFields`: how an item is read;
* `zshFields_go_escapeColons`: an escaped value is read back, whatever follows;
* `Candidate.JoinsDescription`: a backslash ends the value, and a description follows;
* `zshFields_item_iff`: value and description are read back exactly from all other candidates;
* `zsh_items_told_apart`: the law for two candidates;
* `zsh_items_not_always_told_apart`: it needs its condition.
-/

namespace TabCompletion

open Text

/-! ## 1. Reading an item -/

/-- The value and the description of an item: the parts before and behind the first colon that no
    backslash escapes. An escaped colon is part of the value, without its backslash. -/
def zshFields (item : String) : String × Option String :=
  go [] item.toList
where
  go (before : List Char) : List Char → String × Option String
    | [] => (String.ofList before.reverse, none)
    | c :: cs =>
      if c = ':' then match before with
        | '\\' :: before => go (':' :: before) cs
        | _ => (String.ofList before.reverse, some (String.ofList cs))
      else go (c :: before) cs

theorem zshFields_go_cons {c : Char} (h : c ≠ ':') (before cs : List Char) :
    zshFields.go before (c :: cs) = zshFields.go (c :: before) cs := by
  rw [zshFields.go.eq_def]
  exact if_neg h

/-- A colon behind a backslash belongs to the value. -/
theorem zshFields_go_escape (before cs : List Char) :
    zshFields.go ('\\' :: before) (':' :: cs) = zshFields.go (':' :: before) cs := by
  rw [zshFields.go.eq_def]
  exact if_pos rfl

/-- Any other colon ends it. -/
theorem zshFields_go_colon {before : List Char} (h : before.head? ≠ some '\\') (cs : List Char) :
    zshFields.go before (':' :: cs)
      = (String.ofList before.reverse, some (String.ofList cs)) := by
  rw [zshFields.go.eq_def]
  dsimp only
  rw [if_pos rfl]
  split
  · exact absurd rfl h
  · rfl

/-- The characters of a value with its colons escaped. -/
def escapeColons (value : List Char) : List Char :=
  value.flatMap fun c => if c = ':' then ['\\', ':'] else [c]

/-- **A value with its colons escaped is read back**, whatever stands before it and follows. -/
theorem zshFields_go_escapeColons (before value rest : List Char) :
    zshFields.go before (escapeColons value ++ rest)
      = zshFields.go (value.reverse ++ before) rest := by
  induction value generalizing before with
  | nil => rfl
  | cons c cs ih =>
    unfold escapeColons at ih ⊢
    rw [List.flatMap_cons, List.append_assoc, List.reverse_cons, List.append_assoc]
    by_cases hc : c = ':'
    · subst hc
      rw [if_pos rfl]
      exact (zshFields_go_cons (by decide) _ _).trans ((zshFields_go_escape _ _).trans (ih _))
    · rw [if_neg hc]
      exact (zshFields_go_cons hc _ _).trans (ih _)

/-- What has been read stays part of the value, but for a last backslash. -/
theorem prefix_zshFields_go (c : Char) (before cs : List Char) :
    before.reverse <+: (zshFields.go (c :: before) cs).1.toList := by
  induction cs generalizing c before with
  | nil =>
    rw [zshFields.go, String.toList_ofList, List.reverse_cons]
    exact List.prefix_append _ _
  | cons d cs ih =>
    by_cases hd : d = ':'
    · subst hd
      by_cases hc : c = '\\'
      · subst hc
        rw [zshFields_go_escape]
        exact ih ':' before
      · rw [zshFields_go_colon (by simpa using hc), String.toList_ofList, List.reverse_cons]
        exact List.prefix_append _ _
    · rw [zshFields_go_cons hd]
      refine List.IsPrefix.trans ?_ (ih d (c :: before))
      rw [List.reverse_cons]
      exact List.prefix_append _ _

/-- A colon that has been read as part of the value stays part of it. -/
theorem prefix_zshFields_go_colon (before cs : List Char) :
    before.reverse ++ [':'] <+: (zshFields.go (':' :: before) cs).1.toList := by
  rw [← List.reverse_cons]
  cases cs with
  | nil =>
    have hread : (zshFields.go (':' :: before) []).1.toList = (':' :: before).reverse :=
      String.toList_ofList
    exact hread ▸ List.prefix_rfl
  | cons d cs =>
    by_cases hd : d = ':'
    · subst hd
      have hread : (zshFields.go (':' :: before) (':' :: cs)).1.toList
          = (':' :: before).reverse := by
        rw [zshFields_go_colon (by simp), String.toList_ofList]
      exact hread ▸ List.prefix_rfl
    · rw [zshFields_go_cons hd]
      exact prefix_zshFields_go d (':' :: before) cs

/-! ## 2. What is read of a candidate -/

/-- A backslash ends the value of the candidate, and a description follows. -/
def Candidate.JoinsDescription (c : Candidate) : Prop :=
  c.value.toList.getLast? = some '\\' ∧ c.help?.isSome = true

instance (c : Candidate) : Decidable c.JoinsDescription :=
  inferInstanceAs (Decidable (_ ∧ _))

/-- The text of a candidate where a colon separates descriptions. -/
theorem toList_render_zsh (c : Candidate) :
    (Shell.zsh.render c.value c.description (some ":")).toList
      = escapeColons c.value.toList ++ c.help?.elim [] (':' :: ·.toList) := by
  have hvalue : (replaceChar ':' "\\:" c.value).toList = escapeColons c.value.toList :=
    String.toList_ofList
  show (Shell.withDescription ":" (replaceChar ':' "\\:" c.value) c.description).toList = _
  unfold Shell.withDescription Candidate.help?
  cases c.description with
  | none => exact hvalue.trans (List.append_nil _).symm
  | some help =>
    dsimp only
    rw [Option.filter_some]
    cases help.isEmpty with
    | true => exact hvalue.trans (List.append_nil _).symm
    | false =>
      rw [if_neg Bool.false_ne_true, String.toList_append, String.toList_append, hvalue,
        List.append_assoc]
      rfl

/-- **Value and description are read back** exactly if no backslash joins them. -/
theorem zshFields_render_iff (c : Candidate) :
    zshFields (Shell.zsh.render c.value c.description (some ":")) = (c.value, c.help?)
      ↔ ¬ c.JoinsDescription := by
  unfold zshFields
  rw [toList_render_zsh, zshFields_go_escapeColons, List.append_nil]
  cases hh : c.help? with
  | none =>
    have hread : zshFields.go c.value.toList.reverse [] = (c.value, none) := by
      rw [zshFields.go, List.reverse_reverse, String.ofList_toList]
    exact ⟨fun _ hj => by simp [Candidate.JoinsDescription, hh] at hj, fun _ => hread⟩
  | some help =>
    dsimp only [Option.elim_some]
    by_cases hlast : c.value.toList.getLast? = some '\\'
    · refine ⟨fun hread => ?_, fun hj => absurd ⟨hlast, by rw [hh]; rfl⟩ hj⟩
      obtain ⟨front, hvalue⟩ := List.getLast?_eq_some_iff.mp hlast
      have hrev : c.value.toList.reverse = '\\' :: front.reverse := by
        rw [hvalue, List.reverse_append]
        rfl
      -- The colon takes the place of the backslash in what is read.
      have hcolon := prefix_zshFields_go_colon front.reverse help.toList
      rw [hrev, zshFields_go_escape] at hread
      rw [hread, List.reverse_reverse, hvalue, List.prefix_append_right_inj] at hcolon
      exact absurd hcolon (by decide)
    · have hhead : c.value.toList.reverse.head? ≠ some '\\' := by
        rwa [List.head?_reverse]
      have hread : zshFields.go c.value.toList.reverse (':' :: help.toList)
          = (c.value, some help) := by
        rw [zshFields_go_colon hhead, List.reverse_reverse, String.ofList_toList,
          String.ofList_toList]
      exact ⟨fun _ hj => hlast hj.1, fun _ => hread⟩

/-! ## 3. The items of an answer -/

variable {r : ShellRequest}

/-- Zsh is given the value as it is: it escapes values and ends words itself. -/
theorem item_of_zsh (hsh : r.shell = .zsh) (o : Outcome) (c : Candidate) :
    r.item o c = Shell.zsh.render c.value c.description r.descriptionSeparator := by
  have hkept : dropBytesOrAll (r.keptBytes o) c.value = c.value :=
    dropBytesOrAll_keptBytes (by rw [hsh]; rfl) _
  have hending : r.ending o = "" := by
    unfold ShellRequest.ending
    rw [hsh]
    cases o.quote <;> cases o.appendSpace <;> rfl
  have hvalue : (if c.finished then c.value ++ r.ending o else c.value) = c.value := by
    rw [hending, String.append_empty, ite_self]
  unfold ShellRequest.item
  dsimp only
  rw [hkept, hsh]
  exact congrArg (Shell.zsh.render · c.description r.descriptionSeparator) hvalue

/-- **An item for Zsh is read back** exactly if its candidate's value does not end in a backslash in
    front of a description. Of two candidates for which this holds, the items are the same only if
    values and descriptions are. -/
theorem zsh_items_told_apart (hsh : r.shell = .zsh) (hsep : r.descriptionSeparator = some ":")
    (o : Outcome) :
    (∀ c, r.item o c = Shell.zsh.render c.value c.description (some ":"))
      ∧ (∀ c, zshFields (r.item o c) = (c.value, c.help?) ↔ ¬ c.JoinsDescription)
      ∧ ∀ c d, ¬ c.JoinsDescription → ¬ d.JoinsDescription → r.item o c = r.item o d →
        c.value = d.value ∧ c.help? = d.help? := by
  have hitem : ∀ c, r.item o c = Shell.zsh.render c.value c.description (some ":") := fun c => by
    rw [item_of_zsh hsh, hsep]
  have hread : ∀ c, zshFields (r.item o c) = (c.value, c.help?) ↔ ¬ c.JoinsDescription :=
    fun c => by rw [hitem, zshFields_render_iff]
  refine ⟨hitem, hread, fun c d hc hd h => ?_⟩
  have hfields : (c.value, c.help?) = (d.value, d.help?) := by
    rw [← (hread c).mpr hc, ← (hread d).mpr hd, h]
  exact Prod.mk.inj hfields

/-- A directory that ends in a backslash stands alone in its item, and is read back from it. -/
theorem zsh_items_told_apart_directory : (ShellRequest.byHand .zsh "cd C" 4).shell = .zsh
    ∧ (ShellRequest.byHand .zsh "cd C" 4).descriptionSeparator = some ":"
    ∧ ¬ (Candidate.plain "C:\\dir\\").JoinsDescription
    ∧ zshFields ((ShellRequest.byHand .zsh "cd C" 4).item uploading (.plain "C:\\dir\\"))
      = ("C:\\dir\\", none) := by
  have hfree : ¬ (Candidate.plain "C:\\dir\\").JoinsDescription := by decide
  exact ⟨rfl, rfl, hfree, ((zsh_items_told_apart rfl rfl uploading).2.1 _).mpr hfree⟩

/-- **Zsh cannot always tell two candidates apart**: an `a` and a backslash with the description `b`
    have the same item as `a:b` alone. -/
theorem zsh_items_not_always_told_apart :
    ¬ ∀ (r : ShellRequest), r.shell = .zsh → r.descriptionSeparator = some ":" →
      ∀ c d : Candidate,
        Shell.zsh.render c.value c.description r.descriptionSeparator
            = Shell.zsh.render d.value d.description r.descriptionSeparator →
          c.value = d.value ∧ c.help? = d.help? := by
  intro h
  have hsame := h (ShellRequest.byHand .zsh "" 0) rfl rfl
    (.described "a\\" (some "b")) (.plain "a:b") (by decide)
  exact absurd hsame.1 (by decide)

end TabCompletion
