import TabCompletion.Proofs.Json.Fields
import TabCompletion.Proofs.Json.ReadBack
import TabCompletion.Proofs.Spec.Completers
import TabCompletion.Spec.JsonForm

/-!
# A command is read back from its JSON form

What is left out of the JSON form is what reading fills in, but for the completers. So a command
is read back without them, as long as its form nests no deeper than a reader may go.

* `WordSized`: the numbers in a command fit a machine word;
* `Arity.ofJson?_toJson`, `Action.ofJson?_toJson`, `Command.ofJson?_toJson`: the parts, each with
  the levels that it needs;
* `ofJsonText_toJsonText`: the law for the text.
-/

namespace TabCompletion

open Document Document.Fields Json

/-! ## 1. Members that may be left out -/

section Members

variable {key : String} {fs : Fields Value} {depth : Nat}

theorem keys_textsMember (key : String) (ss : List String) :
    ((textsMember key ss).map (·.1)).Sublist [key] := by
  unfold textsMember
  split
  · exact List.nil_sublist _
  · exact .refl _

theorem keys_textMember (key : String) (o : Option String) :
    ((textMember key o).map (·.1)).Sublist [key] := by
  cases o with
  | none => exact List.nil_sublist _
  | some s => exact .refl _

/-- A member for texts is found under its key and no other. -/
@[simp] theorem lookup_textsMember (key k : String) (ss : List String) :
    (textsMember key ss).lookup k = if k = key ∧ ss ≠ [] then some (.strs ss) else none := by
  unfold textsMember
  cases ss with
  | nil => simp
  | cons s ss => by_cases h : k = key <;> simp [h]

/-- A member for a text is found under its key and no other. -/
@[simp] theorem lookup_textMember (key k : String) (o : Option String) :
    (textMember key o).lookup k = if k = key then o.map .str else none := by
  cases o with
  | none => simp [textMember]
  | some s => by_cases h : k = key <;> simp [textMember, h]

/-- A field that was left out if it is empty is read back. -/
theorem optional_texts {ss : List String} (h : fs.get? key = (textsMember key ss).lookup key)
    (hn : ∀ v, fs.get? key = some v → v.nesting ≤ depth) :
    fs.optional key [] (Value.texts? depth) = some ss := by
  rw [lookup_textsMember] at h
  cases ss with
  | nil =>
    unfold Fields.optional
    rw [h, if_neg fun hne => hne.2 rfl]
  | cons s ss =>
    rw [if_pos ⟨rfl, List.cons_ne_nil _ _⟩] at h
    exact (optional_eq h).trans (texts?_strs (hn _ h))

/-- A field that was left out if there is none is read back. -/
theorem optional_text {o : Option String} (h : fs.get? key = (textMember key o).lookup key) :
    fs.optional key none (Value.nullable? Value.text?) = some o := by
  rw [lookup_textMember, if_pos rfl] at h
  cases o with
  | none =>
    unfold Fields.optional
    rw [h]
    rfl
  | some s => exact optional_eq h

/-- A field of an object has a level less than the object. -/
theorem nesting_of_get? {ms : List (String × Value)} {v : Value}
    (hn : (Value.ofMembers ms).nesting ≤ depth + 1) (h : (Fields.mk ms).get? key = some v) :
    v.nesting ≤ depth := by
  obtain ⟨before, behind, hms, -⟩ := List.lookup_eq_some_iff.mp h
  have hmem : (key, v) ∈ (Fields.mk ms).found := by
    rw [hms]
    exact List.mem_append_right _ List.mem_cons_self
  exact nesting_ofMembers_le_iff.mp hn (key, v) hmem

theorem definite_textsMember (key : String) (ss : List String) :
    ∀ m ∈ textsMember key ss, m.2.Definite := by
  unfold textsMember
  split
  · exact List.forall_mem_nil _
  · exact List.forall_mem_singleton.mpr (definite_strs ss)

theorem definite_textMember (key : String) (o : Option String) :
    ∀ m ∈ textMember key o, m.2.Definite := by
  cases o with
  | none => exact List.forall_mem_nil _
  | some s => exact List.forall_mem_singleton.mpr (.text s)

end Members

/-! ## 2. Actions -/

/-- **The form of an arity is read back**, if the number in it fits a machine word. -/
theorem Arity.ofJson?_toJson {a : Arity} {depth : Nat} (hn : a.toJson.nesting ≤ depth)
    (hw : ∀ n, a = .exactly n → n < Text.wordBound) : Arity.ofJson? depth a.toJson = some a := by
  cases a with
  | exactly n =>
    have hd : depth ≠ 0 := by
      intro h
      rw [h] at hn
      exact absurd hn (Nat.not_succ_le_zero _)
    have hv : (Arity.exactly n).toJson.variant? depth
        = some ("exactly", some (.number (some n))) := by
      unfold Arity.toJson Value.ofMembers Value.variant?
      exact if_neg hd
    unfold Arity.ofJson?
    rw [hv]
    simp [Value.nat?, hw n rfl]
  | zero => rfl
  | one => rfl
  | optional => rfl
  | zeroOrMore => rfl
  | oneOrMore => rfl

theorem Arity.definite_toJson (a : Arity) : a.toJson.Definite := by
  cases a with
  | exactly n => exact definite_ofMembers (List.forall_mem_singleton.mpr (.number n))
  | zero => exact .text _
  | one => exact .text _
  | optional => exact .text _
  | zeroOrMore => exact .text _
  | oneOrMore => exact .text _

namespace Action

/-- The members of the JSON form of an action. -/
def members (a : Action) : List (String × Value) :=
  [("names", .strs a.names), ("positional", .bool a.positional), ("arity", a.arity.toJson)]
    ++ textsMember "choices" a.choices
    ++ [("value_hint", .str a.hint.name), ("terminator", .bool a.terminator),
      ("repeatable", .bool a.repeatable), ("hidden", .bool a.hidden)]
    ++ textMember "help" a.help

theorem toJson_eq (a : Action) : a.toJson = .ofMembers a.members := rfl

theorem keys_members (a : Action) : (a.members.map (·.1)).Sublist fieldNames := by
  unfold members
  rw [List.map_append, List.map_append, List.map_append]
  exact (((List.Sublist.refl _).append (keys_textsMember _ _)).append (.refl _)).append
    (keys_textMember _ _)

theorem definite_toJson (a : Action) : a.toJson.Definite := by
  rw [toJson_eq]
  refine definite_ofMembers ?_
  unfold members
  simp only [List.forall_mem_append, List.forall_mem_cons, List.not_mem_nil, IsEmpty.forall_iff,
    implies_true, and_true]
  exact ⟨⟨⟨⟨definite_strs _, .bool _, a.arity.definite_toJson⟩, definite_textsMember _ _⟩,
    .text _, .bool _, .bool _, .bool _⟩, definite_textMember _ _⟩

/-- Every member is found under its key. -/
theorem get?_members (a : Action) :
    (Fields.mk a.members).get? "names" = some (.strs a.names)
      ∧ (Fields.mk a.members).get? "positional" = some (.bool a.positional)
      ∧ (Fields.mk a.members).get? "arity" = some a.arity.toJson
      ∧ (Fields.mk a.members).get? "choices" = (textsMember "choices" a.choices).lookup "choices"
      ∧ (Fields.mk a.members).get? "value_hint" = some (.str a.hint.name)
      ∧ (Fields.mk a.members).get? "terminator" = some (.bool a.terminator)
      ∧ (Fields.mk a.members).get? "repeatable" = some (.bool a.repeatable)
      ∧ (Fields.mk a.members).get? "hidden" = some (.bool a.hidden)
      ∧ (Fields.mk a.members).get? "help" = (textMember "help" a.help).lookup "help" := by
  simp [Fields.get?, members, List.lookup_append, List.lookup_cons]

/-- **The form of an action is read back**, but for its completer. -/
theorem ofJson?_toJson {a : Action} {depth : Nat} (hn : a.toJson.nesting ≤ depth)
    (hw : ∀ n, a.arity = .exactly n → n < Text.wordBound) :
    ofJson? depth a.toJson = some a.withoutCompleter := by
  cases depth with
  | zero => exact absurd hn (Nat.not_succ_le_zero _)
  | succ d =>
    have hfields : a.toJson.fields? fieldNames = some ⟨a.members⟩ :=
      fields?_ofMembers (by decide) a.keys_members
    have hget : ∀ {key v}, (Fields.mk a.members).get? key = some v → v.nesting ≤ d :=
      nesting_of_get? hn
    obtain ⟨hnames, hpositional, harity, hchoices, hhint, hterminator, hrepeatable, hhidden, hhelp⟩ :=
      a.get?_members
    have hname : ((Value.str a.hint.name).plainVariant? d).bind ValueHint.ofName? = some a.hint :=
      a.hint.ofName?_name
    rw [ofJson?, hfields, Option.bind_eq_bind, Option.bind_some, required_eq hnames,
      texts?_strs (hget hnames), optional_eq hpositional, optional_eq harity,
      Arity.ofJson?_toJson (hget harity) hw, optional_texts hchoices fun _ => hget,
      optional_eq hhint, optional_eq hterminator, optional_eq hrepeatable, optional_eq hhidden,
      optional_text hhelp, hname]
    rfl

end Action

/-! ## 3. Commands -/

namespace Command

theorem allToJson_eq_map (cs : List Command) : allToJson cs = cs.map toJson := by
  induction cs with
  | nil => rfl
  | cons c cs ih => rw [allToJson, ih, List.map_cons]

/-- The members of the JSON form of a command. -/
def members (c : Command) : List (String × Value) :=
  [("name", .str c.name)] ++ textsMember "aliases" c.aliases ++ textMember "help" c.help
    ++ [("prefix_chars", .str c.flagChars), ("actions", .list (c.actions.map (·.toJson))),
      ("subcommands", .list (c.subcommands.map toJson))]

theorem toJson_eq (c : Command) : c.toJson = .ofMembers c.members := by
  cases c
  rw [toJson, allToJson_eq_map]
  rfl

theorem keys_members (c : Command) : (c.members.map (·.1)).Sublist fieldNames := by
  unfold members
  rw [List.map_append, List.map_append, List.map_append]
  exact (((List.Sublist.refl _).append (keys_textsMember _ _)).append
    (keys_textMember _ _)).append (.refl _)

/-- Every member is found under its key. -/
theorem get?_members (c : Command) :
    (Fields.mk c.members).get? "name" = some (.str c.name)
      ∧ (Fields.mk c.members).get? "aliases" = (textsMember "aliases" c.aliases).lookup "aliases"
      ∧ (Fields.mk c.members).get? "help" = (textMember "help" c.help).lookup "help"
      ∧ (Fields.mk c.members).get? "prefix_chars" = some (.str c.flagChars)
      ∧ (Fields.mk c.members).get? "actions" = some (.list (c.actions.map (·.toJson)))
      ∧ (Fields.mk c.members).get? "subcommands" = some (.list (c.subcommands.map toJson)) := by
  simp [Fields.get?, members, List.lookup_append, List.lookup_cons]

/-- **The JSON form of a command can be written.** -/
theorem definite_toJson : ∀ c : Command, c.toJson.Definite :=
  treeInduction fun c ih => by
    rw [toJson_eq]
    refine definite_ofMembers ?_
    unfold members
    simp only [List.forall_mem_append, List.forall_mem_cons, List.not_mem_nil, IsEmpty.forall_iff,
      implies_true, and_true]
    refine ⟨⟨⟨.text _, definite_textsMember _ _⟩, definite_textMember _ _⟩, .text _, .list ?_,
      .list ?_⟩
    · exact List.forall_mem_map.mpr fun a _ => a.definite_toJson
    · exact List.forall_mem_map.mpr ih

/-- Completers are not written. -/
theorem toJson_withoutCompleters : ∀ c : Command, c.withoutCompleters.toJson = c.toJson :=
  treeInduction fun c ih => by
    have hactions : (c.actions.map (·.withoutCompleter)).map (·.toJson)
        = c.actions.map (·.toJson) := by
      rw [List.map_map]
      rfl
    have hsubcommands : (c.subcommands.map withoutCompleters).map toJson
        = c.subcommands.map toJson := by
      rw [List.map_map]
      exact List.map_congr_left ih
    rw [toJson_eq, toJson_eq, members, actions_withoutCompleters, subcommands_withoutCompleters,
      hactions, hsubcommands, withoutCompleters_eq]
    rfl

/-- The numbers in a command, sub-commands included, fit a machine word. -/
def WordSized (c : Command) : Prop :=
  ∀ d, c.HasScope d → ∀ a ∈ d.actions, ∀ n, a.arity = .exactly n → n < Text.wordBound

theorem wordSized_iff {c : Command} : c.WordSized ↔
    (∀ a ∈ c.actions, ∀ n, a.arity = .exactly n → n < Text.wordBound)
      ∧ ∀ child ∈ c.subcommands, child.WordSized := by
  constructor
  · intro h
    exact ⟨h c (.self c), fun child hc d hd => h d (.under hc hd)⟩
  · intro h d hd
    cases hd with
    | self => exact h.1
    | under hc hd => exact h.2 _ hc d hd

/-- **The form of a command is read back**, but for its completers, by a reader that may open as
    many levels as it has. -/
theorem ofJson?_toJson : ∀ c : Command, ∀ {depth : Nat}, c.WordSized → c.toJson.nesting ≤ depth →
    ofJson? depth c.toJson = some c.withoutCompleters :=
  treeInduction fun c ih depth hw hn => by
    obtain ⟨hwactions, hwchildren⟩ := wordSized_iff.mp hw
    have hfields : c.toJson.fields? fieldNames = some ⟨c.members⟩ := by
      rw [toJson_eq]
      exact fields?_ofMembers (by decide) c.keys_members
    obtain ⟨hname, haliases, hhelp, hflagChars, hactions, hsubcommands⟩ := c.get?_members
    rw [toJson_eq] at hn
    cases depth with
    | zero => exact absurd hn (Nat.not_succ_le_zero _)
    | succ e =>
      have hget : ∀ {key v}, (Fields.mk c.members).get? key = some v → v.nesting ≤ e :=
        nesting_of_get? hn
      cases e with
      -- The list of the sub-commands is one level of its own.
      | zero => exact absurd (hget hsubcommands) (Nat.not_succ_le_zero _)
      | succ d =>
        have hread : (Value.list (c.actions.map (·.toJson))).list? (d + 1) Action.ofJson?
            = some (c.actions.map (·.withoutCompleter)) :=
          list?_map (hget hactions) fun _ a ha hna => Action.ofJson?_toJson hna (hwactions a ha)
        have hchildren : (c.subcommands.map toJson).mapM (ofJson? d)
            = some (c.subcommands.map withoutCompleters) :=
          mapM_map_eq_some fun child hc => ih child hc (hwchildren child hc)
            (nesting_list_le_iff.mp (hget hsubcommands) _ (List.mem_map_of_mem hc))
        rw [ofJson?, ofFields?, hfields, Option.bind_eq_bind, Option.bind_some, required_eq hname,
          optional_texts haliases fun _ => hget, optional_text hhelp, optional_eq hflagChars,
          optional_eq hactions, hread, optional_eq hsubcommands]
        dsimp only
        rw [hchildren, withoutCompleters_eq]
        rfl

/-! ## 4. The text -/

/-- **A well-formed command is read back from its JSON text**, but for its completers: reading
    succeeds, and what it gives is written as the same text again. The numbers in the command are
    machine words, and its form nests no deeper than a reader may go. -/
theorem ofJsonText_toJsonText (c : Command) (hv : c.validate = .ok ()) (hw : c.WordSized)
    (hn : c.toJson.nesting ≤ maxNesting) : ofJsonText c.toJsonText = .ok c.withoutCompleters
      ∧ c.withoutCompleters.toJsonText = c.toJsonText := by
  have hparse : parse? c.toJsonText = some c.withoutCompleters := by
    unfold parse? toJsonText
    rw [parse?_pretty c.definite_toJson, Option.bind_some]
    exact ofJson?_toJson c hw hn
  constructor
  · unfold ofJsonText
    rw [hparse]
    dsimp only
    rw [validate_withoutCompleters, hv]
  · unfold toJsonText
    rw [toJson_withoutCompleters]

/-- A program for making tea, with a sub-command and with texts that are written with escapes. -/
def brewing : Command :=
  ⟨"brew", ["tea \"pot\"", "thé"], some "Makes tea.\n\tHot.", "-+", [
    ⟨["-c", "--cup"], false, .exactly 2, ["a\\b", ""], some .environ, .envVar, false, true, false,
      some "\x01"⟩,
    .operand "leaf"], [
    ⟨"pour", [], none, "-", [{ Action.flag ["-f"] with hidden := true }], []⟩]⟩

theorem wordSized_brewing : brewing.WordSized := by
  refine wordSized_iff.mpr ⟨?_, List.forall_mem_singleton.mpr (wordSized_iff.mpr ⟨?_, ?_⟩)⟩
  · simp [brewing, Action.operand, Text.wordBound]
  · simp [Action.flag]
  · exact List.forall_mem_nil _

/-- The command for making tea is read back without the completer of its flag. -/
theorem ofJsonText_toJsonText_brewing : brewing.validate = .ok () ∧ brewing.WordSized
    ∧ brewing.toJson.nesting ≤ maxNesting
    ∧ ofJsonText brewing.toJsonText = .ok brewing.withoutCompleters
    ∧ brewing.withoutCompleters.toJsonText = brewing.toJsonText := by
  have hv : brewing.validate = .ok () := by decide
  have hn : brewing.toJson.nesting ≤ maxNesting := by decide
  exact ⟨hv, wordSized_brewing, hn, ofJsonText_toJsonText brewing hv wordSized_brewing hn⟩

end Command

end TabCompletion
