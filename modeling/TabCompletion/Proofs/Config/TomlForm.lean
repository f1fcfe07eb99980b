import TabCompletion.Config.TomlForm
import TabCompletion.Proofs.Toml.ReadBack

/-!
# A configuration is read back from its TOML text

Every setting is written, so that none has to be filled in. The flags that are never offered may
have any characters in their names.

* `Logging.entries`, `Config.entries`: the entries that are written;
* `parse?_toToml`: the text is read as these entries;
* `ofForm?_entries`: these entries are read as the configuration;
* `ofToml_toToml`: a configuration that passes the check is read back.
-/

namespace TabCompletion

open Document.Fields Toml

/-! ## 1. Fields -/

namespace Toml

@[simp] theorem form_bool?_bool (b : Bool) : form.bool? (.bool b) = some b := rfl

@[simp] theorem form_plainVariant?_text (s : String) : form.plainVariant? (.text s) = some s := rfl

@[simp] theorem form_fields?_table (names : List String) (kind : TableKind) (es : Entries) :
    form.fields? names (.table kind es) = some ⟨es⟩ := rfl

/-- A list of texts is read as these texts. -/
@[simp] theorem form_texts?_texts (inlined : Bool) (ss : List String) :
    form.texts? (.list inlined (ss.map .text)) = some ss := by
  show (ss.map Value.text).mapM Value.text? = some ss
  induction ss with
  | nil => rfl
  | cons s ss ih =>
    rw [List.map_cons, List.mapM_cons, ih]
    rfl

end Toml

/-! ## 2. Entries -/

/-- The entries that are written for the logging settings. -/
def Logging.entries (l : Logging) : Entries :=
  [("level", .text l.level.name), ("timestamps", .bool l.timestamps)]

theorem Logging.ofForm?_entries (l : Logging) :
    Logging.ofForm? form (.table .header l.entries) = some l := by
  rw [Logging.ofForm?, form_fields?_table, Option.bind_eq_bind, Option.bind_some]
  -- both fields are there
  rw [optional_eq rfl, optional_eq rfl]
  simp [LogLevel.ofName?_name]

namespace Config

/-- The entries that are written for a configuration. -/
def entries (c : Config) : Entries :=
  [("append_space", .bool c.appendSpace),
    ("always_complete_options", .text c.optionCompletion.name),
    ("subcommand_policy", .text c.subcommandPolicy.name),
    ("order", .text c.order.name),
    ("print_hidden", .bool c.printHidden),
    ("exclude", .list false (c.exclude.map .text)),
    ("logging", .table .header c.logging.entries)]

/-- **The text of a configuration is read as its entries.** -/
theorem parse?_toToml (c : Config) : Toml.parse? c.toToml = some (.table .header c.entries) := by
  -- each line adds the next entry
  have hspace : Adds (writeEntry "append_space" (writeBool c.appendSpace)) ([], [])
      ([], c.entries.take 1) :=
    adds_entry (by decide) (writes_bool _) rfl
  have hoptions : Adds (writeEntry "always_complete_options" (writeText c.optionCompletion.name))
      ([], c.entries.take 1) ([], c.entries.take 2) :=
    adds_entry (by decide) (writes_text _) rfl
  have hpolicy : Adds (writeEntry "subcommand_policy" (writeText c.subcommandPolicy.name))
      ([], c.entries.take 2) ([], c.entries.take 3) :=
    adds_entry (by decide) (writes_text _) rfl
  have horder : Adds (writeEntry "order" (writeText c.order.name)) ([], c.entries.take 3)
      ([], c.entries.take 4) :=
    adds_entry (by decide) (writes_text _) rfl
  have hhidden : Adds (writeEntry "print_hidden" (writeBool c.printHidden)) ([], c.entries.take 4)
      ([], c.entries.take 5) :=
    adds_entry (by decide) (writes_bool _) rfl
  have hexclude : Adds (writeEntry "exclude" (writeTexts c.exclude)) ([], c.entries.take 5)
      ([], c.entries.take 6) :=
    adds_entry (by decide) (writes_texts _) rfl
  -- the last entry is the table behind the header
  have hlogging : Adds (writeHeader "logging") ([], c.entries.take 6)
      (["logging"], c.entries.take 6 ++ [("logging", .table .header [])]) :=
    adds_header (by decide) rfl
  have hlevel : Adds (writeEntry "level" (writeText c.logging.level.name))
      (["logging"], c.entries.take 6 ++ [("logging", .table .header [])])
      (["logging"], c.entries.take 6 ++ [("logging", .table .header (c.logging.entries.take 1))]) :=
    adds_member (by decide) (writes_text _) rfl rfl
  have htimestamps : Adds (writeEntry "timestamps" (writeBool c.logging.timestamps))
      (["logging"], c.entries.take 6 ++ [("logging", .table .header (c.logging.entries.take 1))])
      (["logging"], c.entries) :=
    adds_member (by decide) (writes_bool _) rfl rfl
  refine parse?_of_adds ((((((((hspace.append hoptions).append hpolicy).append horder).append
    hhidden).append hexclude).append hlogging).append hlevel).append htimestamps) ?_
  show some 'a' ≠ some '\uFEFF'
  decide

/-- **These entries are read as the configuration.** -/
theorem ofForm?_entries (c : Config) : ofForm? form (.table .header c.entries) = some c := by
  rw [ofForm?, form_fields?_table, Option.bind_eq_bind, Option.bind_some]
  -- every field is there
  rw [optional_eq rfl, optional_eq rfl, optional_eq rfl, optional_eq rfl, optional_eq rfl,
    optional_eq rfl, optional_eq rfl, c.logging.ofForm?_entries]
  simp [OptionCompletion.ofName?_name, SubcommandPolicy.ofName?_name, CandidateOrder.ofName?_name]

/-! ## 3. The law -/

/-- What is read back is the configuration itself, so that only its check can fail. -/
theorem ofToml_toToml_eq (c : Config) : ofToml c.toToml = c.validate.map fun _ => c := by
  unfold ofToml
  rw [parse?_toToml, Option.bind_some, ofForm?_entries]
  dsimp only
  cases c.validate with
  | ok u => rfl
  | error e => rfl

/-- **A configuration is read back from its TOML text**, if it passes the check. -/
theorem ofToml_toToml (c : Config) (h : c.validate = .ok ()) : ofToml c.toToml = .ok c := by
  rw [ofToml_toToml_eq, h]
  rfl

/-- Quotes of both kinds, alone and in runs that end the text, next to backslashes, line breaks and
    control characters. -/
def awkwardNames : List String :=
  ["--a\"b", "--a'b", "--'\"", "\"\"\"'''", "--c:\\dir\\", "--two\nlines\r\n", "\r'",
    "\t\x01\x7f\"", "--größe→∞"]

theorem ofToml_toToml_awkwardNames :
    let c : Config := ⟨false, .all, .preferSubcommands, .ranked, true, awkwardNames, ⟨.trace, true⟩⟩
    c.validate = .ok () ∧ ofToml c.toToml = .ok c := by
  intro c
  have hvalid : c.validate = .ok () := rfl
  exact ⟨hvalid, ofToml_toToml c hvalid⟩

end Config

end TabCompletion
