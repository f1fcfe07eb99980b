import TabCompletion.Proofs.Toml.Tokens
import TabCompletion.Toml.Reader

/-!
# Written lines are read back

A text is written line by line: entries, and headers of tables with an empty line in front. Each
line is read as what it was written for, and adds that to what the lines before it have made.

* `Denotes`: the tokens of a value, between its key and the end of its line;
* `Writes`, `writes_bool`, `writes_text`, `writes_texts`: characters that write a value;
* `Adds`: lines that lead from some table and entries to others;
* `adds_entry`, `adds_member`, `adds_header`: what a single line adds;
* `parse?_of_adds`: a text is read as what its lines have made.
-/

namespace TabCompletion.Toml

namespace Reading

/-! ## 1. Reading tokens -/

/-- Read tokens one after the other. -/
def run (r : Reading) (ts : List Token) : Option Reading :=
  ts.foldlM step r

theorem run_cons (r : Reading) (t : Token) (ts : List Token) :
    r.run (t :: ts) = (r.step t).bind (·.run ts) := rfl

theorem run_append (r : Reading) (ts us : List Token) :
    r.run (ts ++ us) = (r.run ts).bind (·.run us) :=
  List.foldlM_append

theorem run_single (r : Reading) (t : Token) : r.run [t] = r.step t := by
  rw [run_cons]
  show (r.step t).bind some = _
  rw [Option.bind_fun_some]

/-- A line may begin, with nothing open; the last header named `table`. -/
def atLine (table : List String) (root : Entries) : Reading := ⟨[], .lineStart, table, root⟩

/-- The value of a key is complete, and its line is about to end. -/
theorem run_complete (keys table : List String) (root : Entries) (place : Place) (v : Value) :
    ((⟨[.entry keys], place, table, root⟩ : Reading).complete v).bind (·.run [.newline])
      = (insertBelow? table keys v root).map (atLine table) := by
  show ((insertBelow? table keys v root).map _).bind _ = _
  cases insertBelow? table keys v root with
  | none => rfl
  | some root => rfl

end Reading

open Toml.Reading

/-! ## 2. Values -/

/-- **The tokens of a value**: behind a key they give it that value, once the line ends. -/
def Denotes (ts : List Token) (v : Value) : Prop :=
  ∀ keys table root, (⟨[.entry keys], .value, table, root⟩ : Reading).run (ts ++ [.newline])
    = (insertBelow? table keys v root).map (atLine table)

theorem denotes_text (block : Bool) (s : String) : Denotes [.text block s] (.text s) :=
  fun keys table root => run_complete keys table root .value (.text s)

theorem denotes_bool (b : Bool) : Denotes [.run (writeBool b)] (.bool b) := by
  intro keys table root
  -- the line break shows that the scalar is complete
  have hscalar : scalar? (writeBool b).reverse.reverse = some (.bool b) := by
    cases b with
    | true => rfl
    | false => rfl
  show (endScalar ⟨[.entry keys], .scalar (writeBool b).reverse, table, root⟩
    (writeBool b).reverse .newline).bind some = _
  unfold endScalar
  rw [hscalar]
  show (((insertBelow? table keys (.bool b) root).map _).bind _).bind some = _
  cases insertBelow? table keys (.bool b) root with
  | none => rfl
  | some root => rfl

/-- The items of a list that is written over several lines are added to it. -/
theorem run_items (items : List Value) (rest : List Frame) (table : List String) (root : Entries)
    (ss : List String) :
    (⟨.list items :: rest, .item, table, root⟩ : Reading).run
        (ss.flatMap fun s => [.space, .space, .space, .space, textToken s, .comma, .newline])
      = some ⟨.list ((ss.map .text).reverse ++ items) :: rest, .item, table, root⟩ := by
  induction ss generalizing items with
  | nil => rfl
  | cons s ss ih =>
    have hitem : (⟨.list items :: rest, .item, table, root⟩ : Reading).run
        [.space, .space, .space, .space, textToken s, .comma, .newline]
          = some ⟨.list (.text s :: items) :: rest, .item, table, root⟩ := rfl
    rw [List.flatMap_cons, run_append, hitem, Option.bind_some, ih, List.map_cons,
      List.reverse_cons, List.append_assoc, List.singleton_append]

theorem denotes_texts (ss : List String) :
    Denotes (textsTokens ss) (.list false (ss.map .text)) := by
  intro keys table root
  match ss with
  | [] => exact run_complete keys table root .item _
  | [s] => exact run_complete keys table root .afterItem _
  | s :: s' :: ss =>
    have hopen : (⟨[.entry keys], .value, table, root⟩ : Reading).run [.openBracket, .newline]
        = some ⟨[.list [], .entry keys], .item, table, root⟩ := rfl
    unfold textsTokens
    rw [run_append, run_append, run_append, hopen, Option.bind_some, run_items, Option.bind_some,
      List.append_nil, run_single]
    refine (run_complete keys table root .item
      (.list false ((s :: s' :: ss).map Value.text).reverse.reverse)).trans ?_
    rw [List.reverse_reverse]

/-- The characters write the value. -/
def Writes (cs : List Char) (v : Value) : Prop :=
  ∃ ts, Lexes cs ts ∧ Denotes ts v

theorem writes_bool (b : Bool) : Writes (writeBool b) (.bool b) :=
  ⟨_, lexes_writeBool b, denotes_bool b⟩

theorem writes_text (s : String) : Writes (writeText s) (.text s) :=
  ⟨_, lexes_writeText s, denotes_text _ s⟩

theorem writes_texts (ss : List String) : Writes (writeTexts ss) (.list false (ss.map .text)) :=
  ⟨_, (reads_writeTexts ss).lexes, denotes_texts ss⟩

/-! ## 3. Lines -/

/-- **The lines lead from a table and entries to others**: the table is the one that the last header
    names, and the entries are all that there are so far. -/
def Adds (cs : List Char) (old new : List String × Entries) : Prop :=
  ∃ ts, Reads cs ts ∧ (atLine old.1 old.2).run ts = some (atLine new.1 new.2)

theorem Adds.append {cs ds : List Char} {old mid new : List String × Entries} (h : Adds cs old mid)
    (h' : Adds ds mid new) : Adds (cs ++ ds) old new := by
  obtain ⟨ts, hts, hrun⟩ := h
  obtain ⟨us, hus, hrun'⟩ := h'
  exact ⟨ts ++ us, hts.append hus, by rw [run_append, hrun, Option.bind_some, hrun']⟩

/-- The text may be a key without quotes. -/
def IsKey (key : String) : Prop :=
  key.toList ≠ [] ∧ ∀ c ∈ key.toList, isKeyChar c = true ∧ isBare c = true

instance (key : String) : Decidable (IsKey key) :=
  decidable_of_iff (key.toList.isEmpty = false
      ∧ key.toList.all (fun c => isKeyChar c && isBare c) = true) <| by
    simp [IsKey]

namespace IsKey

variable {key : String}

theorem lexes (h : IsKey key) : Lexes key.toList [.run key.toList] :=
  lexes_run h.1 fun c hc => (h.2 c hc).2

theorem key?_eq (h : IsKey key) : key? (.run key.toList) = some key := by
  have hall : key.toList.all isKeyChar = true := List.all_eq_true.mpr fun c hc => (h.2 c hc).1
  show (if key.toList.all isKeyChar then _ else none) = _
  rw [if_pos hall, String.ofList_toList]

end IsKey

variable {key name : String} {cs : List Char} {v : Value} {table : List String} {root : Entries}

/-- An entry adds its value to the table of the last header. -/
theorem adds_of_insertBelow? (hkey : IsKey key) (h : Writes cs v) {root' : Entries}
    (hi : insertBelow? table [key] v root = some root') :
    Adds (writeEntry key cs) (table, root) (table, root') := by
  obtain ⟨ts, hts, hdenotes⟩ := h
  refine ⟨entryTokens key ts, reads_writeEntry hkey.lexes hts, ?_⟩
  have hname : (atLine table root).run [.run key.toList, .space, .equals, .space]
      = some ⟨[.entry [key]], .value, table, root⟩ := by
    show ((key? (.run key.toList)).map _).bind _ = _
    rw [hkey.key?_eq]
    rfl
  unfold entryTokens
  rw [List.append_assoc, run_append, hname, Option.bind_some, hdenotes, hi]
  rfl

/-- A key that a table does not have yet is put behind the others. -/
theorem insert?_of_lookup (hnew : root.lookup key = none) :
    insert? [key] v .header root = some (.header, root ++ [(key, v)]) := by
  unfold insert?
  simp [splitLast?, maxPath, descend?, hnew]

/-- A header of such a key opens a table behind the others. -/
theorem openTable?_of_lookup (hnew : root.lookup name = none) :
    openTable? [name] root = some (root ++ [(name, .table .header [])]) := by
  unfold openTable?
  simp [splitLast?, maxPath, descend?, hnew]

/-- **An entry before the first header** stands behind those before it. -/
theorem adds_entry (hkey : IsKey key) (h : Writes cs v) (hnew : root.lookup key = none) :
    Adds (writeEntry key cs) ([], root) ([], root ++ [(key, v)]) := by
  refine adds_of_insertBelow? hkey h ?_
  show (insert? [key] v .header root).map (·.2) = _
  rw [insert?_of_lookup hnew, Option.map_some]

/-- **A header** stands for a table that is empty so far. -/
theorem adds_header (hkey : IsKey name) (hnew : root.lookup name = none) :
    Adds (writeHeader name) (table, root) ([name], root ++ [(name, .table .header [])]) := by
  refine ⟨headerTokens name, reads_writeHeader hkey.lexes, ?_⟩
  have hname : (atLine table root).run [.newline, .openBracket, .run name.toList]
      = some ⟨[], .afterKey .tableHeader [name], table, root⟩ := by
    show ((key? (.run name.toList)).map _).bind some = _
    rw [hkey.key?_eq]
    rfl
  show (atLine table root).run ([.newline, .openBracket, .run name.toList]
    ++ [.closeBracket, .newline]) = _
  rw [run_append, hname, Option.bind_some]
  show ((openTable? [name] root).map _).bind _ = _
  rw [openTable?_of_lookup hnew]
  rfl

theorem lookup_concat (hroot : root.lookup name = none) (w : Value) :
    (root ++ [(name, w)]).lookup name = some w := by
  rw [List.lookup_append, hroot]
  simp

/-- The entry at the end is replaced if its key does not stand before. -/
theorem set_concat (hroot : root.lookup name = none) (w w' : Value) :
    Entries.set name w' (root ++ [(name, w)]) = root ++ [(name, w')] := by
  induction root with
  | nil => exact if_pos rfl
  | cons entry root ih =>
    obtain ⟨k, u⟩ := entry
    rw [List.lookup_cons] at hroot
    split at hroot
    · cases hroot
    · rename_i hne
      have hk : k ≠ name := fun he => by simp [he] at hne
      rw [List.cons_append, Entries.set, if_neg hk, ih hroot]
      rfl

/-- **An entry behind a header** stands in the table that it names. -/
theorem adds_member {inner : Entries} (hkey : IsKey key) (h : Writes cs v)
    (hroot : root.lookup name = none) (hnew : inner.lookup key = none) :
    Adds (writeEntry key cs) ([name], root ++ [(name, .table .header inner)])
      ([name], root ++ [(name, .table .header (inner ++ [(key, v)]))]) := by
  refine adds_of_insertBelow? hkey h ?_
  have htable : descend? false (insert? [key] v) [name] .header
      (root ++ [(name, .table .header inner)])
        = some (.header, root ++ [(name, .table .header (inner ++ [(key, v)]))]) := by
    rw [descend?, lookup_concat hroot]
    show ((Option.map _ (insert? [key] v .header inner)).bind _) = _
    rw [insert?_of_lookup hnew]
    exact congrArg (fun es => some (TableKind.header, es)) (set_concat hroot _ _)
  unfold insertBelow?
  rw [htable]
  rfl

/-- The first character of a text is no byte order mark. -/
theorem parse?_of_adds (h : Adds cs ([], []) (table, root)) (hmark : cs.head? ≠ some '\uFEFF') :
    parse? (String.ofList cs) = some (.table .header root) := by
  obtain ⟨ts, hts, hrun⟩ := h
  unfold parse?
  rw [String.toList_ofList, tokens?_of_reads hts hmark, Option.bind_some]
  show ((Reading.run .start ts).bind Reading.finish).map _ = _
  rw [show Reading.run .start ts = _ from hrun]
  rfl

end TabCompletion.Toml
