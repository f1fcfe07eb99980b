import TabCompletion.Host.FileSystem
import TabCompletion.Proofs.Text.Joins

/-!
# Entries, looked up by their paths

What a directory lists can be looked up again, one entry after the other, by the path of the
directory with the entry's name behind it. Such a path is longer than that of the directory, and so
it can be too long where that one is not. Nor is anything found in a directory that the process may
read but not search.

* `Listing`: the lists of entries that a directory can have;
* `FileTree.follow_append`: names are followed one after the other, first some and then the others;
* `FileSystem.find_join`: an entry is found at its path;
* `FileSystem.isDirectory_join`: whether a directory is found there.
-/

namespace TabCompletion

open Text

/-- A name that an entry of a directory can have. -/
structure EntryName (name : String) : Prop where
  nonempty : name ≠ ""
  notHere : name ≠ "."
  notAbove : name ≠ ".."
  noSlash : '/' ∉ name.toList
  noNul : '\x00' ∉ name.toList
  short : name.utf8ByteSize ≤ FileTree.maxName

/-- The entries of a directory: each name occurs once. -/
structure Listing (es : List (String × FileTree)) : Prop where
  distinct : (es.map (·.1)).Nodup
  names : ∀ e ∈ es, EntryName e.1

variable {es : List (String × FileTree)} {name : String} {t : FileTree}

theorem Listing.perm {es' : List (String × FileTree)} (h : Listing es) (hp : es'.Perm es) :
    Listing es' :=
  ⟨(hp.map (·.1)).nodup_iff.mpr h.distinct, fun e he => h.names e (hp.mem_iff.mp he)⟩

/-- The entry of a name is the one that the list has for it. -/
theorem Listing.lookup (h : Listing es) (he : (name, t) ∈ es) : es.lookup name = some t := by
  obtain ⟨before, after, rfl⟩ := List.append_of_mem he
  refine List.lookup_eq_some_iff.mpr ⟨before, after, rfl, fun e hb => bne_iff_ne.mpr fun hn => ?_⟩
  have hdistinct := h.distinct
  rw [List.map_append, List.map_cons] at hdistinct
  exact (List.nodup_append.mp hdistinct).2.2 e.1 (List.mem_map_of_mem hb) name List.mem_cons_self
    hn.symm

/-! ## 1. Following names -/

namespace FileTree

/-- **Names are followed one after the other.** -/
theorem follow_append {here d : FileTree} {above : List FileTree} {names : List String}
    (h : follow here above names = .ok d) :
    ∃ above', ∀ rest, follow here above (names ++ rest) = follow d above' rest := by
  induction names generalizing here above with
  | nil =>
    cases h
    exact ⟨above, fun _ => rfl⟩
  | cons n names ih =>
    rw [follow] at h
    cases henter : enter above here n with
    | error f =>
      rw [henter] at h
      cases h
    | ok next =>
      rw [henter] at h
      obtain ⟨above', hrest⟩ := ih h
      refine ⟨above', fun rest => ?_⟩
      rw [List.cons_append, follow, henter]
      exact hrest rest

/-- An empty name in front of another one leads nowhere else. -/
theorem follow_empty {here : FileTree} {above : List FileTree} (names : List String)
    (next : String) (rest : List String) :
    follow here above (names ++ "" :: next :: rest) = follow here above (names ++ next :: rest) := by
  induction names generalizing here above with
  | nil => cases here <;> rfl
  | cons m names ih =>
    rw [List.cons_append, List.cons_append, follow, follow]
    cases enter above here m with
    | error f => rfl
    | ok next => exact ih

theorem enter_entry (h : Listing es) (he : (name, t) ∈ es) (above : List FileTree)
    {rights : Rights} (hrights : rights.search = true) :
    enter above (.directory rights es) name = .ok (.directory rights es :: above, t) := by
  obtain ⟨hnonempty, hhere, habove, -, -, hshort⟩ := h.names (name, t) he
  unfold enter
  dsimp only
  rw [if_neg hnonempty, hrights, Bool.not_true, if_neg Bool.false_ne_true, if_neg hhere,
    if_neg habove, if_neg (Nat.not_lt.mpr hshort), h.lookup he]

/-- Without the right to search a directory, none of its entries is found. -/
theorem enter_denied (h : EntryName name) (above : List FileTree) {rights : Rights}
    (hrights : rights.search = false) :
    enter above (.directory rights es) name = .error .accessDenied := by
  unfold enter
  dsimp only
  rw [if_neg h.nonempty, hrights, Bool.not_false, if_pos rfl]

end FileTree

/-! ## 2. The path of an entry -/

namespace Path

theorem isAbsolute_iff {path : String} : isAbsolute path = true ↔ path.toList.head? = some '/' := by
  unfold isAbsolute
  rw [startsWith_iff]
  cases path.toList with
  | nil => simp
  | cons c cs => simp [List.cons_prefix_cons, eq_comm]

/-- The beginning of a path decides. -/
theorem isAbsolute_append {a : String} (ha : a ≠ "") (b : String) :
    isAbsolute (a ++ b) = isAbsolute a := by
  obtain ⟨c, cs, hchars⟩ := List.exists_cons_of_ne_nil (mt String.toList_eq_nil_iff.mp ha)
  rw [Bool.eq_iff_iff, isAbsolute_iff, isAbsolute_iff, String.toList_append, hchars]
  rfl

theorem isAbsolute_entry (h : EntryName name) : isAbsolute name = false := by
  refine Bool.eq_false_iff.mpr fun ha => h.noSlash ?_
  exact List.mem_of_mem_head? (isAbsolute_iff.mp ha)

/-- The path of an entry has one slash in front of its name, be it the last one of the directory's
    path or not. -/
theorem join_entry (h : EntryName name) {dir : String} (hdir : dir ≠ "") :
    ∃ front, join dir name = front ++ "/" ++ name ∧ (dir = front ++ "/" ∨ dir = front) := by
  unfold join
  rw [if_neg (by rw [isAbsolute_entry h]; exact Bool.false_ne_true)]
  by_cases hend : endsWith dir "/" = true
  · obtain ⟨front, hfront⟩ := List.isSuffixOf_iff_suffix.mp hend
    have hdir : dir = String.ofList front ++ "/" := by
      apply String.ext
      rw [String.toList_append, String.toList_ofList, hfront]
    rw [if_pos (by rw [hend, Bool.or_true])]
    exact ⟨String.ofList front, by rw [hdir], .inl hdir⟩
  · refine ⟨dir, if_neg ?_, .inr rfl⟩
    rw [Bool.or_eq_true, String.isEmpty_iff]
    exact not_or.mpr ⟨hdir, hend⟩

/-- The path of an entry has more bytes than that of its directory and its name have. -/
theorem le_utf8ByteSize_join (h : EntryName name) {dir : String} (hdir : dir ≠ "") :
    dir.utf8ByteSize + name.utf8ByteSize ≤ (join dir name).utf8ByteSize := by
  obtain ⟨front, hjoin, rfl | rfl⟩ := join_entry h hdir
  · rw [hjoin]
    exact Nat.le_of_eq String.utf8ByteSize_append.symm
  · rw [hjoin, String.utf8ByteSize_append, String.utf8ByteSize_append]
    omega

end Path

namespace FileSystem

variable {fs : FileSystem} {dir : String}

/-- What is listed is a directory that is found. -/
theorem find_of_list (h : fs.list dir = .ok es) :
    ∃ rights, fs.find dir = .ok (.directory rights es) := by
  unfold list at h
  cases hfind : fs.find dir with
  | error f =>
    rw [hfind] at h
    cases h
  | ok t =>
    rw [hfind] at h
    cases t with
    | file rights text => cases h
    | directory rights es' =>
      change (if rights.read then Except.ok es' else Except.error FileFault.accessDenied) = _ at h
      split at h
      · cases h
        exact ⟨rights, rfl⟩
      · cases h

theorem isSearchable_of_find {rights : Rights} (h : fs.find dir = .ok (.directory rights es)) :
    fs.isSearchable dir = rights.search := by
  unfold isSearchable
  rw [h]

/-- The beginning of a path decides where its look-up begins. -/
theorem followFrom_append {a : String} (ha : a ≠ "") (b : String) (names : List String) :
    fs.followFrom (a ++ b) names = fs.followFrom a names := by
  unfold followFrom start?
  rw [Path.isAbsolute_append ha]

/-- **Names are followed one after the other.** -/
theorem followFrom_of_ok {names : List String} {d : FileTree} (h : fs.followFrom dir names = .ok d) :
    ∃ above, ∀ rest, fs.followFrom dir (names ++ rest) = d.follow above rest := by
  unfold followFrom at h ⊢
  cases hstart : fs.start? dir with
  | none =>
    rw [hstart] at h
    cases h
  | some place =>
    rw [hstart] at h
    exact FileTree.follow_append h

/-- **To follow the path of an entry is to follow that of the directory, and then its name.** -/
theorem followFrom_join (h : EntryName name) (hdir : dir ≠ "") :
    fs.followFrom (Path.join dir name) (splitAll '/' (Path.join dir name))
      = fs.followFrom dir (splitAll '/' dir ++ [name]) := by
  obtain ⟨front, hjoin, rfl | rfl⟩ := Path.join_entry h hdir
  · have hslash : splitAll '/' (front ++ "/" ++ "") = splitAll '/' front ++ [""] :=
      splitAll_append List.not_mem_nil
    rw [String.append_empty] at hslash
    have hparts : splitAll '/' (front ++ "/" ++ name) = splitAll '/' front ++ [name] :=
      splitAll_append h.noSlash
    rw [hjoin, hparts, hslash, followFrom_append hdir, List.append_assoc]
    unfold followFrom
    split
    · exact (FileTree.follow_empty _ _ _).symm
    · rfl
  · have hparts : splitAll '/' (dir ++ "/" ++ name) = splitAll '/' dir ++ [name] :=
      splitAll_append h.noSlash
    rw [hjoin, hparts, String.append_assoc, followFrom_append hdir]

theorem pathFault?_eq_none_iff {path : String} : pathFault? path = none ↔
    '\x00' ∉ path.toList ∧ path ≠ "" ∧ path.utf8ByteSize ≤ maxPath := by
  unfold pathFault? contains
  split
  · simp_all
  · split
    · simp_all
    · split <;> simp_all

/-- What is found has a path without faults. -/
theorem pathFault?_of_find (h : fs.find dir = .ok t) : pathFault? dir = none := by
  unfold find at h
  split at h
  · cases h
  · assumption

theorem followFrom_of_find (h : fs.find dir = .ok t) :
    fs.followFrom dir (splitAll '/' dir) = .ok t := by
  have hfault := pathFault?_of_find h
  unfold find at h
  rw [hfault] at h
  exact h

/-- The path of an entry has no fault but that it may be too long. -/
theorem pathFault?_join (hdir : pathFault? dir = none) (h : EntryName name)
    (hsize : (Path.join dir name).utf8ByteSize ≤ maxPath) : pathFault? (Path.join dir name) = none := by
  obtain ⟨hnul, hnonempty, -⟩ := pathFault?_eq_none_iff.mp hdir
  obtain ⟨front, hjoin, hfront⟩ := Path.join_entry h hnonempty
  have hfrontNul : '\x00' ∉ front.toList := by
    rcases hfront with rfl | rfl
    · exact fun hc => hnul (by rw [String.toList_append]; exact List.mem_append_left _ hc)
    · exact hnul
  refine pathFault?_eq_none_iff.mpr ⟨?_, ?_, hsize⟩
  · rw [hjoin, String.toList_append, String.toList_append]
    exact List.not_mem_append (List.not_mem_append hfrontNul (by decide)) h.noNul
  · rw [hjoin]
    exact fun he => h.nonempty (String.append_eq_empty_iff.mp he).2

/-- The look-up of an entry ends with the step into the directory that lists it. -/
theorem find_join_eq (hlist : fs.list dir = .ok es) (h : EntryName name)
    (hsize : (Path.join dir name).utf8ByteSize ≤ maxPath) : ∃ rights above,
    fs.isSearchable dir = rights.search
      ∧ fs.find (Path.join dir name) = (FileTree.directory rights es).follow above [name] := by
  obtain ⟨rights, hfind⟩ := find_of_list hlist
  have hfault := pathFault?_of_find hfind
  have hnonempty := (pathFault?_eq_none_iff.mp hfault).2.1
  obtain ⟨above, hrest⟩ := followFrom_of_ok (followFrom_of_find hfind)
  refine ⟨rights, above, isSearchable_of_find hfind, ?_⟩
  unfold find
  rw [pathFault?_join hfault h hsize]
  dsimp only
  rw [followFrom_join h hnonempty, hrest]

/-- **An entry that is listed is found at its path**, if the path is not too long and the directory
    may be searched. -/
theorem find_join (hlist : fs.list dir = .ok es) (hes : Listing es) (he : (name, t) ∈ es)
    (hsize : (Path.join dir name).utf8ByteSize ≤ maxPath) (hsearch : fs.isSearchable dir = true) :
    fs.find (Path.join dir name) = .ok t := by
  obtain ⟨rights, above, hrights, hfind⟩ := find_join_eq hlist (hes.names (name, t) he) hsize
  rw [hfind, FileTree.follow, FileTree.enter_entry hes he above (hrights.symm.trans hsearch)]
  rfl

theorem find_join_denied (hlist : fs.list dir = .ok es) (h : EntryName name)
    (hsize : (Path.join dir name).utf8ByteSize ≤ maxPath) (hsearch : fs.isSearchable dir = false) :
    fs.find (Path.join dir name) = .error .accessDenied := by
  obtain ⟨rights, above, hrights, hfind⟩ := find_join_eq hlist h hsize
  rw [hfind, FileTree.follow, FileTree.enter_denied h above (hrights.symm.trans hsearch)]
  rfl

/-- **Whether an entry is a directory cannot be seen at a path that is too long**, nor without the
    right to search the directory that lists it. -/
theorem isDirectory_join (hlist : fs.list dir = .ok es) (hes : Listing es) (he : (name, t) ∈ es) :
    fs.isDirectory (Path.join dir name) = true ↔ t.isDirectory = true
      ∧ (Path.join dir name).utf8ByteSize ≤ maxPath ∧ fs.isSearchable dir = true := by
  unfold isDirectory
  by_cases hsize : (Path.join dir name).utf8ByteSize ≤ maxPath
  · cases hsearch : fs.isSearchable dir with
    | true => simp [find_join hlist hes he hsize hsearch, hsize]
    | false => simp [find_join_denied hlist (hes.names (name, t) he) hsize hsearch]
  · cases hfind : fs.find (Path.join dir name) with
    | error f => simp [hsize]
    | ok d => exact absurd (pathFault?_eq_none_iff.mp (pathFault?_of_find hfind)).2.2 hsize

/-- A slash behind the path of a directory leads nowhere else. -/
theorem find_slash {rights : Rights} (h : fs.find dir = .ok (.directory rights es))
    (hsize : (dir ++ "/").utf8ByteSize ≤ maxPath) :
    fs.find (dir ++ "/") = .ok (.directory rights es) := by
  obtain ⟨hnul, hnonempty, -⟩ := pathFault?_eq_none_iff.mp (pathFault?_of_find h)
  have hfault : pathFault? (dir ++ "/") = none := by
    refine pathFault?_eq_none_iff.mpr ⟨?_, ?_, hsize⟩
    · rw [String.toList_append]
      exact List.not_mem_append hnul (by decide)
    · exact fun he => hnonempty (String.append_eq_empty_iff.mp he).1
  have hparts : splitAll '/' (dir ++ "/" ++ "") = splitAll '/' dir ++ [""] :=
    splitAll_append List.not_mem_nil
  rw [String.append_empty] at hparts
  obtain ⟨above, hrest⟩ := followFrom_of_ok (followFrom_of_find h)
  unfold find
  rw [hfault]
  dsimp only
  rw [hparts, followFrom_append hnonempty, hrest]
  rfl

end FileSystem

end TabCompletion
