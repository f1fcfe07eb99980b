import Mathlib.Data.List.Nodup
import TabCompletion.Completion.Engine
import TabCompletion.Proofs.Host.Lookup
import TabCompletion.Proofs.Text.Cuts

/-!
# Paths on offer

What has been typed is cut behind its last slash: the part before names a directory, and the part
behind begins the names that are wanted of its entries. Whether an entry is a directory is looked up
at its path, so that one passes for a file if the look-up fails.

* `Wanted`, `offers`: the entries that are to be offered, and the candidates for them;
* `paths_of_list`: the candidates that are given, in order;
* `ListLaws`: the laws of this list, and when it is the one that ought to be given;
* `paths_exact`: the laws hold for every text, and what happens if there is nothing to list;
* `paths_not_always_exact`: a directory that is offered as a file.
-/

namespace TabCompletion

open Text

namespace PathFilter

/-! ## 1. What ought to be offered -/

/-- A name begins with the part that has been typed of it. A dot in front has to be typed. -/
def Shown (part name : String) : Prop :=
  part.toList <+: name.toList ∧ (['.'] <+: name.toList → ['.'] <+: part.toList)

/-- A name ends with an extension: there is something in front of its last dot. -/
def HasExtension (name ext : String) : Prop :=
  name ≠ ".." ∧ '.' ∉ ext.toList ∧ ∃ stem, stem ≠ "" ∧ name = stem ++ "." ++ ext

/-- An entry that is to be offered: a directory, or a file with one of the extensions. -/
def Wanted (f : PathFilter) (part : String) (e : String × FileTree) : Prop :=
  Shown part e.1 ∧ (e.2.isDirectory = true
    ∨ f.directoriesOnly = false ∧ (f.extensions = [] ∨ ∃ ext ∈ f.extensions, HasExtension e.1 ext))

/-- The candidate for an entry; a directory is marked by a slash behind it. -/
def offer (front : String) (e : String × FileTree) : Candidate :=
  if e.2.isDirectory then .directory (front ++ e.1 ++ "/") (e.1 ++ "/")
  else .file (front ++ e.1) e.1

theorem isShown_iff {part name : String} : isShown part name = true ↔ Shown part name := by
  unfold isShown Shown
  rw [Bool.and_eq_true, Bool.or_eq_true, Bool.not_eq_true', ← Bool.not_eq_true, startsWith_iff,
    startsWith_iff, startsWith_iff, Decidable.imp_iff_not_or]
  rfl

theorem extension?_eq_some_iff {name ext : String} :
    extension? name = some ext ↔ HasExtension name ext := by
  unfold extension? HasExtension
  by_cases hup : name = ".."
  · simp [hup]
  rw [if_neg hup]
  constructor
  · intro h
    obtain ⟨a, b, rfl, ha, hb⟩ := exists_splitAfterLast '.' name
    rw [splitAfterLast_append ha hb] at h
    dsimp only at h
    split at h
    · cases h
    · rename_i hstem
      cases h
      obtain ⟨stem, rfl⟩ := ha.resolve_left (not_or.mp hstem).1
      refine ⟨hup, hb, stem, ?_, rfl⟩
      rintro rfl
      exact (not_or.mp hstem).2 String.empty_append
  · rintro ⟨-, hext, stem, hstem, rfl⟩
    have hcut : splitAfterLast '.' (stem ++ "." ++ ext) = (stem ++ ".", ext) :=
      splitAfterLast_append (.inr ⟨stem, rfl⟩) hext
    rw [hcut]
    dsimp only
    refine if_neg (not_or.mpr ⟨fun he => ?_, fun he => hstem ?_⟩)
    · exact hstem (String.append_eq_empty_iff.mp he).1
    · exact (String.append_left_inj ".").mp (he.trans String.empty_append.symm)

theorem acceptsFile_iff {f : PathFilter} {name : String} : f.acceptsFile name = true ↔
    f.extensions = [] ∨ ∃ ext ∈ f.extensions, HasExtension name ext := by
  unfold acceptsFile
  rw [Bool.or_eq_true, List.isEmpty_iff]
  refine or_congr_right ?_
  cases hext : extension? name with
  | none =>
    refine iff_of_false Bool.false_ne_true ?_
    rintro ⟨ext, -, he⟩
    rw [extension?_eq_some_iff.mpr he] at hext
    cases hext
  | some ext =>
    refine List.contains_iff_mem.trans ⟨fun hm => ⟨ext, hm, extension?_eq_some_iff.mp hext⟩, ?_⟩
    rintro ⟨ext', hm, he⟩
    rw [extension?_eq_some_iff.mpr he] at hext
    cases hext
    exact hm

instance (f : PathFilter) (part : String) (e : String × FileTree) : Decidable (f.Wanted part e) :=
  decidable_of_iff (isShown part e.1 = true ∧ (e.2.isDirectory = true
    ∨ f.directoriesOnly = false ∧ f.acceptsFile e.1 = true))
    (and_congr isShown_iff (or_congr_right (and_congr_right fun _ => acceptsFile_iff)))

/-- The candidates for the entries of a directory. -/
def offers (f : PathFilter) (front part : String) (es : List (String × FileTree)) :
    List Candidate :=
  (es.filter fun e => f.Wanted part e).map (offer front)

variable {f : PathFilter} {files : FileSystem} {dir front part name : String} {t : FileTree}
  {es : List (String × FileTree)}

/-- The candidate for an entry that is seen as `t` at its path. -/
theorem entryCandidate?_eq (h : files.isDirectory (Path.join dir name) = t.isDirectory) :
    f.entryCandidate? files dir front part name
      = if f.Wanted part (name, t) then some (offer front (name, t)) else none := by
  have hfile : (!f.directoriesOnly && f.acceptsFile name) = true ↔ f.directoriesOnly = false
      ∧ (f.extensions = [] ∨ ∃ ext ∈ f.extensions, HasExtension name ext) := by
    rw [Bool.and_eq_true, Bool.not_eq_true', acceptsFile_iff]
  unfold entryCandidate? offer
  rw [h]
  by_cases hshown : Shown part name
  · rw [isShown_iff.mpr hshown, Bool.not_true, if_neg Bool.false_ne_true]
    cases t with
    | directory rights es => exact (if_pos ⟨hshown, .inl rfl⟩).symm
    | file rights text =>
      have hno : ¬ (FileTree.file rights text).isDirectory = true := Bool.false_ne_true
      rw [if_neg hno, if_neg hno]
      exact if_congr (hfile.trans ⟨fun hf => ⟨hshown, .inr hf⟩, fun hw => hw.2.resolve_left hno⟩)
        rfl rfl
  · rw [if_pos (by rw [Bool.eq_false_iff.mpr (mt isShown_iff.mp hshown)]; rfl),
      if_neg fun hw => hshown hw.1]

/-- Entry by entry. -/
theorem offers_eq_filterMap (f : PathFilter) (front part : String)
    (es : List (String × FileTree)) : f.offers front part es
      = es.filterMap fun e => if f.Wanted part e then some (offer front e) else none := by
  unfold offers
  induction es with
  | nil => rfl
  | cons e es ih =>
    rw [List.filter_cons, List.filterMap_cons]
    by_cases he : f.Wanted part e
    · rw [if_pos (decide_eq_true he), if_pos he, List.map_cons, ih]
    · rw [if_neg (mt of_decide_eq_true he), if_neg he, ih]

/-! ## 2. What is seen of a directory -/

/-- An entry as it is seen: for a directory only if one is found at its path. -/
def seen (files : FileSystem) (dir : String) (e : String × FileTree) : String × FileTree :=
  if files.isDirectory (Path.join dir e.1) then e else (e.1, .file .all "")

theorem seen_fst (files : FileSystem) (dir : String) (e : String × FileTree) :
    (seen files dir e).1 = e.1 := by
  unfold seen
  split <;> rfl

/-- What is found at the path of an entry is what the entry is, if anything is found. -/
theorem isDirectory_seen (hlist : files.list dir = .ok es) (hes : Listing es)
    {e : String × FileTree} (he : e ∈ es) :
    (seen files dir e).2.isDirectory = files.isDirectory (Path.join dir e.1) := by
  unfold seen
  cases hfound : files.isDirectory (Path.join dir e.1) with
  | true => exact ((FileSystem.isDirectory_join hlist hes he).mp hfound).1
  | false => rfl

theorem listing_seen (h : Listing es) (files : FileSystem) (dir : String) :
    Listing (es.map (seen files dir)) := by
  have hnames : (es.map (seen files dir)).map (·.1) = es.map (·.1) := by
    rw [List.map_map]
    exact List.map_congr_left fun e _ => seen_fst files dir e
  refine ⟨hnames ▸ h.distinct, List.forall_mem_map.mpr fun e he => ?_⟩
  rw [seen_fst]
  exact h.names e he

/-- **The candidates that are given** are those for the entries as they are seen. -/
theorem paths_of_list (hfront : Closed '/' front) (hpart : '/' ∉ part.toList)
    (hlist : files.list (f.directory front) = .ok es) (hes : Listing es) :
    f.paths files (front ++ part) = .candidates
      ((f.offers front part (es.map (seen files (f.directory front)))).mergeSort valueLe) := by
  have hentry : ∀ e ∈ es, f.entryCandidate? files (f.directory front) front part e.1
      = if f.Wanted part (seen files (f.directory front) e)
        then some (offer front (seen files (f.directory front) e)) else none := by
    intro e he
    have hseen : (e.1, (seen files (f.directory front) e).2) = seen files (f.directory front) e :=
      Prod.ext (seen_fst files (f.directory front) e).symm rfl
    rw [entryCandidate?_eq (isDirectory_seen hlist hes he).symm, hseen]
  have hentries : (es.filterMap fun e =>
      f.entryCandidate? files (f.directory front) front part e.1)
      = f.offers front part (es.map (seen files (f.directory front))) := by
    rw [offers_eq_filterMap, List.filterMap_map]
    exact List.filterMap_congr hentry
  unfold paths
  rw [splitAfterLast_append hfront hpart]
  dsimp only
  rw [hlist]
  dsimp only
  rw [hentries]

/-! ## 3. Order -/

theorem value_offer (front : String) (e : String × FileTree) :
    (offer front e).value = front ++ (if e.2.isDirectory then e.1 ++ "/" else e.1) := by
  unfold offer
  split
  · exact String.append_assoc
  · rfl

theorem kind_offer (front : String) (e : String × FileTree) :
    (offer front e).kind = .directory ↔ e.2.isDirectory = true := by
  unfold offer
  split <;> simp_all [Candidate.directory, Candidate.file]

/-- An entry is known by its value, for no name has a slash. -/
theorem value_offer_inj (hes : Listing es) {e e' : String × FileTree} (he : e ∈ es) (he' : e' ∈ es)
    (h : (offer front e).value = (offer front e').value) : e = e' := by
  have hslash := (hes.names e he).noSlash
  have hslash' := (hes.names e' he').noSlash
  have hmarked : ∀ n : String, '/' ∈ (n ++ "/").toList := fun n => by
    rw [String.toList_append]
    exact List.mem_append_right _ (by decide)
  refine List.inj_on_of_nodup_map hes.distinct he he' ?_
  rw [value_offer, value_offer, String.append_right_inj] at h
  split at h <;> split at h
  · exact (String.append_left_inj "/").mp h
  · exact absurd (h ▸ hmarked e.1) hslash'
  · exact absurd (h ▸ hmarked e'.1) hslash
  · exact h

/-- **No two entries have the same value.** -/
theorem nodup_value_offers (hes : Listing es) (f : PathFilter) (front part : String) :
    ((f.offers front part es).map (·.value)).Nodup := by
  unfold offers
  rw [List.map_map]
  refine List.Nodup.map_on (fun e he e' he' h => ?_) ((List.Nodup.of_map _ hes.distinct).filter _)
  exact value_offer_inj hes (List.mem_filter.mp he).1 (List.mem_filter.mp he').1 h

/-- Sorted candidates with values of their own. -/
def Ascending (cs : List Candidate) : Prop := cs.Pairwise fun a b => a.value < b.value

theorem ascending_mergeSort {cs : List Candidate} (h : (cs.map (·.value)).Nodup) :
    Ascending (cs.mergeSort valueLe) := by
  have hle : ∀ a b : Candidate, valueLe a b = true ↔ a.value ≤ b.value := by
    intro a b
    unfold valueLe Completer.textLe
    rw [Bool.not_eq_true', decide_eq_false_iff_not, String.not_lt]
  have hsorted : (cs.mergeSort valueLe).Pairwise fun a b => valueLe a b = true := by
    refine List.pairwise_mergeSort (fun a b c hab hbc => ?_) (fun a b => ?_) cs
    · exact (hle a c).mpr (String.le_trans ((hle a b).mp hab) ((hle b c).mp hbc))
    · rw [Bool.or_eq_true, hle, hle]
      exact String.le_total _ _
  have hdistinct : ((cs.mergeSort valueLe).map (·.value)).Nodup :=
    ((List.mergeSort_perm cs valueLe).map (·.value)).nodup_iff.mpr h
  refine (hsorted.and (List.pairwise_map.mp hdistinct)).imp fun {a b} hab => ?_
  refine Decidable.byContradiction fun hlt => ?_
  exact hab.2 (String.le_antisymm ((hle a b).mp hab.1) (String.not_lt.mp hlt))

/-- **In this order there is only one list of the same candidates.** -/
theorem Ascending.eq_of_perm {cs ds : List Candidate} (hc : Ascending cs) (hd : Ascending ds)
    (hp : cs.Perm ds) : cs = ds := by
  refine hp.eq_of_pairwise (fun a b _ _ hab hba => ?_) hc hd
  exact absurd hba (String.lt_asymm hab)

/-! ## 4. What is given and what ought to be given -/

/-- The same directories, and no files. -/
def onlyDirectories (f : PathFilter) : PathFilter := ⟨f.base, [], true⟩

theorem offers_onlyDirectories (f : PathFilter) (front part : String)
    (es : List (String × FileTree)) : f.onlyDirectories.offers front part es
      = (f.offers front part es).filter (·.kind = .directory) := by
  unfold offers
  rw [List.filter_map, List.filter_filter]
  refine congrArg (List.map (offer front)) (List.filter_congr fun e _ => ?_)
  rw [Function.comp_apply, ← Bool.decide_and, decide_eq_decide, kind_offer]
  unfold onlyDirectories Wanted
  constructor
  · rintro ⟨hshown, hdir | ⟨hfalse, -⟩⟩
    · exact ⟨hdir, hshown, .inl hdir⟩
    · cases hfalse
  · rintro ⟨hdir, hshown, -⟩
    exact ⟨hshown, .inl hdir⟩

theorem mem_offers {c : Candidate} : c ∈ f.offers front part es ↔
    ∃ e ∈ es, f.Wanted part e ∧ offer front e = c := by
  unfold offers
  simp only [List.mem_map, List.mem_filter, decide_eq_true_eq, and_assoc]

theorem offers_perm {es' : List (String × FileTree)} (h : es'.Perm es) (f : PathFilter)
    (front part : String) : (f.offers front part es').Perm (f.offers front part es) :=
  (h.filter _).map _

/-- **All that ought to be offered is, unless a directory is not found.** -/
theorem perm_offers_seen_iff (hlist : files.list dir = .ok es) (hes : Listing es) (f : PathFilter)
    (front part : String) :
    (f.offers front part (es.map (seen files dir))).Perm (f.offers front part es) ↔
      ∀ e ∈ es, e.2.isDirectory = true → Shown part e.1 →
        files.isDirectory (Path.join dir e.1) = true := by
  constructor
  · intro hp e he hdir hshown
    have hmem := hp.mem_iff.mpr (mem_offers.mpr ⟨e, he, ⟨hshown, .inl hdir⟩, rfl⟩)
    obtain ⟨_, hseen, -, hoffer⟩ := mem_offers.mp hmem
    obtain ⟨e', he', rfl⟩ := List.mem_map.mp hseen
    -- the entry behind the candidate is seen as a directory, and so one is found at its path
    have hfound := (kind_offer front e).mpr hdir
    rw [← hoffer, kind_offer, isDirectory_seen hlist hes he'] at hfound
    rw [show seen files dir e' = e' from if_pos hfound] at hoffer
    have heq : e' = e := value_offer_inj hes he' he (congrArg Candidate.value hoffer)
    exact heq ▸ hfound
  · intro hall
    refine List.Perm.of_eq ?_
    rw [offers_eq_filterMap, offers_eq_filterMap, List.filterMap_map]
    refine List.filterMap_congr fun e he => ?_
    rw [Function.comp_apply]
    cases hfound : files.isDirectory (Path.join dir e.1) with
    | true => rw [show seen files dir e = e from if_pos hfound]
    | false =>
      have hseen : seen files dir e = (e.1, .file .all "") := by
        unfold seen
        rw [hfound, if_neg Bool.false_ne_true]
      rw [hseen]
      obtain ⟨name, t⟩ := e
      cases t with
      | file rights text => rfl
      | directory rights es' =>
        have hshown : ¬ Shown part name := fun hs =>
          Bool.false_ne_true (hfound.symm.trans (hall _ he rfl hs))
        rw [if_neg fun hw => hshown hw.1, if_neg fun hw => hshown hw.1]

/-- The order in which a directory lists its entries does not change what is seen of them. -/
theorem map_seen_congr {files' : FileSystem} {es' : List (String × FileTree)}
    (hlist : files.list dir = .ok es) (hes : Listing es) (hlist' : files'.list dir = .ok es')
    (hp : es'.Perm es) (hsearch : files'.isSearchable dir = files.isSearchable dir) :
    es'.map (seen files' dir) = es'.map (seen files dir) := by
  refine List.map_congr_left fun e he => ?_
  have hfound : files'.isDirectory (Path.join dir e.1) = files.isDirectory (Path.join dir e.1) := by
    rw [Bool.eq_iff_iff, FileSystem.isDirectory_join hlist' (hes.perm hp) he,
      FileSystem.isDirectory_join hlist hes (hp.mem_iff.mp he), hsearch]
  unfold seen
  rw [hfound]

/-- What is offered continues what has been typed. -/
theorem prefix_of_mem_offers {c : Candidate} (h : c ∈ f.offers front part es) :
    (front ++ part).toList <+: c.value.toList := by
  obtain ⟨e, -, hw, rfl⟩ := mem_offers.mp h
  rw [value_offer, String.toList_append, String.toList_append]
  refine (List.prefix_append_right_inj _).mpr (hw.1.1.trans ?_)
  split
  · rw [String.toList_append]
    exact List.prefix_append _ _
  · exact List.prefix_rfl

/-- A choice of candidates in order is the choice in order. -/
theorem filter_mergeSort {cs : List Candidate} (h : (cs.map (·.value)).Nodup)
    (p : Candidate → Bool) :
    (cs.mergeSort valueLe).filter p = (cs.filter p).mergeSort valueLe := by
  have hfilter : ((cs.filter p).map (·.value)).Nodup := h.sublist (List.filter_sublist.map _)
  refine Ascending.eq_of_perm ((ascending_mergeSort h).filter p) (ascending_mergeSort hfilter) ?_
  exact ((List.mergeSort_perm cs valueLe).filter p).trans (List.mergeSort_perm _ _).symm

theorem Ascending.nodup {cs : List Candidate} (h : Ascending cs) : (cs.map (·.value)).Nodup :=
  List.pairwise_map.mpr (h.imp fun {_ _} => String.ne_of_lt)

/-- The laws of the candidates `cs` that are given for `front` and `part`, where the directory that
    `front` names lists the entries `es`. -/
structure ListLaws (f : PathFilter) (files : FileSystem) (front part : String)
    (es : List (String × FileTree)) (cs : List Candidate) : Prop where
  /-- The candidates are in the order of their values. -/
  ascending : Ascending cs
  /-- No value occurs twice. -/
  distinct : (cs.map (·.value)).Nodup
  /-- They are the same if the directory lists its entries in another order. -/
  anyOrder : ∀ files' es', files'.list (f.directory front) = .ok es' → es'.Perm es →
    files'.isSearchable (f.directory front) = files.isSearchable (f.directory front) →
    f.paths files' (front ++ part) = .candidates cs
  /-- All of them continue what has been typed. -/
  continues : ∀ c ∈ cs, (front ++ part).toList <+: c.value.toList
  /-- The check by beginnings drops none. -/
  accepted : ∀ e : Engine, e.validator = none →
    cs.filter (fun c => e.accepts c.value (front ++ part)) = cs
  /-- If only directories are asked for, they are those among the candidates. -/
  directories : f.onlyDirectories.paths files (front ++ part)
    = .candidates (cs.filter (·.kind = .directory))
  /-- There is one candidate for each entry that is wanted as it is seen, where a directory that is
      not found at its path counts as a file. -/
  given : cs.Perm (f.offers front part (es.map (seen files (f.directory front))))
  /-- Each entry that is wanted has its one candidate, and there are no others, as long as every
      directory among the entries that are shown is found at its path. -/
  exact : cs.Perm (f.offers front part es) ↔ ∀ e ∈ es, e.2.isDirectory = true → Shown part e.1 →
    files.isDirectory (Path.join (f.directory front) e.1) = true
  /-- A directory is found at its path if that is not too long, and if the process may search the
      directory that lists it. -/
  found : ∀ e ∈ es, (files.isDirectory (Path.join (f.directory front) e.1) = true ↔
    e.2.isDirectory = true
      ∧ (Path.join (f.directory front) e.1).utf8ByteSize ≤ FileSystem.maxPath
      ∧ files.isSearchable (f.directory front) = true)

/-- The laws hold of all directories that can be listed. -/
theorem listLaws_of_list (hfront : Closed '/' front) (hpart : '/' ∉ part.toList)
    (hlist : files.list (f.directory front) = .ok es) (hes : Listing es) :
    ∃ cs, f.paths files (front ++ part) = .candidates cs ∧ f.ListLaws files front part es cs := by
  have hseen := listing_seen hes files (f.directory front)
  have hvalues := nodup_value_offers hseen f front part
  have hsorted := ascending_mergeSort hvalues
  have hcontinues : ∀ c ∈ (f.offers front part (es.map (seen files (f.directory front)))).mergeSort
      valueLe, (front ++ part).toList <+: c.value.toList := fun c hc =>
    prefix_of_mem_offers (List.mem_mergeSort.mp hc)
  refine ⟨_, paths_of_list hfront hpart hlist hes, ?_⟩
  constructor
  case ascending => exact hsorted
  case distinct => exact hsorted.nodup
  case anyOrder =>
    intro files' es' hlist' hp hsearch
    have hoffers := offers_perm (hp.map (seen files (f.directory front))) f front part
    have hsame : Ascending _ :=
      ascending_mergeSort ((hoffers.map (·.value)).nodup_iff.mpr hvalues)
    rw [paths_of_list hfront hpart hlist' (hes.perm hp),
      map_seen_congr hlist hes hlist' hp hsearch]
    refine congrArg CompleterResult.candidates (hsame.eq_of_perm hsorted ?_)
    exact (List.mergeSort_perm _ _).trans (hoffers.trans (List.mergeSort_perm _ _).symm)
  case continues => exact hcontinues
  case accepted =>
    intro e he
    refine List.filter_eq_self.mpr fun c hc => ?_
    unfold Engine.accepts
    rw [he]
    exact startsWith_iff.mpr (hcontinues c hc)
  case directories =>
    rw [filter_mergeSort hvalues, ← offers_onlyDirectories]
    exact paths_of_list (f := f.onlyDirectories) hfront hpart hlist hes
  case given => exact List.mergeSort_perm _ _
  case exact =>
    rw [← perm_offers_seen_iff hlist hes f front part]
    exact (List.mergeSort_perm _ _).congr_left _
  case found => exact fun e he => FileSystem.isDirectory_join hlist hes he

/-- **Path completion.** What has been typed is cut behind its last slash. The candidates for the
    entries of the directory in front of it keep the laws, among them that they are those that ought
    to be offered as long as the directories are found at their paths. A directory that does not exist
    has no candidates, and one that cannot be listed for another reason gives an error. -/
theorem paths_exact (f : PathFilter) (files : FileSystem) (typed : String) :
    ∃ front part, typed = front ++ part ∧ Closed '/' front ∧ '/' ∉ part.toList
      ∧ (∀ es, files.list (f.directory front) = .ok es → Listing es →
        ∃ cs, f.paths files typed = .candidates cs ∧ f.ListLaws files front part es cs)
      ∧ (files.list (f.directory front) = .error .notFound → f.paths files typed = .candidates [])
      ∧ (∀ fault, fault ≠ .notFound → files.list (f.directory front) = .error fault →
        f.paths files typed
          = .failed (.failed f.completerName s!"{f.directory front}: {fault.message}")) := by
  obtain ⟨front, part, rfl, hfront, hpart⟩ := exists_splitAfterLast '/' typed
  refine ⟨front, part, rfl, hfront, hpart, fun es hlist hes => ?listed, fun hmissing => ?missing,
    fun fault hfault herror => ?failed⟩
  case listed => exact listLaws_of_list hfront hpart hlist hes
  case missing =>
    unfold paths
    rw [splitAfterLast_append hfront hpart]
    dsimp only
    rw [hmissing]
  case failed =>
    unfold paths
    rw [splitAfterLast_append hfront hpart]
    dsimp only
    rw [herror]
    cases fault <;> first | rfl | exact absurd rfl hfault

/-- The entries of a directory with something of each kind. -/
def sampleEntries : List (String × FileTree) :=
  [("src", .directory .all []), ("notes.md", .file .all ""), (".git", .directory .none []),
    ("a.rs", .file .all "")]

theorem listing_sampleEntries : Listing sampleEntries := by
  refine ⟨by decide, ?_⟩
  unfold sampleEntries
  simp only [List.forall_mem_cons]
  refine ⟨?_, ?_, ?_, ?_, List.forall_mem_nil _⟩
  all_goals constructor <;> decide

/-- Of a directory that is listed from below. -/
theorem paths_exact_sample :
    FileSystem.list (.below ["home"] (.directory .all sampleEntries)) "." = .ok sampleEntries
      ∧ Listing sampleEntries
      ∧ ∃ cs, (PathFilter.mk none ["rs"] false).paths
        (.below ["home"] (.directory .all sampleEntries)) "" = .candidates cs ∧ Ascending cs
        ∧ cs.Perm [.directory "src/" "src/", .file "a.rs" "a.rs"] := by
  have hlist : FileSystem.list (.below ["home"] (.directory .all sampleEntries)) "."
      = .ok sampleEntries := rfl
  refine ⟨hlist, listing_sampleEntries, ?_⟩
  obtain ⟨front, part, htyped, -, -, hlisted, -⟩ :=
    paths_exact ⟨none, ["rs"], false⟩ (.below ["home"] (.directory .all sampleEntries)) ""
  obtain ⟨rfl, rfl⟩ := String.append_eq_empty_iff.mp htyped.symm
  obtain ⟨cs, hpaths, hlaws⟩ := hlisted _ hlist listing_sampleEntries
  have hshort : ∀ e ∈ sampleEntries, (Path.join (directory ⟨none, ["rs"], false⟩ "") e.1).utf8ByteSize
      ≤ FileSystem.maxPath := by decide
  refine ⟨cs, hpaths, hlaws.ascending, hlaws.exact.mpr fun e he hdir _ => ?_⟩
  exact (hlaws.found e he).mpr ⟨hdir, hshort e he, rfl⟩

/-! ## 5. A path that is too long -/

/-- A path of the working directory with slashes behind it. -/
def slashed : Nat → String
  | 0 => "."
  | n + 1 => slashed n ++ "/"

theorem utf8ByteSize_slashed (n : Nat) : (slashed n).utf8ByteSize = n + 1 := by
  induction n with
  | zero => rfl
  | succ n ih =>
    rw [slashed, String.utf8ByteSize_append, ih]
    rfl

theorem find_slashed {n : Nat} (hn : n < FileSystem.maxPath) (es : List (String × FileTree)) :
    FileSystem.find ⟨.directory .all es, []⟩ (slashed n) = .ok (.directory .all es) := by
  induction n with
  | zero => rfl
  | succ n ih =>
    refine FileSystem.find_slash (ih (by omega)) ?_
    have hsize := utf8ByteSize_slashed (n + 1)
    rw [slashed] at hsize
    omega

/-- A name of two hundred letters. -/
def longName : String := String.ofList (List.replicate 200 'd')

theorem utf8ByteSize_longName : longName.utf8ByteSize = 200 := utf8ByteSize_replicate 200 'd'

theorem entryName_longName : EntryName longName := by
  have hsize := utf8ByteSize_longName
  have hchars : ∀ c ∈ longName.toList, c = 'd' := by
    unfold longName
    rw [String.toList_ofList]
    exact fun c hc => List.eq_of_mem_replicate hc
  refine ⟨?_, ?_, ?_, fun hc => absurd (hchars _ hc) (by decide),
    fun hc => absurd (hchars _ hc) (by decide), by rw [hsize]; decide⟩
  all_goals
    intro he
    rw [he] at hsize
    cases hsize

/-- **A directory can be offered as a file**: behind four thousand slashes it is not seen as what it
    is. -/
theorem paths_not_always_exact : ¬ ∀ (f : PathFilter) (files : FileSystem) (front part : String)
    (es : List (String × FileTree)), Closed '/' front → '/' ∉ part.toList →
      files.list (f.directory front) = .ok es → Listing es →
      ∃ cs, f.paths files (front ++ part) = .candidates cs ∧ cs.Perm (f.offers front part es) := by
  intro hall
  obtain ⟨n, hn⟩ : ∃ n, n + 1 = 4000 := ⟨3999, rfl⟩
  have hes : Listing [(longName, .directory .all [])] :=
    ⟨List.nodup_singleton _, List.forall_mem_singleton.mpr entryName_longName⟩
  have hne : slashed (n + 1) ≠ "" := fun he => by
    have hsize := utf8ByteSize_slashed (n + 1)
    rw [he] at hsize
    cases hsize
  have hdir : directory ⟨none, [], false⟩ (slashed (n + 1)) = slashed (n + 1) :=
    if_neg (mt String.isEmpty_iff.mp hne)
  have hlist : FileSystem.list ⟨.directory .all [(longName, .directory .all [])], []⟩
      (directory ⟨none, [], false⟩ (slashed (n + 1))) = .ok [(longName, .directory .all [])] := by
    unfold FileSystem.list
    rw [hdir, find_slashed (by rw [hn]; decide)]
    rfl
  have hfront : Closed '/' (slashed (n + 1)) := .inr ⟨slashed n, rfl⟩
  obtain ⟨cs, hpaths, hperm⟩ :=
    hall _ _ _ "" _ hfront List.not_mem_nil hlist hes
  rw [paths_of_list hfront List.not_mem_nil hlist hes] at hpaths
  cases hpaths
  have hnoDot : ¬ ['.'] <+: longName.toList := by
    unfold longName
    rw [String.toList_ofList]
    decide
  have hfound := (perm_offers_seen_iff hlist hes _ _ _).mp
    ((List.mergeSort_perm _ _).symm.trans hperm) _ List.mem_cons_self rfl
    ⟨List.nil_prefix, fun hdot => absurd hdot hnoDot⟩
  have hshort := ((FileSystem.isDirectory_join hlist hes List.mem_cons_self).mp hfound).2.1
  rw [hdir] at hshort
  have hlong := Nat.le_trans (Path.le_utf8ByteSize_join entryName_longName hne) hshort
  rw [utf8ByteSize_slashed, hn, utf8ByteSize_longName] at hlong
  have hmax : FileSystem.maxPath = 4095 := rfl
  omega

end PathFilter

end TabCompletion
