import DiceScript.Command.Setup
import DiceScript.Proofs.Codec.Finite
import DiceScript.Proofs.Persistence.Copies

/-!
# Files that are only read

While an image is put at a path again and again, other files are read in between. They are found as
they were: what is written lies elsewhere, and making the directories of the path puts nothing where
something is. A library is searched for, and there a file must not only be found but also come at its
turn, so the entries themselves are followed, in their order.

- `Spares` — one tree became another, and what is read from some places is the same.
- `spares_makeDirectories` — directories that are made.
- `eq_append_of_locate?_pathAlong` — where the files of a library lie.
- `readLibrary_of_spares` — a library is read as before.
- `Settled` — a path that takes images one after another, beside files that are only read.
-/

open DiceScript.Files.Path (IsName)

namespace DiceScript

namespace Files.FileTree

variable {t u v : FileTree} {p q r : Place} {path : String} {input : Place → Prop}

instance (name : List Char) : Decidable (IsName name) :=
  decidable_of_iff ('/' ∉ name ∧ name ≠ [] ∧ name ≠ ['.'] ∧ name ≠ ['.', '.'])
    ⟨fun ⟨hslash, hempty, hsame, hup⟩ => ⟨hslash, hempty, hsame, hup⟩,
      fun h => ⟨h.slash, h.nonempty, h.same, h.up⟩⟩

theorem WellNamed.of_names (hhere : ∀ name ∈ t.here, IsName name.toList)
    (hentries : ∀ x ∈ t.entries, ∀ name ∈ x.1, IsName name.toList) : t.WellNamed :=
  ⟨hhere, fun p e hentry => hentries (p, e) hentry⟩

theorem exists_locate?_of_readText {text : String} (h : t.readText path = .ok text) :
    ∃ r, t.locate? path = some r := by
  cases hr : t.locate? path with
  | some r => exact ⟨r, rfl⟩
  | none =>
    rw [FileTree.readText, lookup?, hr] at h
    cases h

/-! ## Sparing places -/

/-- The files of a tree at wanted places, in the order in which a search finds them. -/
def filesAt (t : FileTree) (wanted : Place → Bool) : List (Place × Entry) :=
  t.entries.filter fun x => x.2 != .directory && wanted x.1

/-- One tree became another: files in input places are as they were and in the same order. -/
structure Spares (input : Place → Prop) (t u : FileTree) : Prop where
  grows : Grows (fun p => input p ∧ t.find? p ≠ none) t u
  files : ∀ wanted : Place → Bool, (∀ p, wanted p = true → input p) →
    u.filesAt wanted = t.filesAt wanted

namespace Spares

theorem refl (input : Place → Prop) (t : FileTree) : Spares input t t :=
  ⟨.refl _ t, fun _ _ => rfl⟩

theorem trans (h : Spares input t u) (h' : Spares input u v) : Spares input t v := by
  refine ⟨h.grows.trans (h'.grows.weaken ?_), fun wanted hw => ?_⟩
  · rintro p ⟨hp, hfound⟩
    rw [h.grows.fixed p ⟨hp, hfound⟩]
    exact ⟨hp, hfound⟩
  · rw [h'.files wanted hw, h.files wanted hw]

/-- A file in an input place is read as before. -/
theorem readText (h : Spares input t u) (hr : t.locate? path = some r) (hinput : input r)
    {text : String} (htext : t.readText path = .ok text) : u.readText path = .ok text := by
  have hfound : t.find? r ≠ none := by
    intro hnone
    simp [FileTree.readText, lookup?, hr, hnone] at htext
  unfold FileTree.readText lookup? at htext ⊢
  rw [h.grows.locate? hr, Option.bind_some, h.grows.fixed r ⟨hinput, hfound⟩]
  rwa [hr, Option.bind_some] at htext

end Spares

/-- Entries that are wanted are not taken out with those at a place that is not. -/
theorem filesAt_filter_ne {wanted : Place → Bool} (hp : wanted p = false) (l : List (Place × Entry)) :
    (l.filter (·.1 != p)).filter (fun x => x.2 != .directory && wanted x.1) =
      l.filter fun x => x.2 != .directory && wanted x.1 := by
  rw [List.filter_filter]
  refine List.filter_congr fun x _ => ?_
  by_cases hx : x.1 = p
  · simp [hx, hp]
  · simp [hx]

theorem wanted_eq_false {wanted : Place → Bool} (hw : ∀ p, wanted p = true → input p)
    (hp : ¬ input p) : wanted p = false := by
  rw [← Bool.not_eq_true]
  exact fun h => hp (hw p h)

theorem spares_insert (hdir : t.isDirectoryAt p = false) (hp : ¬ input p)
    (hnamed : t.WellNamed → ∀ name ∈ p, IsName name.toList) (e : Entry) :
    Spares input t (t.insert p e) := by
  refine ⟨.insert hdir (fun h => hp h.1) hnamed e, fun wanted hw => ?_⟩
  have hnot := wanted_eq_false hw hp
  rw [filesAt, insert, List.filter_cons_of_neg (by simp [hnot])]
  exact filesAt_filter_ne hnot t.entries

theorem spares_erase (hdir : t.isDirectoryAt p = false) (hp : ¬ input p) :
    Spares input t (t.erase p) := by
  refine ⟨.erase hdir (fun h => hp h.1), fun wanted hw => ?_⟩
  exact filesAt_filter_ne (wanted_eq_false hw hp) t.entries

theorem mem_entries_of_erase {x : Place × Entry} (h : x ∈ (t.erase p).entries) : x ∈ t.entries :=
  (List.mem_filter.mp h).1

/-- A file that is put at a place adds no directory. -/
theorem directory_mem_of_insert {c : Content}
    (h : (r, Entry.directory) ∈ (t.insert p (.file c)).entries) : (r, Entry.directory) ∈ t.entries := by
  rcases List.mem_cons.mp h with heq | hmem
  · cases heq
  · exact (List.mem_filter.mp hmem).1

/-! ## Making directories -/

/-- A directory that is put where nothing is takes no file away. -/
theorem filesAt_insert_directory (h : t.find? p = none) (wanted : Place → Bool) :
    (t.insert p .directory).filesAt wanted = t.filesAt wanted := by
  have habsent : ∀ x ∈ t.entries, x.1 ≠ p := by
    unfold find? at h
    split at h
    · cases h
    · rintro ⟨q, e⟩ hx rfl
      exact absurd (List.lookup_eq_none_iff.mp h (q, e) hx) (by simp)
  have hsame : t.entries.filter (·.1 != p) = t.entries :=
    List.filter_eq_self.mpr fun x hx => by simpa using habsent x hx
  rw [filesAt, insert, List.filter_cons_of_neg (by simp), hsame]
  rfl

theorem filesAt_makeFrom (wanted : Place → Bool) (parts : List String) :
    (t.makeFrom p parts).2.filesAt wanted = t.filesAt wanted := by
  induction parts generalizing t p with
  | nil => rfl
  | cons part parts ih =>
    unfold makeFrom
    split
    · exact ih
    split
    · exact ih
    split
    · split
      · exact ih
      · rfl
      · rename_i hnone
        exact ih.trans (filesAt_insert_directory hnone wanted)
    · rfl

theorem spares_makeDirectories (input : Place → Prop) (t : FileTree) (path : String) :
    Spares input t (t.makeDirectories path).2 := by
  refine ⟨(t.grows_makeDirectories path).weaken fun _ h => h.2, fun wanted _ => ?_⟩
  unfold makeDirectories
  split_ifs
  · rfl
  · exact filesAt_makeFrom wanted _
  · rfl

/-! ## Searching a directory -/

theorem below?_eq_some {dir names : Place} : below? dir p = some names ↔ p = dir ++ names := by
  unfold below?
  constructor
  · intro h
    split at h
    · rename_i hprefix
      obtain rfl := Option.some.inj h
      obtain ⟨rest, rfl⟩ := List.isPrefixOf_iff_prefix.mp hprefix
      simp
    · cases h
  · rintro rfl
    simp

theorem filesBelow_cases {places : List Place} (h : t.filesBelow path = .ok places) :
    ∃ dir, t.locate? path = some dir ∧ places = t.entriesBelow dir (· != .directory) ∧
      ∀ names ∈ t.entriesBelow dir (· == .directory),
        isFollowable (Path.join path ("/".intercalate names)) = true := by
  unfold filesBelow at h
  split at h
  · rename_i dir hdir
    dsimp only at h
    split at h
    · rename_i hall
      rw [List.all_map, List.all_eq_true] at hall
      exact ⟨dir, hdir, (Except.ok.inj h).symm, hall⟩
    · cases h
  · cases h

/-- A directory can be searched as long as no directory is added. -/
theorem Grows.filesBelow {fixed : Place → Prop} (h : Grows fixed t u)
    (hadded : ∀ r, (r, Entry.directory) ∈ u.entries → (r, Entry.directory) ∈ t.entries)
    {places : List Place} (hplaces : t.filesBelow path = .ok places) :
    ∃ places', u.filesBelow path = .ok places' := by
  obtain ⟨dir, hdir, -, hall⟩ := filesBelow_cases hplaces
  have hall' : ((u.entriesBelow dir (· == .directory)).map fun names =>
      Path.join path ("/".intercalate names)).all isFollowable = true := by
    rw [List.all_map, List.all_eq_true]
    intro names hnames
    obtain ⟨⟨r, e⟩, hentry, hbelow⟩ := List.mem_filterMap.mp hnames
    dsimp only at hbelow
    split at hbelow
    · rename_i he
      obtain rfl : e = .directory := beq_iff_eq.mp he
      refine hall names (List.mem_filterMap.mpr ⟨_, hadded r hentry, ?_⟩)
      simpa using hbelow
    · cases hbelow
  refine ⟨u.entriesBelow dir (· != .directory), ?_⟩
  unfold FileTree.filesBelow
  rw [h.locate? hdir]
  dsimp only
  rw [if_pos hall']

end Files.FileTree

/-! ## Libraries -/

open Files Files.FileTree

namespace Command

variable {t u : FileTree} {dir : String} {place r : Place} {names : List String}
  {input : Place → Prop}

def isLibraryFile (names : List String) : Bool :=
  Files.Path.extension? (names.getLast?.getD "") == some "json"

theorem libraryFiles_eq (places : List Place) :
    libraryFiles places = (places.filter isLibraryFile).mergeSort fun a b => decide (¬ b < a) := rfl

/-- The files of a library are the files at places of a kind. -/
theorem filter_entriesBelow (t : FileTree) (place : Place) :
    (t.entriesBelow place (· != .directory)).filter isLibraryFile =
      (t.filesAt fun p => ((below? place p).map isLibraryFile).getD false).filterMap
        fun x => below? place x.1 := by
  have hpick : ∀ names : Option (List String), names.filter isLibraryFile =
      if (names.map isLibraryFile).getD false then names else none := by
    rintro (_ | names) <;> rfl
  unfold entriesBelow filesAt
  rw [List.filter_filterMap, List.filterMap_filter]
  refine List.filterMap_congr fun x _ => ?_
  obtain ⟨p, e⟩ := x
  by_cases he : e = .directory
  · simp [he]
  · simpa [he] using hpick (below? place p)

/-- A library is made of the same files as before. -/
theorem libraryFiles_of_spares (h : Spares input t u) {places places' : List Place}
    (hplaces : t.filesBelow dir = .ok places) (hplaces' : u.filesBelow dir = .ok places')
    (hinput : ∀ place names, t.locate? dir = some place → isLibraryFile names = true →
      input (place ++ names)) :
    libraryFiles places' = libraryFiles places := by
  obtain ⟨place, hplace, rfl, -⟩ := filesBelow_cases hplaces
  obtain ⟨place', hplace', rfl, -⟩ := filesBelow_cases hplaces'
  obtain rfl : place = place' := Option.some.inj ((h.grows.locate? hplace).symm.trans hplace')
  rw [libraryFiles_eq, libraryFiles_eq, filter_entriesBelow, filter_entriesBelow, h.files]
  intro p hp
  cases hbelow : below? place p with
  | none => simp [hbelow] at hp
  | some names =>
    rw [hbelow] at hp
    obtain rfl := below?_eq_some.mp hbelow
    exact hinput place names hplace hp

/-! ### Where library files lie -/

/-- A path in a directory is that of the directory, up to a slash, and what comes after it. -/
theorem toList_join {base path : String} (hbase : base ≠ "") (hpath : Path.isAbsolute path = false) :
    ∃ above, (Path.join base "").toList = above ++ ['/'] ∧
      (Path.join base path).toList = above ++ '/' :: path.toList := by
  have hempty : base.isEmpty = false := by
    rw [← Bool.not_eq_true, String.isEmpty_iff]
    exact hbase
  have hnone : Path.isAbsolute "" = false := rfl
  unfold Path.join
  rw [hpath, hnone, hempty]
  by_cases hend : base.toList.getLast? = some '/'
  · obtain ⟨above, habove⟩ := List.getLast?_eq_some_iff.mp hend
    exact ⟨above, by simp [habove], by simp [habove]⟩
  · exact ⟨base.toList, by simp [hend], by simp [hend]⟩

/-- A path in a directory is followed from there. -/
theorem follow?_of_locate?_join {path : String} (hdir : t.locate? dir = some place)
    (hisdir : t.isDirectoryAt place = true) (hpath : Path.isAbsolute path = false)
    (hr : t.locate? (Path.join dir path) = some r) : t.follow? place (Path.parts path) = some r := by
  have hbase : dir ≠ "" := by
    rintro rfl
    cases hdir
  obtain ⟨front, hjoin, hleads⟩ := FileTree.exists_front hbase
  obtain ⟨above, hfront, htext⟩ := toList_join hbase hpath
  obtain rfl : front = above ++ ['/'] := by
    rw [← hfront, (hjoin "" (by simp)).text]
    simp
  have hplace := (hleads t place hdir hisdir).follow
  rw [origin, Path.frontParts_slash] at hplace
  unfold FileTree.locate? at hr
  split at hr
  · have hhead : (above ++ '/' :: path.toList).head? = (above ++ ['/']).head? := by
      cases above <;> rfl
    rw [start, Path.isAbsolute, Path.parts, htext, hhead, Path.splitSlashes_append_slash,
      List.map_append, follow?_append] at hr
    simp only [beq_iff_eq] at hplace hr
    rw [hplace] at hr
    exact hr
  · cases hr

theorem parts_intercalate (hne : names ≠ []) (hnames : ∀ name ∈ names, '/' ∉ name.toList) :
    Path.parts ("/".intercalate names) = names := by
  induction names with
  | nil => exact absurd rfl hne
  | cons name rest ih =>
    obtain ⟨hname, hrest⟩ := List.forall_mem_cons.mp hnames
    cases rest with
    | nil => simp [Path.parts, Path.splitSlashes_of_notMem hname]
    | cons next rest =>
      have hparts := ih (by simp) hrest
      rw [Path.parts] at hparts
      rw [Path.parts, String.intercalate_cons_cons, String.toList_append, String.toList_append,
        List.append_assoc, show "/".toList = ['/'] from rfl, List.singleton_append,
        Path.splitSlashes_append_slash, List.map_append, hparts, Path.splitSlashes_of_notMem hname]
      simp

/-- Names lead one step further down each. -/
theorem eq_append_of_follow? (hnames : ∀ name ∈ names, IsName name.toList)
    (hr : t.follow? place names = some r) : r = place ++ names := by
  induction names generalizing place with
  | nil =>
    obtain rfl := Option.some.inj hr
    simp
  | cons name rest ih =>
    obtain ⟨hname, hrest⟩ := List.forall_mem_cons.mp hnames
    have hproper := hname.ofList_ne
    rw [String.ofList_toList] at hproper
    obtain ⟨-, s, hs, hr⟩ := follow?_cons_cases hr
    rcases hs with ⟨hsame, -⟩ | ⟨hup, -⟩ | ⟨-, -, rfl⟩
    · exact absurd hsame hproper.1
    · exact absurd hup hproper.2
    · rw [ih hrest hr]
      simp

/-- A file of a library lies below its directory, along its names. -/
theorem eq_append_of_locate?_pathAlong (hdir : t.locate? dir = some place)
    (hisdir : t.isDirectoryAt place = true) (hne : names ≠ [])
    (hnames : ∀ name ∈ names, IsName name.toList)
    (hr : t.locate? (pathAlong dir names) = some r) : r = place ++ names := by
  have hparts := parts_intercalate hne fun name hname => (hnames name hname).slash
  have hrelative : Path.isAbsolute ("/".intercalate names) = false := by
    obtain ⟨name, rest, rfl⟩ := List.exists_cons_of_ne_nil hne
    have hname := hnames name List.mem_cons_self
    obtain ⟨c, cs, hchars⟩ := List.exists_cons_of_ne_nil hname.nonempty
    have hc : c ≠ '/' := by
      rintro rfl
      exact hname.slash (by simp [hchars])
    cases rest with
    | nil => simp [Path.isAbsolute, hchars, hc]
    | cons next rest => simp [Path.isAbsolute, hchars, hc, String.intercalate_cons_cons]
  have hfollow := follow?_of_locate?_join hdir hisdir hrelative hr
  rw [hparts] at hfollow
  exact eq_append_of_follow? hnames hfollow

theorem exists_names_of_mem_libraryFiles {places : List Place} (hnamed : t.WellNamed)
    (hplaces : t.filesBelow dir = .ok places) (h : names ∈ libraryFiles places) :
    isLibraryFile names = true ∧ names ≠ [] ∧ ∀ name ∈ names, IsName name.toList := by
  rw [libraryFiles_eq, List.mem_mergeSort] at h
  obtain ⟨hmem, hlibrary⟩ := List.mem_filter.mp h
  obtain ⟨place, -, rfl, -⟩ := filesBelow_cases hplaces
  obtain ⟨⟨p, e⟩, hentry, hbelow⟩ := List.mem_filterMap.mp hmem
  dsimp only at hbelow
  split at hbelow
  · obtain rfl := below?_eq_some.mp hbelow
    refine ⟨hlibrary, ?_, fun name hname => ?_⟩
    · rintro rfl
      exact absurd hlibrary (by decide)
    · exact hnamed.entries _ e hentry name (List.mem_append_right _ hname)
  · cases hbelow

/-! ### Reading libraries -/

section Reading

variable {library result : Bindings}

theorem run_bind_of_run {σ α β : Type} {x : StateM σ α} {f : α → StateM σ β} {s s' : σ} {a : α}
    (h : x.run s = (a, s')) : (x >>= f).run s = (f a).run s' := by
  rw [StateT.run_bind, h]
  rfl

theorem run_readText (path : String) (t : FileTree) :
    (Disk.readText path : StateM FileTree _).run t = (t.readText path, t) := rfl

theorem run_readLibraryFiles_cons (place : List String) (rest : List (List String)) :
    (readLibraryFiles dir library (place :: rest) : StateM FileTree _).run t =
      match t.readText (pathAlong dir place) with
      | .error why => (.error (.host .readCore why), t)
      | .ok text =>
        match (Json.parse? text).bind (Bindings.ofJson? .top) with
        | none => (.error (.host .decodeCore "the text is not a library"), t)
        | some more => (readLibraryFiles dir (library.extend more) rest : StateM FileTree _).run t := by
  rw [readLibraryFiles, run_bind_of_run (run_readText _ t)]
  cases t.readText (pathAlong dir place) with
  | error why => rfl
  | ok text =>
    dsimp only
    cases (Json.parse? text).bind (Bindings.ofJson? .top) <;> rfl

/-- A library is read alike where its files are. -/
theorem readLibraryFiles_of_readText {places : List (List String)}
    (h : ∀ names ∈ places, ∀ text, t.readText (pathAlong dir names) = .ok text →
      u.readText (pathAlong dir names) = .ok text)
    (hread : ((readLibraryFiles dir library places : StateM FileTree _).run t).1 = .ok result) :
    ((readLibraryFiles dir library places : StateM FileTree _).run u).1 = .ok result := by
  induction places generalizing library with
  | nil => exact hread
  | cons place rest ih =>
    obtain ⟨hplace, hrest⟩ := List.forall_mem_cons.mp h
    rw [run_readLibraryFiles_cons] at hread ⊢
    split at hread
    · cases hread
    · rename_i text htext
      rw [hplace text htext]
      dsimp only
      split at hread
      · cases hread
      · exact ih hrest hread

/-- Everything in a library that was read is finite. -/
theorem finite_of_readLibraryFiles {places : List (List String)}
    (h : ∀ name v, library.get? name = some v → v.All Value.FinitePart)
    (hread : ((readLibraryFiles dir library places : StateM FileTree _).run t).1 = .ok result) :
    ∀ name v, result.get? name = some v → v.All Value.FinitePart := by
  induction places generalizing library with
  | nil =>
    obtain rfl := Except.ok.inj hread
    exact h
  | cons place rest ih =>
    rw [run_readLibraryFiles_cons] at hread
    split at hread
    · cases hread
    · split at hread
      · cases hread
      · rename_i text _ _ more hmore
        obtain ⟨j, hj, hmore⟩ := Option.bind_eq_some_iff.mp hmore
        refine ih ?_ hread
        intro name v hv
        rcases Dict.mem_of_get?_insertMany hv with hnew | hold
        · exact Value.ensures_finite.dict .top j more (Json.inRange_of_parse? hj) hmore name v
            (Dict.get?_of_mem hnew)
        · exact h name v hold

theorem run_readLibrary (dir : String) (t : FileTree) :
    (readLibrary dir : StateM FileTree _).run t =
      match t.lookup? dir with
      | none => (.error (.host .findCore ("core-dir does not exist: " ++ dir)), t)
      | some (.file _) => (.error (.host .enterCore ("core-dir is not a directory: " ++ dir)), t)
      | some .directory =>
        match t.filesBelow dir with
        | .error why => (.error (.host .scanCore why), t)
        | .ok places => (readLibraryFiles dir {} (libraryFiles places) : StateM FileTree _).run t := by
  have hpresent : (Disk.isPresent dir : StateM FileTree _).run t = ((t.lookup? dir).isSome, t) := rfl
  have hisdir : (Disk.isDirectory dir : StateM FileTree _).run t =
      (t.lookup? dir == some .directory, t) := rfl
  have hbelow : (Disk.filesBelow dir : StateM FileTree _).run t = (t.filesBelow dir, t) := rfl
  unfold readLibrary
  rw [run_bind_of_run hpresent]
  cases hfound : t.lookup? dir with
  | none => rfl
  | some e =>
    rw [hfound] at hisdir
    rw [Option.isSome_some, Bool.not_true, if_neg Bool.false_ne_true, run_bind_of_run hisdir]
    cases e with
    | file c => rfl
    | directory =>
      rw [beq_self_eq_true, Bool.not_true, if_neg Bool.false_ne_true, run_bind_of_run hbelow]
      cases t.filesBelow dir <;> rfl

theorem run_readLibrary_of_filesBelow {places : List Place} (hdir : t.lookup? dir = some .directory)
    (hplaces : t.filesBelow dir = .ok places) :
    (readLibrary dir : StateM FileTree _).run t =
      (readLibraryFiles dir {} (libraryFiles places) : StateM FileTree _).run t := by
  rw [run_readLibrary, hdir]
  dsimp only
  rw [hplaces]

theorem readLibrary_cases (h : ((readLibrary dir : StateM FileTree _).run t).1 = .ok result) :
    t.lookup? dir = some .directory ∧ ∃ places, t.filesBelow dir = .ok places ∧
      ((readLibraryFiles dir {} (libraryFiles places) : StateM FileTree _).run t).1 = .ok result := by
  rw [run_readLibrary] at h
  split at h
  · cases h
  · cases h
  · rename_i hdir
    split at h
    · cases h
    · rename_i places hplaces
      exact ⟨hdir, places, hplaces, h⟩

/-- A library whose files are spared is read as before, if its directory can still be searched. -/
theorem readLibrary_of_spares (h : Spares input t u) (hnamed : t.WellNamed)
    (hinput : ∀ place names, t.locate? dir = some place → isLibraryFile names = true →
      input (place ++ names))
    (hsearch : ∃ places, u.filesBelow dir = .ok places)
    (hread : ((readLibrary dir : StateM FileTree _).run t).1 = .ok result) :
    ((readLibrary dir : StateM FileTree _).run u).1 = .ok result := by
  obtain ⟨hdir, places, hplaces, hread⟩ := readLibrary_cases hread
  obtain ⟨places', hplaces'⟩ := hsearch
  obtain ⟨place, hplace, hfound⟩ := Option.bind_eq_some_iff.mp hdir
  have hisdir : t.isDirectoryAt place = true := by simp [isDirectoryAt, hfound]
  have hdir' : u.lookup? dir = some .directory := by
    rw [lookup?, h.grows.locate? hplace, Option.bind_some]
    exact find?_eq_directory (h.grows.directories place hisdir)
  rw [run_readLibrary_of_filesBelow hdir' hplaces', libraryFiles_of_spares h hplaces hplaces' hinput]
  refine readLibraryFiles_of_readText ?_ hread
  intro names hnames text htext
  obtain ⟨hlibrary, hne, hproper⟩ := exists_names_of_mem_libraryFiles hnamed hplaces hnames
  obtain ⟨r, hr⟩ := exists_locate?_of_readText htext
  obtain rfl := eq_append_of_locate?_pathAlong hplace hisdir hne hproper hr
  exact h.readText hr (hinput place names hplace hlibrary) htext

end Reading

end Command

/-! ## Saving beside them -/

open FileMedium (writeImage stagingPath Accepts)

def Files.FileTree.madeFor (t : FileTree) (path : String) : FileTree :=
  (t.makeDirectories (Files.Path.directory path)).2

/-- A path that takes images, in a tree where input places are only read and some directories are
searched for files: the image and the one that is written first go elsewhere, and the directory that is
made for them leaves the search possible. -/
structure Settled (path : String) (input : Place → Prop) (searched : List String) (t : FileTree) :
    Prop where
  accepts : Accepts path t
  named : t.WellNamed
  staging : ∀ r, (t.madeFor path).locate? (stagingPath path) = some r → ¬ input r
  place : ∀ r, (t.madeFor path).locate? path = some r → ¬ input r
  search : ∀ dir ∈ searched, ∃ places, (t.madeFor path).filesBelow dir = .ok places

/-- A path is settled when the tree with its directory is ready for it. -/
theorem Settled.of_ready {path : String} {input : Place → Prop} {searched : List String}
    {t u : FileTree} {p q : Place} (hmade : t.makeDirectories (Files.Path.directory path) = (.ok (), u))
    (hready : FileMedium.Ready path u) (hnamed : t.WellNamed)
    (hstaging : u.locate? (stagingPath path) = some p) (hplace : u.locate? path = some q)
    (hp : ¬ input p) (hq : ¬ input q)
    (hsearch : ∀ dir ∈ searched, ∃ places, u.filesBelow dir = .ok places) :
    Settled path input searched t := by
  have hmade' : t.madeFor path = u := congrArg Prod.snd hmade
  refine ⟨fun i => ?_, hnamed, ?_, ?_, ?_⟩
  · obtain ⟨v, hv⟩ := hready.accepts i
    rw [FileMedium.run_writeImage, hready.directories] at hv
    rw [FileMedium.run_writeImage, hmade]
    exact ⟨v, hv⟩
  · intro r hr
    rw [hmade', hstaging] at hr
    obtain rfl := Option.some.inj hr
    exact hp
  · intro r hr
    rw [hmade', hplace] at hr
    obtain rfl := Option.some.inj hr
    exact hq
  · rw [hmade']
    exact hsearch

/-- An image that is put at the path leaves everything else as it has to be. -/
theorem Settled.save {path : String} {input : Place → Prop} {searched : List String} {t : FileTree}
    (h : Settled path input searched t) (i : Image) :
    ∃ u, (writeImage path i : StateM FileTree _).run t = (.ok (), u) ∧
      Settled path input searched u ∧ Spares input t u ∧
      (∀ dir ∈ searched, ∃ places, u.filesBelow dir = .ok places) ∧
      u.lookup? path = some (.file (.text i.toJson.pretty)) := by
  obtain ⟨v, hsave, hready, hnamed, hfile⟩ := h.accepts.save h.named i
  obtain ⟨t', u, hmake, hwrite, hrename⟩ := FileMedium.writeImage_cases hsave
  have hmade : t.madeFor path = t' := by rw [madeFor, hmake]
  have hsettled : v.madeFor path = v := by rw [madeFor, hready.directories]
  have hmaking : Spares input t t' := hmade ▸ spares_makeDirectories input t _
  obtain ⟨hstaging, hplace, hsearch⟩ := And.intro h.staging (And.intro h.place h.search)
  rw [hmade] at hstaging hplace hsearch
  obtain ⟨p, hp, hpdir, rfl⟩ := write_cases hwrite
  have hsame := sameDirectories_write hwrite
  obtain ⟨p', q, c, hp', hq, hc, hqdir, rfl⟩ := rename_cases hrename
  obtain rfl : p = p' := Option.some.inj (hp.symm.trans ((hsame.locate? _).symm.trans hp'))
  rw [hsame.locate?] at hq
  have hpdir' := (hsame.directories p).trans hpdir
  have herase := sameDirectories_erase hpdir'
  have hqdir' := (herase.directories q).trans hqdir
  have hq' := (herase.locate? path).trans ((hsame.locate? path).trans hq)
  have hspares : Spares input t' _ :=
    ((spares_insert hpdir (hstaging p hp) (fun hn => hn.locate? hp) _).trans
      (spares_erase hpdir' (hstaging p hp))).trans
        (spares_insert hqdir' (hplace q hq) (fun hn => hn.locate? hq') (.file c))
  have hsearch' : ∀ dir ∈ searched, ∃ places,
      (((t'.insert p (.file (.text i.toJson.pretty))).erase p).insert q (.file c)).filesBelow dir =
        .ok places := by
    intro dir hdir
    obtain ⟨places, hplaces⟩ := hsearch dir hdir
    refine hspares.grows.filesBelow ?_ hplaces
    intro r hr
    exact directory_mem_of_insert (mem_entries_of_erase (directory_mem_of_insert hr))
  refine ⟨_, hsave, ⟨hready.accepts, hnamed, ?_, ?_, ?_⟩, hmaking.trans hspares, hsearch', hfile⟩
  · intro r hr
    rw [hsettled] at hr
    obtain rfl := Option.some.inj ((hspares.grows.locate? hp).symm.trans hr)
    exact hstaging p hp
  · intro r hr
    rw [hsettled] at hr
    obtain rfl := Option.some.inj ((hspares.grows.locate? hq).symm.trans hr)
    exact hplace q hq
  · rw [hsettled]
    exact hsearch'

end DiceScript
