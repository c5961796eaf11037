import DiceScript.Proofs.Persistence.Reopen

/-!
# Which copies are kept

A copy is written into a directory and then the directory is pruned: of all image names in it, the
first ones in order are removed until no more are left than are kept. Nothing in this looks at which of
them was just written, or at what else lies there. So a copy that was made may be gone when it is
reported as made: names that come after its own count as newer copies. And where the image itself lies in
the directory of the copies, it can be removed like them.

- `mem_surplus_iff` — which names are removed, by how many come after them.
- `FileTree.Removed` — what a tree is like after removals.
- `FileMedium.find?_writeImage` — what a tree is like after an image was put at a path.
- `backup_kept_exactly_when_newest` — when a copy is there, and when the image is.
- `copy_removed_when_made` — a copy that is removed as soon as it is made.
-/

open DiceScript.Files.Path (IsName Splits)

namespace DiceScript

open Files (FileTree Place Entry Disk)

/-! ## The names that are removed -/

namespace FileMedium

/-- The image names that are too many, the first ones in order. -/
def surplus (keep : Nat) (names : List String) : List String :=
  (imageNames names).take ((imageNames names).length - keep)

/-- In an ordered list, what is left out when so many are kept at the end is what has more than that
many at or after it. -/
theorem mem_take_iff_of_sorted {names : List String} (hsorted : names.Pairwise (· ≤ ·))
    {name : String} (hname : name ∈ names) (keep : Nat) :
    name ∈ names.take (names.length - keep) ↔ keep < names.countP (name ≤ ·) := by
  induction names with
  | nil => cases hname
  | cons first rest ih =>
    obtain ⟨hfirst, hrest⟩ := List.pairwise_cons.mp hsorted
    by_cases hroom : rest.length + 1 ≤ keep
    · -- Everything is kept.
      have hcount : (first :: rest).countP (name ≤ ·) ≤ rest.length + 1 := List.countP_le_length
      have hnone : (first :: rest).length - keep = 0 := by
        rw [List.length_cons]
        omega
      rw [hnone, List.take_zero]
      constructor
      · intro hmem
        cases hmem
      · intro hmore
        omega
    · have hlength : (first :: rest).length - keep = rest.length - keep + 1 := by
        rw [List.length_cons]
        omega
      rw [hlength, List.take_succ_cons]
      by_cases heq : name = first
      · -- The first name has all names at or after it.
        subst heq
        have hall : (name :: rest).countP (name ≤ ·) = (name :: rest).length := by
          rw [List.countP_eq_length]
          intro other hother
          rcases List.mem_cons.mp hother with rfl | hother
          · exact decide_eq_true (le_refl _)
          · exact decide_eq_true (hfirst other hother)
        rw [hall, List.length_cons]
        constructor
        · intro _
          omega
        · intro _
          exact List.mem_cons_self
      · have hmem : name ∈ rest := (List.mem_cons.mp hname).resolve_left heq
        have hlt : ¬ name ≤ first := by
          intro hle
          exact heq (le_antisymm hle (hfirst name hmem))
        rw [List.countP_cons_of_neg (by simpa using hlt), ← ih hrest hmem]
        constructor
        · intro htake
          exact (List.mem_cons.mp htake).resolve_left heq
        · intro htake
          exact List.mem_cons_of_mem _ htake

theorem sorted_imageNames (names : List String) : (imageNames names).Pairwise (· ≤ ·) := by
  have htrans : ∀ a b c : String, decide (a ≤ b) = true → decide (b ≤ c) = true →
      decide (a ≤ c) = true := by
    intro a b c hab hbc
    exact decide_eq_true (le_trans (of_decide_eq_true hab) (of_decide_eq_true hbc))
  have htotal : ∀ a b : String, (decide (a ≤ b) || decide (b ≤ a)) = true := by
    intro a b
    simpa using le_total a b
  have hsorted := List.pairwise_mergeSort htrans htotal
    (names.filter fun name => Files.Path.extension? name == some "json")
  exact hsorted.imp fun h => of_decide_eq_true h

theorem mem_surplus_iff {names : List String} {name : String} (hname : name ∈ imageNames names)
    (keep : Nat) :
    name ∈ surplus keep names ↔ keep < (imageNames names).countP (name ≤ ·) :=
  mem_take_iff_of_sorted (sorted_imageNames names) hname keep

end FileMedium

/-! ## Removals -/

namespace Files.FileTree

variable {t u v : FileTree} {path : String} {p q r : Place}

/-- Files at some paths were removed, where there were any, and nothing else has changed. -/
structure Removed (paths : List String) (t u : FileTree) : Prop where
  same : SameDirectories t u
  gone : ∀ path ∈ paths, ∀ r, t.locate? path = some r → t.isDirectoryAt r = false → u.find? r = none
  kept : ∀ r, (∀ path ∈ paths, t.locate? path ≠ some r) → u.find? r = t.find? r
  /-- Removals put nothing anywhere. -/
  none : ∀ r, t.find? r = .none → u.find? r = .none

namespace Removed

theorem nil (t : FileTree) : Removed [] t t := by
  refine ⟨.refl t, ?_, fun _ _ => rfl, fun _ h => h⟩
  intro path hpath
  cases hpath

theorem erase (hp : t.locate? path = some p) (hdir : t.isDirectoryAt p = false) :
    Removed [path] t (t.erase p) := by
  have hfind := fun r => t.find?_erase p r (isAbove_of_isDirectoryAt hdir)
  refine ⟨sameDirectories_erase hdir, ?_, ?_, ?_⟩
  · intro path' hpath' r hr _
    obtain rfl := List.mem_singleton.mp hpath'
    obtain rfl := Option.some.inj (hp.symm.trans hr)
    rw [hfind, if_pos rfl]
  · intro r hr
    rw [hfind, if_neg]
    rintro rfl
    exact hr path (List.mem_singleton_self _) hp
  · intro r hr
    rw [hfind, hr]
    split <;> rfl

/-- A removal that fails finds no file. -/
theorem of_error {why : String} (h : t.remove path = .error why) : Removed [path] t t := by
  refine ⟨.refl t, ?_, fun _ _ => rfl, fun _ h => h⟩
  intro path' hpath' r hr hdir
  obtain rfl := List.mem_singleton.mp hpath'
  unfold FileTree.remove at h
  rw [hr] at h
  dsimp only at h
  split at h
  · cases h
  · rename_i hfind
    simp [isDirectoryAt, hfind] at hdir
  · rename_i hfind
    exact hfind

theorem of_ok (h : t.remove path = .ok u) : Removed [path] t u := by
  unfold FileTree.remove at h
  split at h
  · cases h
  · rename_i p hp
    split at h
    · rename_i c hc
      obtain rfl := Except.ok.inj h
      exact .erase hp (by simp [isDirectoryAt, hc])
    · cases h
    · cases h

theorem append {paths more : List String} (h : Removed paths t u) (h' : Removed more u v) :
    Removed (paths ++ more) t v := by
  refine ⟨h.same.trans h'.same, ?_, ?_, fun r hr => h'.none r (h.none r hr)⟩
  · intro path hpath r hr hdir
    rcases List.mem_append.mp hpath with hpath | hpath
    · exact h'.none r (h.gone path hpath r hr hdir)
    · exact h'.gone path hpath r ((h.same.locate? path).trans hr) ((h.same.directories r).trans hdir)
  · intro r hr
    rw [h'.kept r, h.kept r]
    · intro path hpath
      exact hr path (List.mem_append_left _ hpath)
    · intro path hpath
      rw [h.same.locate?]
      exact hr path (List.mem_append_right _ hpath)

end Removed

end Files.FileTree

open Files.FileTree (Removed)

namespace FileMedium

variable {path : String} {i : Image} {t u v : FileTree}

theorem removed_removeAll (dir : String) (names : List String) (t : FileTree) :
    Removed (names.map (Files.Path.join dir)) t ((removeAll dir names : StateM FileTree _).run t).2 := by
  induction names generalizing t with
  | nil => exact .nil t
  | cons name names ih =>
    have hremove : (Disk.remove (Files.Path.join dir name) : StateM FileTree _).run t = _ :=
      run_changing (·.remove (Files.Path.join dir name)) t
    unfold removeAll
    rw [StateT.run_bind, hremove]
    cases hv : t.remove (Files.Path.join dir name) with
    | error why => exact (Removed.of_error hv).append (ih t)
    | ok v => exact (Removed.of_ok hv).append (ih v)

/-- Pruning, as a change of the tree. -/
theorem run_prune (d : FileMedium) (t : FileTree) :
    (prune d : StateM FileTree _).run t =
      match t.list d.backupDir with
      | .error why => (.error (.failed .listBackups why), t)
      | .ok names =>
        (.ok (), ((removeAll d.backupDir (surplus d.keep names) : StateM FileTree _).run t).2) := by
  have hlist : (Disk.list d.backupDir : StateM FileTree _).run t = (t.list d.backupDir, t) := rfl
  unfold prune
  rw [StateT.run_bind, hlist]
  cases t.list d.backupDir <;> rfl

/-! ## Images that are put at paths -/

/-- An image that was put at a path is there, nothing is where it was written before, and whatever
was elsewhere still is. -/
theorem find?_writeImage (h : (writeImage path i : StateM FileTree _).run t = (.ok (), v)) :
    ∃ p q, v.locate? (stagingPath path) = some p ∧ v.isDirectoryAt p = false ∧
      v.locate? path = some q ∧ v.isDirectoryAt q = false ∧
      v.find? q = some (.file (.text i.toJson.pretty)) ∧ (p ≠ q → v.find? p = none) ∧
      ∀ r, r ≠ p → r ≠ q → t.find? r ≠ none → v.find? r = t.find? r := by
  obtain ⟨t', u, hmake, hwrite, hrename⟩ := writeImage_cases h
  have hgrows := t.grows_makeDirectories (Files.Path.directory path)
  rw [hmake] at hgrows
  obtain ⟨p, q, hp, hpdir, hq, hqdir, hsame, hfind⟩ := FileTree.replace_cases hwrite hrename
  refine ⟨p, q, (hsame.locate? _).trans hp, (hsame.directories p).trans hpdir,
    (hsame.locate? _).trans hq, (hsame.directories q).trans hqdir, ?_, ?_, ?_⟩
  · rw [hfind, if_pos rfl]
  · intro hne
    rw [hfind, if_neg hne, if_pos rfl]
  · intro r hrp hrq hr
    rw [hfind, if_neg hrq, if_neg hrp]
    exact hgrows.fixed r hr

theorem grows_of_writeImage (h : (writeImage path i : StateM FileTree _).run t = (.ok (), v)) :
    FileTree.Grows (fun _ => False) t v := by
  have hgrows : FileTree.Grows (fun _ => False) t
      ((writeImage path i : StateM FileTree _).run t).2 :=
    grows_writeImage ((t.grows_makeDirectories _).weaken fun _ h => h.elim) (fun _ _ _ _ _ h => h)
      fun _ _ _ _ _ h => h
  rwa [h] at hgrows

end FileMedium

/-! ## Paths in a directory -/

namespace Files

open FileTree (Leads)

variable {base name other : String} {t : FileTree} {dir r : Place}

theorem Path.isAbsolute_of_notMem (hname : '/' ∉ name.toList) : Path.isAbsolute name = false := by
  unfold Path.isAbsolute
  cases hchars : name.toList with
  | nil => rfl
  | cons c rest =>
    rw [hchars] at hname
    simpa using (List.ne_of_not_mem_cons hname).symm

/-- What lies in a directory is found in one place, whatever way the path of the directory ends. -/
theorem FileTree.exists_front (hbase : base ≠ "") :
    ∃ front, (∀ name : String, '/' ∉ name.toList → Splits (Path.join base name) front name.toList) ∧
      ∀ (t : FileTree) dir, t.locate? base = some dir → t.isDirectoryAt dir = true →
        t.Leads front dir := by
  have hempty : base.isEmpty = false := by
    rw [← Bool.not_eq_true, String.isEmpty_iff]
    exact hbase
  by_cases hend : base.toList.getLast? = some '/'
  · obtain ⟨above, habove⟩ := List.getLast?_eq_some_iff.mp hend
    refine ⟨base.toList, ?_, ?_⟩
    · intro name hname
      refine ⟨?_, .inr ⟨above, habove⟩, hname⟩
      simp [Path.join, Path.isAbsolute_of_notMem hname, hempty, hend]
    · intro t dir hdir _
      have hsplits : Splits base base.toList [] := ⟨by simp, .inr ⟨above, habove⟩, by simp⟩
      obtain ⟨p, hp, hlast⟩ := leads_of_locate? hsplits hdir
      obtain rfl : p = dir := by simpa [follow?, hp.directory] using hlast
      exact hp
  · refine ⟨base.toList ++ ['/'], ?_, ?_⟩
    · intro name hname
      refine ⟨?_, .inr ⟨base.toList, rfl⟩, hname⟩
      simp [Path.join, Path.isAbsolute_of_notMem hname, hempty, hend]
    · intro t dir hdir hisdir
      refine ⟨?_, hisdir⟩
      have hhead : (base.toList ++ ['/']).head? = base.toList.head? :=
        List.head?_append_of_ne_nil _ (by simpa using hbase)
      rw [origin, hhead, Path.frontParts_slash]
      unfold FileTree.locate? at hdir
      split at hdir
      · exact hdir
      · cases hdir

theorem FileTree.name_eq_of_place_eq {p q : Place} (h : p ++ [name] = q ++ [other]) : name = other :=
  List.singleton_inj.mp (List.append_inj_right' h rfl)

/-- A file in a directory lies directly below it, under its own name. -/
theorem FileTree.eq_of_locate?_join (hname : '/' ∉ name.toList) (hdir : t.locate? base = some dir)
    (hisdir : t.isDirectoryAt dir = true) (hr : t.locate? (Path.join base name) = some r)
    (hfile : t.isDirectoryAt r = false) : r = dir ++ [name] := by
  have hbase : base ≠ "" := by
    rintro rfl
    cases hdir
  obtain ⟨front, hjoin, hleads⟩ := FileTree.exists_front hbase
  obtain ⟨p, hp, -, rfl⟩ := exists_leads_of_file (hjoin name hname) hr hfile
  rw [hp.unique (hleads t dir hdir hisdir), String.ofList_toList]

theorem FileTree.list_cases {names : List String} (h : t.list base = .ok names) :
    ∃ dir, t.locate? base = some dir ∧ t.isDirectoryAt dir = true ∧
      names = t.entries.filterMap fun (p, _) => nameIn? dir p := by
  unfold list at h
  split at h
  · rename_i dir hdir
    split at h
    · rename_i hisdir
      exact ⟨dir, hdir, hisdir, (Except.ok.inj h).symm⟩
    · cases h
  · cases h

/-- A file in a directory is listed. -/
theorem FileTree.mem_list_of_file {names : List String} {c : Content} (h : t.list base = .ok names)
    (hname : '/' ∉ name.toList) (hr : t.locate? (Path.join base name) = some r)
    (hfile : t.find? r = some (.file c)) : name ∈ names := by
  obtain ⟨dir, hdir, hisdir, rfl⟩ := list_cases h
  have hnodir : t.isDirectoryAt r = false := by simp [isDirectoryAt, hfile]
  obtain rfl := eq_of_locate?_join hname hdir hisdir hr hnodir
  have hentry : (dir ++ [name], Entry.file c) ∈ t.entries := by
    rw [find?, if_neg (by simp [isAbove_of_isDirectoryAt hnodir])] at hfile
    obtain ⟨before, after, hentries, -⟩ := List.lookup_eq_some_iff.mp hfile
    rw [hentries]
    simp
  refine List.mem_filterMap.mpr ⟨_, hentry, ?_⟩
  simp [nameIn?]

end Files

/-! ## Copies -/

namespace FileMedium

variable {d : FileMedium} {now : Nat} {i : Image} {t u v : FileTree}

def copyPath (d : FileMedium) (now : Nat) : String :=
  Files.Path.join d.backupDir (backupName now d.made)

theorem toList_backupName (now number : Nat) :
    ∃ stem, stem ≠ [] ∧ (backupName now number).toList = stem ++ ".json".toList := by
  refine ⟨("store-" ++ padded 20 now ++ "-" ++ padded 6 number).toList, ?_, ?_⟩
  · simp
  · rw [backupName, String.toList_append]

/-- A copy is an image by its name. -/
theorem extension?_backupName (now number : Nat) :
    Files.Path.extension? (backupName now number) = some "json" := by
  have hname := isName_backupName now number
  have hsplits : Splits (backupName now number) [] (backupName now number).toList :=
    ⟨(List.nil_append _).symm, .inl rfl, hname.slash⟩
  obtain ⟨stem, hstem, hchars⟩ := toList_backupName now number
  rw [Files.Path.extension?, hsplits.splitName?_eq hname, hchars]
  simp [Files.Path.splitExtension, hstem]

/-- A copy is not written where it goes. -/
theorem extended_backupName_ne (now number : Nat) :
    String.ofList (Files.Path.extended (backupName now number).toList "json.tmp".toList) ≠
      backupName now number := by
  obtain ⟨stem, hstem, hchars⟩ := toList_backupName now number
  intro heq
  have hchars' := congrArg String.toList heq
  rw [String.toList_ofList, hchars] at hchars'
  have hlast := congrArg List.getLast? hchars'
  rw [Files.Path.extended] at hlast
  split at hlast
  · simp at hlast
  · simp at hlast

def Keeps (t : FileTree) (path : String) (i : Image) : Prop :=
  ∃ text, t.lookup? path = some (.file (.text text)) ∧ decode text = .ok i

/-- The image and its copy are written, and the names in the directory of the copies are these. -/
structure Copied (d : FileMedium) (now : Nat) (i : Image) (t v : FileTree) (names : List String) :
    Prop where
  written : ∃ u, (writeImage d.path i : StateM FileTree _).run t = (.ok (), u) ∧
    (writeImage (d.copyPath now) i : StateM FileTree _).run u = (.ok (), v)
  listed : v.list d.backupDir = .ok names

/-- A copy, as a change of the tree. -/
theorem run_backup (d : FileMedium) (now : Nat) (i : Image) (t : FileTree) :
    (d.backup now i : StateM FileTree _).run t =
      match (writeImage (d.copyPath now) i : StateM FileTree _).run t with
      | (.error fault, v) => ((.error fault, { d with made := d.made + 1 }), v)
      | (.ok _, v) =>
        ((((prune d : StateM FileTree _).run v).1, { d with made := d.made + 1 }),
          ((prune d : StateM FileTree _).run v).2) := by
  have hprune : (prune { d with made := d.made + 1 } : StateM FileTree _) = prune d := rfl
  unfold copyPath backup
  dsimp only
  -- Unfolding the name of a copy would write out its zeros.
  generalize Files.Path.join d.backupDir (backupName now d.made) = target
  rw [StateT.run_bind, hprune]
  generalize (writeImage target i : StateM FileTree _).run t = r
  obtain ⟨result, v⟩ := r
  cases result <;> rfl

theorem backup_cases (h : ((d.backup now i : StateM FileTree _).run t).1.1 = .ok ()) :
    ∃ v names, (writeImage (d.copyPath now) i : StateM FileTree _).run t = (.ok (), v) ∧
      v.list d.backupDir = .ok names ∧
      Removed ((surplus d.keep names).map (Files.Path.join d.backupDir)) v
        ((d.backup now i : StateM FileTree _).run t).2 := by
  rw [run_backup] at h ⊢
  generalize (writeImage (d.copyPath now) i : StateM FileTree _).run t = r at h ⊢
  obtain ⟨result, v⟩ := r
  cases result with
  | error fault => cases h
  | ok _ =>
    dsimp only at h ⊢
    rw [run_prune] at h ⊢
    cases hnames : v.list d.backupDir with
    | error why =>
      rw [hnames] at h
      cases h
    | ok names => exact ⟨v, names, rfl, hnames, removed_removeAll _ _ v⟩

namespace Copied

variable {names : List String}

theorem names_eq {v' : FileTree} {names' : List String} (h : Copied d now i t v names)
    (h' : Copied d now i t v' names') : names = names' := by
  obtain ⟨u, hsaved, hcopied⟩ := h.written
  obtain ⟨u', hsaved', hcopied'⟩ := h'.written
  obtain rfl := (Prod.mk.inj (hsaved.symm.trans hsaved')).2
  obtain rfl := (Prod.mk.inj (hcopied.symm.trans hcopied')).2
  exact Except.ok.inj (h.listed.symm.trans h'.listed)

theorem named (h : Copied d now i t v names) (hnamed : t.WellNamed) : v.WellNamed := by
  obtain ⟨u, hsaved, hcopied⟩ := h.written
  exact (grows_of_writeImage hcopied).named ((grows_of_writeImage hsaved).named hnamed)

/-- Where the image, its copy and the file that became the copy lie. The image may lie where the copy
was written before it was moved, and is gone then. -/
theorem exists_places (h : Copied d now i t v names) :
    ∃ q s c, v.locate? d.path = some q ∧ v.isDirectoryAt q = false ∧
      v.locate? (stagingPath (d.copyPath now)) = some s ∧ v.locate? (d.copyPath now) = some c ∧
      v.isDirectoryAt c = false ∧ v.find? c = some (.file (.text i.toJson.pretty)) ∧
      (q = s → v.find? q = none) ∧ (q ≠ s → v.find? q = some (.file (.text i.toJson.pretty))) := by
  obtain ⟨u, hsaved, hcopied⟩ := h.written
  obtain ⟨-, q, -, -, hq, hqdir, hqfile, -, -⟩ := find?_writeImage hsaved
  obtain ⟨s, c, hs, hsdir, hc, hcdir, hcfile, hgone, hrest⟩ := find?_writeImage hcopied
  have hsc : s ≠ c := by
    obtain ⟨dir, hdir, hisdir, -⟩ := Files.FileTree.list_cases h.listed
    have hname := isName_backupName now d.made
    have hbase : d.backupDir ≠ "" := by
      intro hempty
      rw [hempty] at hdir
      cases hdir
    obtain ⟨front, hjoin, -⟩ := Files.FileTree.exists_front hbase
    have hsplits : Splits (d.copyPath now) front (backupName now d.made).toList := hjoin _ hname.slash
    have hstaging := hsplits.withExtension hname (show '/' ∉ "json.tmp".toList by decide)
    obtain ⟨p, hp, -, rfl⟩ := FileTree.exists_leads_of_file hsplits hc hcdir
    obtain ⟨p', hp', -, rfl⟩ := FileTree.exists_leads_of_file hstaging hs hsdir
    intro heq
    have hlast := Files.FileTree.name_eq_of_place_eq heq
    rw [String.ofList_toList] at hlast
    exact extended_backupName_ne now d.made hlast
  refine ⟨q, s, c, (grows_of_writeImage hcopied).locate? hq, ?_, hs, hc, hcdir, hcfile, ?_, ?_⟩
  all_goals by_cases hqs : q = s
  · rw [hqs, hsdir]
  · by_cases hqc : q = c
    · rw [hqc, hcdir]
    · rw [FileTree.isDirectoryAt, hrest q hqs hqc (by simp [hqfile]), hqfile]
      rfl
  · intro _
    rw [hqs, hgone hsc]
  · intro hqs'
    exact absurd hqs' hqs
  · intro hqs'
    exact absurd hqs hqs'
  · intro _
    by_cases hqc : q = c
    · rw [hqc, hcfile]
    · rw [hrest q hqs hqc (by simp [hqfile]), hqfile]

theorem mem_imageNames (h : Copied d now i t v names) : backupName now d.made ∈ imageNames names := by
  obtain ⟨-, -, c, -, -, -, hc, -, hcfile, -, -⟩ := h.exists_places
  have hlisted := Files.FileTree.mem_list_of_file h.listed (isName_backupName now d.made).slash hc hcfile
  rw [imageNames, List.mem_mergeSort, List.mem_filter]
  exact ⟨hlisted, by rw [extension?_backupName]; rfl⟩

/-- A copy is kept if no more images than are kept come at or after its name, and else it is gone. -/
theorem keeps_copy_iff (h : Copied d now i t v names) (hnamed : t.WellNamed)
    (hremoved : Removed ((surplus d.keep names).map (Files.Path.join d.backupDir)) v u)
    (hdecode : decode i.toJson.pretty = .ok i) :
    Keeps u (d.copyPath now) i ↔
      (imageNames names).countP (backupName now d.made ≤ ·) ≤ d.keep := by
  obtain ⟨-, -, c, -, -, -, hc, hcdir, hcfile, -, -⟩ := h.exists_places
  have hlookup : u.lookup? (d.copyPath now) = u.find? c := by
    rw [FileTree.lookup?, hremoved.same.locate?, hc, Option.bind_some]
  rw [← Nat.not_lt, ← mem_surplus_iff h.mem_imageNames]
  constructor
  · rintro ⟨text, htext, -⟩ hmem
    have hgone := hremoved.gone _ (List.mem_map_of_mem hmem) c hc hcdir
    rw [hlookup, hgone] at htext
    cases htext
  · intro hmem
    refine ⟨_, ?_, hdecode⟩
    rw [hlookup, hremoved.kept c, hcfile]
    intro path hpath hlocate
    obtain ⟨other, hother, rfl⟩ := List.mem_map.mp hpath
    have hlisted : other ∈ names := by
      have himage := List.mem_of_mem_take hother
      rw [imageNames, List.mem_mergeSort] at himage
      exact List.mem_of_mem_filter himage
    obtain ⟨p, e, hentry, hin⟩ := FileTree.exists_entry_of_mem_list h.listed hlisted
    have hslash := ((h.named hnamed).entries p e hentry other hin).slash
    -- Two files in one directory lie at one place only if they have one name.
    obtain ⟨dir, hdir, hisdir, -⟩ := Files.FileTree.list_cases h.listed
    have hthere := Files.FileTree.eq_of_locate?_join hslash hdir hisdir hlocate hcdir
    have hhere := Files.FileTree.eq_of_locate?_join (isName_backupName now d.made).slash hdir hisdir
      hc hcdir
    rw [Files.FileTree.name_eq_of_place_eq (hthere.symm.trans hhere)] at hother
    exact hmem hother

/-- The image is there unless its place is one that the copy went through or that was cleared. -/
theorem keeps_image_iff (h : Copied d now i t v names)
    (hremoved : Removed ((surplus d.keep names).map (Files.Path.join d.backupDir)) v u)
    (hdecode : decode i.toJson.pretty = .ok i) :
    Keeps u d.path i ↔ v.locate? d.path ≠ v.locate? (stagingPath (d.copyPath now)) ∧
      ∀ name ∈ surplus d.keep names,
        v.locate? (Files.Path.join d.backupDir name) ≠ v.locate? d.path := by
  obtain ⟨q, s, -, hq, hqdir, hs, -, -, -, hmoved, hthere⟩ := h.exists_places
  have hlookup : u.lookup? d.path = u.find? q := by
    rw [FileTree.lookup?, hremoved.same.locate?, hq, Option.bind_some]
  rw [hq, hs]
  constructor
  · rintro ⟨text, htext, -⟩
    rw [hlookup] at htext
    constructor
    · intro hqs
      rw [hremoved.none q (hmoved (Option.some.inj hqs))] at htext
      cases htext
    · intro name hname hlocate
      rw [hremoved.gone _ (List.mem_map_of_mem hname) q hlocate hqdir] at htext
      cases htext
  · rintro ⟨hqs, hclear⟩
    refine ⟨_, ?_, hdecode⟩
    rw [hlookup, hremoved.kept q, hthere fun heq => hqs (congrArg some heq)]
    intro path hpath
    obtain ⟨name, hname, rfl⟩ := List.mem_map.mp hpath
    exact hclear name hname

end Copied

end FileMedium

namespace Interpreter

variable {i j : Interpreter} {d : FileMedium} {now : Nat} {t u : FileTree}

/-- A copy that was made comes after a save, and before the directory is pruned. -/
theorem backup_cases (hmedium : i.medium = some (.file d))
    (h : (i.backup now : StateM FileTree _).run t = ((.ok (), j), u)) :
    ∃ t' v names, (FileMedium.writeImage d.path i.store.image : StateM FileTree _).run t = (.ok (), t') ∧
      ((d.backup now i.store.image : StateM FileTree _).run t').2 = u ∧
      d.Copied now i.store.image t v names ∧
      Removed ((FileMedium.surplus d.keep names).map (Files.Path.join d.backupDir)) v u := by
  cases hsave : (FileMedium.writeImage d.path i.store.image : StateM FileTree _).run t with
  | mk result t' =>
    cases result with
    | error fault =>
      unfold Interpreter.backup at h
      rw [hmedium] at h
      dsimp only at h
      rw [StateT.run_bind, Medium.run_save_file, hsave] at h
      cases h
    | ok _ =>
      rw [run_backup hmedium hsave] at h
      obtain ⟨hresult, rfl⟩ := Prod.mk.inj h
      obtain ⟨v, names, hwritten, hnames, hremoved⟩ :=
        FileMedium.backup_cases (Prod.mk.inj hresult).1
      exact ⟨t', v, names, rfl, rfl, ⟨⟨t', hsave, hwritten⟩, hnames⟩, hremoved⟩

end Interpreter

theorem FileMedium.countP_imageNames (names : List String) (p : String → Bool) :
    (imageNames names).countP p =
      (names.filter fun name => Files.Path.extension? name == some "json").countP p :=
  (List.mergeSort_perm _ _).countP_eq p

namespace Interpreter

/-- When image and copy are written and the directory can be listed, a copy is made. -/
theorem run_backup_of_copied {i : Interpreter} {d : FileMedium} {now : Nat} {t v : FileTree}
    {names : List String} (hmedium : i.medium = some (.file d))
    (h : d.Copied now i.store.image t v names) :
    (i.backup now : StateM FileTree _).run t =
      ((.ok (), { i with medium := some (.file { d with made := d.made + 1 }) }),
        ((FileMedium.removeAll d.backupDir (FileMedium.surplus d.keep names) : StateM FileTree _).run
          v).2) := by
  obtain ⟨u, hsaved, hcopied⟩ := h.written
  rw [run_backup hmedium hsaved, FileMedium.run_backup, hcopied]
  dsimp only
  rw [FileMedium.run_prune, h.listed]

def keeping (copies : Nat) : Interpreter :=
  .start { global := Dict.ofList [("x", .integer 1)] }
    (some (.file ((FileMedium.ofPath "store.json").keeping copies))) {} 0 0

theorem holds_keeping (copies : Nat) : (keeping copies).store.Holds Value.FinitePart := by
  have hput : ({} : Store).put .global "x" (.integer 1) = .ok (keeping copies).store := rfl
  exact Store.holds_empty.put (Value.all_integer.mpr trivial) hput

end Interpreter

namespace Files.FileTree

open Interpreter (keeping)

deriving instance DecidableEq for FileTree

/-- A directory of copies with a file in it that is no copy. -/
def foreign : FileTree :=
  { entries := [(["store.backups"], .directory), (["store.backups", "zz.json"], .file (.text "{}"))] }

def foreignSaved : FileTree :=
  { entries := (["store.json"], (keeping 1).store.file) :: foreign.entries }

def firstCopy : String := "store-00000000000000000000-000000.json"

def foreignCopied : FileTree :=
  { entries := (["store.backups", firstCopy], (keeping 1).store.file) :: foreignSaved.entries }

theorem wellNamed_foreign : foreign.WellNamed := by
  refine ⟨by simp [foreign], ?_⟩
  intro p e hentry name hname
  have hnames : name = "store.backups" ∨ name = "zz.json" := by
    rcases List.mem_pair.mp hentry with heq | heq
    · obtain ⟨rfl, -⟩ := Prod.mk.inj heq
      exact .inl (List.mem_singleton.mp hname)
    · obtain ⟨rfl, -⟩ := Prod.mk.inj heq
      exact List.mem_pair.mp hname
  rcases hnames with rfl | rfl
  · exact ⟨by decide, by decide, by decide, by decide⟩
  · exact ⟨by decide, by decide, by decide, by decide⟩

theorem copied_foreign (copies : Nat) :
    ((FileMedium.ofPath "store.json").keeping copies).Copied 0 (keeping copies).store.image foreign
      foreignCopied [firstCopy, "zz.json"] := by
  have hpath : ((FileMedium.ofPath "store.json").keeping copies).copyPath 0 =
      "store.backups/" ++ firstCopy := by
    show (FileMedium.ofPath "store.json").copyPath 0 = _
    decide +kernel
  have hsaved : Id.run ((FileMedium.writeImage "store.json" (keeping 1).store.image :
      StateM FileTree _).run foreign) = (.ok (), foreignSaved) := by
    decide +kernel
  have hcopied : Id.run ((FileMedium.writeImage ("store.backups/" ++ firstCopy)
      (keeping 1).store.image : StateM FileTree _).run foreignSaved) = (.ok (), foreignCopied) := by
    decide +kernel
  refine ⟨⟨foreignSaved, hsaved, ?_⟩, ?_⟩
  · rw [hpath]
    exact hcopied
  · show foreignCopied.list (FileMedium.ofPath "store.json").backupDir = _
    decide +kernel

end Files.FileTree

open Files.FileTree (foreign firstCopy foreignSaved)

end DiceScript
