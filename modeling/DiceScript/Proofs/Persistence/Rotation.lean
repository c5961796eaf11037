import DiceScript.Proofs.Persistence.AllOrNothing
import DiceScript.Proofs.Persistence.Copies
import Mathlib.Data.List.DropRight

/-!
# What rotation leaves

The directory of the copies may hold anything, in any order. When a copy is made, the images in it are
afterwards the last ones of its images and the new copy, ordered by name, as many as are kept. The ones
that stay are as they were, and nothing else in the tree has changed. This needs that images can be
removed, since one that cannot be removed stays without being counted, and that no place is listed twice.

- `Distinct` — a tree in which no place has two entries; every operation keeps it.
- `ImageAt`, `CopiesRemovable` — the images in a directory, and that all of them can be removed.
- `Placed` — what a tree is like after a copy was put into its directory.
- `backup_leaves_newest` — what a tree is like after a copy was made.
-/

open DiceScript.Files.Path (IsName Splits)

namespace DiceScript

open Files (FileTree Place Entry Disk)

namespace Files.FileTree

variable {t u v : FileTree} {p q dir : Place} {path name : String}

/-! ## Entries of a tree -/

def Distinct (t : FileTree) : Prop := (t.entries.map Prod.fst).Nodup

namespace Distinct

theorem erase (h : t.Distinct) (p : Place) : (t.erase p).Distinct :=
  h.sublist (List.filter_sublist.map Prod.fst)

theorem insert (h : t.Distinct) (p : Place) (e : Entry) : (t.insert p e).Distinct := by
  refine List.nodup_cons.mpr ⟨?_, h.erase p⟩
  intro hmem
  obtain ⟨⟨q, f⟩, hentry, rfl⟩ := List.mem_map.mp hmem
  simpa using List.of_mem_filter hentry

theorem write {c : Content} (h : t.Distinct) (hwrite : t.write path c = .ok u) : u.Distinct := by
  obtain ⟨p, -, -, rfl⟩ := write_cases hwrite
  exact h.insert p _

theorem rename {target : String} (h : t.Distinct) (hrename : t.rename path target = .ok u) :
    u.Distinct := by
  obtain ⟨p, q, c, -, -, -, -, rfl⟩ := rename_cases hrename
  exact (h.erase p).insert q _

theorem makeFrom (h : t.Distinct) (p : Place) (parts : List String) :
    (t.makeFrom p parts).2.Distinct := by
  induction parts generalizing t p with
  | nil => exact h
  | cons part rest ih =>
    unfold FileTree.makeFrom
    split_ifs
    · exact ih h p
    · exact ih h p.dropLast
    · split
      · exact ih h _
      · exact h
      · exact ih (h.insert _ _) _
    · exact h

theorem makeDirectories (h : t.Distinct) (path : String) : (t.makeDirectories path).2.Distinct := by
  unfold FileTree.makeDirectories
  split_ifs
  · exact h
  · exact h.makeFrom _ _
  · exact h

end Distinct

/-- There is something at a place that is above the current directory or has an entry. -/
theorem find?_ne_none_iff : t.find? p ≠ none ↔ t.isAbove p = true ∨ ∃ e, (p, e) ∈ t.entries := by
  unfold find?
  split
  · simp_all
  · rename_i habove
    rw [Ne, List.lookup_eq_none_iff]
    push Not
    constructor
    · rintro ⟨⟨q, e⟩, hentry, hq⟩
      obtain rfl : p = q := by simpa using hq
      exact .inr ⟨e, hentry⟩
    · rintro (h | ⟨e, hentry⟩)
      · exact absurd h habove
      · exact ⟨(p, e), hentry, by simp⟩

theorem WellNamed.of_find? (h : t.WellNamed) (hp : t.find? p ≠ none) :
    ∀ name ∈ p, IsName name.toList := by
  rcases find?_ne_none_iff.mp hp with habove | ⟨e, hentry⟩
  · intro name hname
    exact h.here name ((List.isPrefixOf_iff_prefix.mp habove).subset hname)
  · exact h.entries p e hentry

/-! ## Names that are listed -/

theorem nameIn?_eq_some_iff : nameIn? dir p = some name ↔ p = dir ++ [name] := by
  unfold nameIn?
  constructor
  · intro h
    split at h
    · rename_i other hdrop
      rw [Option.ite_none_right_eq_some] at h
      obtain ⟨hdir, hname⟩ := h
      obtain rfl := Option.some.inj hname
      obtain ⟨rest, rfl⟩ := List.isPrefixOf_iff_prefix.mp hdir
      rw [List.drop_left] at hdrop
      rw [hdrop]
    · cases h
  · rintro rfl
    simp

/-- The names in a directory are those of the entries that lie directly in it. -/
theorem mem_list_iff {names : List String} (hlist : t.list path = .ok names)
    (hdir : t.locate? path = some dir) : name ∈ names ↔ ∃ e, (dir ++ [name], e) ∈ t.entries := by
  obtain ⟨dir', hdir', -, rfl⟩ := list_cases hlist
  obtain rfl := Option.some.inj (hdir.symm.trans hdir')
  simp only [List.mem_filterMap, Prod.exists, nameIn?_eq_some_iff]
  constructor
  · rintro ⟨p, e, hentry, rfl⟩
    exact ⟨e, hentry⟩
  · rintro ⟨e, hentry⟩
    exact ⟨_, e, hentry, rfl⟩

theorem Distinct.nodup_list (h : t.Distinct) {names : List String}
    (hlist : t.list path = .ok names) : names.Nodup := by
  obtain ⟨dir, -, -, rfl⟩ := list_cases hlist
  have hnodup : ((t.entries.map Prod.fst).filterMap (nameIn? dir)).Nodup := by
    refine List.Nodup.filterMap ?_ h
    intro p q name hp hq
    rw [nameIn?_eq_some_iff.mp hp, nameIn?_eq_some_iff.mp hq]
  rw [List.filterMap_map] at hnodup
  exact hnodup

end Files.FileTree

open Files.FileTree (Removed)

namespace FileMedium

variable {d : FileMedium} {now : Nat} {i : Image} {t u v : FileTree} {dir : Place} {name : String}
  {names : List String}

/-! ## Images in a directory -/

def ImageAt (t : FileTree) (dir : Place) (name : String) : Prop :=
  Files.Path.extension? name = some "json" ∧ t.find? (dir ++ [name]) ≠ none

/-- Every image in the directory of the copies is a file that can be removed. -/
def CopiesRemovable (d : FileMedium) (t : FileTree) : Prop :=
  ∀ dir name, t.locate? d.backupDir = some dir → ImageAt t dir name →
    ∃ u, t.remove (Files.Path.join d.backupDir name) = .ok u

/-- An image that can be removed is a file, to which its path in the directory leads. -/
theorem CopiesRemovable.file (h : CopiesRemovable d t) (hnamed : t.WellNamed)
    (hdir : t.locate? d.backupDir = some dir) (hisdir : t.isDirectoryAt dir = true)
    (himage : ImageAt t dir name) :
    t.locate? (Files.Path.join d.backupDir name) = some (dir ++ [name]) ∧
      t.isDirectoryAt (dir ++ [name]) = false := by
  have hname : IsName name.toList := hnamed.of_find? himage.2 name (by simp)
  obtain ⟨u, hremove⟩ := h dir name hdir himage
  unfold FileTree.remove at hremove
  split at hremove
  · cases hremove
  rename_i r hr
  split at hremove
  · rename_i c hc
    have hfile : t.isDirectoryAt r = false := by simp [FileTree.isDirectoryAt, hc]
    obtain rfl := FileTree.eq_of_locate?_join hname.slash hdir hisdir hr hfile
    exact ⟨hr, hfile⟩
  · cases hremove
  · cases hremove

theorem mem_imageNames_iff :
    name ∈ imageNames names ↔ name ∈ names ∧ Files.Path.extension? name = some "json" := by
  rw [imageNames, List.mem_mergeSort, List.mem_filter, beq_iff_eq]

/-- Where the images are files, they are what is listed as images. -/
theorem mem_imageNames_iff_imageAt (hlist : t.list d.backupDir = .ok names)
    (hdir : t.locate? d.backupDir = some dir)
    (hfiles : ∀ name, ImageAt t dir name → t.isDirectoryAt (dir ++ [name]) = false) :
    name ∈ imageNames names ↔ ImageAt t dir name := by
  rw [mem_imageNames_iff, FileTree.mem_list_iff hlist hdir, and_comm]
  constructor
  · rintro ⟨hextension, hentry⟩
    exact ⟨hextension, FileTree.find?_ne_none_iff.mpr (.inr hentry)⟩
  · intro himage
    have hnoabove := FileTree.isAbove_of_isDirectoryAt (hfiles name himage)
    have hentry := (FileTree.find?_ne_none_iff.mp himage.2).resolve_left (by simp [hnoabove])
    exact ⟨himage.1, hentry⟩

/-- Images are listed in order, each once. -/
theorem strictly_sorted_imageNames (h : names.Nodup) : (imageNames names).Pairwise (· < ·) := by
  have hnodup : (imageNames names).Nodup := (List.mergeSort_perm _ _).nodup_iff.mpr (h.filter _)
  exact (sorted_imageNames names).imp₂ (fun _ _ hle hne => lt_of_le_of_ne hle hne) hnodup

/-! ## A copy that was put into its directory -/

/-- The tree in which a copy is written: the directories that it needs have been made. -/
def prepared (d : FileMedium) (now : Nat) (t : FileTree) : FileTree :=
  (t.makeDirectories (Files.Path.directory (d.copyPath now))).2

/-- Where the copy's path leads to a place, the directory is there and the tree stays as it is. -/
theorem prepared_eq_self {place : Place} (h : t.locate? (d.copyPath now) = some place) :
    d.prepared now t = t :=
  FileTree.makeDirectories_of_locate? h

/-- A copy was put into its directory, through a place there that is no image. -/
structure Placed (d : FileMedium) (now : Nat) (text : String) (t v : FileTree) (dir next : Place) :
    Prop where
  same : FileTree.SameDirectories t v
  directory : v.locate? d.backupDir = some dir
  isDirectory : v.isDirectoryAt dir = true
  copy : v.locate? (d.copyPath now) = some (dir ++ [backupName now d.made])
  file : v.isDirectoryAt (dir ++ [backupName now d.made]) = false
  staging : v.locate? (stagingPath (d.copyPath now)) = some next
  apart : ∀ name, next = dir ++ [name] → Files.Path.extension? name ≠ some "json"
  find : ∀ r, v.find? r =
    if r = dir ++ [backupName now d.made] then some (.file (.text text))
    else if r = next then none else t.find? r

/-- What is written next to a path is no image by its name. -/
theorem extension?_extended {last : List Char}
    (hname : IsName (Files.Path.extended last "json.tmp".toList)) :
    Files.Path.extension? (String.ofList (Files.Path.extended last "json.tmp".toList)) =
      some "tmp" := by
  have hsplits : Splits (String.ofList (Files.Path.extended last "json.tmp".toList)) []
      (Files.Path.extended last "json.tmp".toList) := ⟨by simp, .inl rfl, hname.slash⟩
  rw [Files.Path.extension?, hsplits.splitName?_eq hname]
  dsimp only
  unfold Files.Path.extended at hname ⊢
  split_ifs at hname ⊢
  · exact absurd rfl hname.up
  · simp [Files.Path.splitExtension]

theorem distinct_writeImage {path : String} (h : t.Distinct)
    (hwrite : (writeImage path i : StateM FileTree _).run t = (.ok (), v)) : v.Distinct := by
  obtain ⟨t', u, hmake, hwritten, hrename⟩ := writeImage_cases hwrite
  have hmade := h.makeDirectories (Files.Path.directory path)
  rw [hmake] at hmade
  exact (hmade.write hwritten).rename hrename

/-- When a copy was written and its directory can be listed, it is in that directory. -/
theorem exists_placed (hwrite : (writeImage (d.copyPath now) i : StateM FileTree _).run t = (.ok (), v))
    (hlist : v.list d.backupDir = .ok names) :
    ∃ dir next, Placed d now i.toJson.pretty (d.prepared now t) v dir next := by
  obtain ⟨t', u, hmake, hwritten, hrename⟩ := writeImage_cases hwrite
  obtain ⟨p, q, hp, hpdir, hq, hqdir, hsame, hfind⟩ := FileTree.replace_cases hwritten hrename
  obtain ⟨dir, hdir, hisdir, -⟩ := FileTree.list_cases hlist
  have hprepared : d.prepared now t = t' := by rw [prepared, hmake]
  have hcopy : v.locate? (d.copyPath now) = some q := (hsame.locate? _).trans hq
  have hfile : v.isDirectoryAt q = false := (hsame.directories q).trans hqdir
  have hname := isName_backupName now d.made
  obtain rfl := FileTree.eq_of_locate?_join hname.slash hdir hisdir hcopy hfile
  refine ⟨dir, p, ?_⟩
  rw [hprepared]
  refine ⟨hsame, hdir, hisdir, hcopy, hfile, (hsame.locate? _).trans hp, ?_, hfind⟩
  rintro name rfl hextension
  -- The path next to the copy has the same front, and so leads to a name with another extension.
  have hbase : d.backupDir ≠ "" := by
    intro hempty
    rw [hempty] at hdir
    cases hdir
  obtain ⟨front, hjoin, -⟩ := FileTree.exists_front hbase
  have hsplits : Splits (d.copyPath now) front (backupName now d.made).toList := hjoin _ hname.slash
  have hstaging := hsplits.withExtension hname (show '/' ∉ "json.tmp".toList by decide)
  obtain ⟨above, -, hextended, hlast⟩ := FileTree.exists_leads_of_file hstaging hp hpdir
  rw [FileTree.name_eq_of_place_eq hlast, extension?_extended hextended] at hextension
  exact absurd hextension (by decide)

namespace Placed

variable {text : String} {next : Place}

/-- The images are those that were there, and the copy. -/
theorem imageAt_iff (h : Placed d now text t v dir next) :
    ImageAt v dir name ↔ ImageAt t dir name ∨ name = backupName now d.made := by
  unfold ImageAt
  rw [h.find]
  by_cases hname : name = backupName now d.made
  · simp [hname, extension?_backupName]
  · rw [if_neg fun hplace => hname (FileTree.name_eq_of_place_eq hplace)]
    by_cases hnext : dir ++ [name] = next
    · have hextension := h.apart name hnext.symm
      simp [hname, hextension]
    · simp [hname, hnext]

/-- What is at a place that is neither the copy's nor the one it went through stays. -/
theorem find_elsewhere (h : Placed d now text t v dir next) {r : Place}
    (hcopy : r ≠ dir ++ [backupName now d.made]) (hnext : r ≠ next) : v.find? r = t.find? r := by
  rw [h.find, if_neg hcopy, if_neg hnext]

theorem find_next (h : Placed d now text t v dir next) : v.find? next = none := by
  rw [h.find, if_neg, if_pos rfl]
  intro hcopy
  exact h.apart _ hcopy (extension?_backupName now d.made)

/-- Where the images were files that can be removed, all of them are files to which their paths in the
directory lead. -/
theorem files (h : Placed d now text t v dir next) (hremovable : d.CopiesRemovable t)
    (hnamed : t.WellNamed) (himage : ImageAt v dir name) :
    v.locate? (Files.Path.join d.backupDir name) = some (dir ++ [name]) ∧
      v.isDirectoryAt (dir ++ [name]) = false := by
  rcases h.imageAt_iff.mp himage with hold | rfl
  · rw [h.same.locate?, h.same.directories]
    refine hremovable.file hnamed ?_ ?_ hold
    · rw [← h.same.locate?, h.directory]
    · rw [← h.same.directories, h.isDirectory]
  · exact ⟨h.copy, h.file⟩

end Placed

/-! ## Directories that were made before -/

/-- The directories that are made for a copy are no images that can be removed. -/
theorem imageAt_prepared_iff
    (hfiles : ∀ name, ImageAt (d.prepared now t) dir name →
      (d.prepared now t).isDirectoryAt (dir ++ [name]) = false) :
    ImageAt (d.prepared now t) dir name ↔ ImageAt t dir name := by
  have hkept := kept_makeDirectories (d.copyPath now) t (dir ++ [name])
  constructor
  · intro himage
    have hnodir := hfiles name himage
    rcases hkept with hsame | ⟨-, hmade, -⟩
    · exact ⟨himage.1, hsame ▸ himage.2⟩
    · simp [FileTree.isDirectoryAt, prepared, hmade] at hnodir
  · rintro ⟨hextension, hfind⟩
    rcases hkept with hsame | ⟨hnone, -⟩
    · exact ⟨hextension, fun hnone => hfind (hsame ▸ hnone)⟩
    · exact absurd hnone hfind

namespace Placed

variable {text : String} {next : Place}

/-- The images are those that were there before directories were made, and the copy. -/
theorem imageAt_iff_made (h : Placed d now text (d.prepared now t) v dir next)
    (hfiles : ∀ name, ImageAt v dir name → v.isDirectoryAt (dir ++ [name]) = false) :
    ImageAt v dir name ↔ ImageAt t dir name ∨ name = backupName now d.made := by
  rw [h.imageAt_iff, imageAt_prepared_iff]
  intro other hother
  rw [← h.same.directories]
  exact hfiles other (h.imageAt_iff.mpr (.inl hother))

/-- The copy holds the image, and the other images are as they were before directories were made. -/
theorem find_image (h : Placed d now text (d.prepared now t) v dir next)
    (himage : ImageAt t dir name ∨ name = backupName now d.made) :
    v.find? (dir ++ [name]) =
      if name = backupName now d.made then some (.file (.text text))
      else t.find? (dir ++ [name]) := by
  split
  · rename_i hname
    rw [hname, h.find, if_pos rfl]
  · rename_i hname
    have hold := himage.resolve_right hname
    rw [h.find_elsewhere (fun hplace => hname (FileTree.name_eq_of_place_eq hplace))
      fun hplace => h.apart name hplace.symm hold.1]
    exact (kept_makeDirectories (d.copyPath now) t _).resolve_right fun hmade => hold.2 hmade.1

/-- What lies elsewhere is kept by changes that leave it and the directories as they are. -/
theorem kept (h : Placed d now text (d.prepared now t) v dir next)
    (hsame : FileTree.SameDirectories v u) {r : Place} (hcopy : r ≠ dir ++ [backupName now d.made])
    (hnext : r ≠ next) (hfind : u.find? r = v.find? r) : Kept (d.copyPath now) t u r := by
  refine FileTree.KeptAlong.trans (kept_makeDirectories (d.copyPath now) t r) (h.same.trans hsame) ?_
  rw [hfind, h.find_elsewhere hcopy hnext]
  rfl

end Placed

/-! ## The images that are left -/

/-- When images that are files are removed, nothing is at their places, and nothing else changes. -/
theorem find?_of_removed {surplus : List String}
    (hfiles : ∀ name ∈ surplus, v.locate? (Files.Path.join d.backupDir name) = some (dir ++ [name]) ∧
      v.isDirectoryAt (dir ++ [name]) = false)
    (hremoved : Removed (surplus.map (Files.Path.join d.backupDir)) v u) (name : String) :
    u.find? (dir ++ [name]) = if name ∈ surplus then none else v.find? (dir ++ [name]) := by
  split
  · rename_i hname
    obtain ⟨hlocate, hfile⟩ := hfiles name hname
    exact hremoved.gone _ (List.mem_map_of_mem hname) _ hlocate hfile
  · rename_i hname
    refine hremoved.kept _ ?_
    intro path hpath hlocate
    obtain ⟨other, hother, rfl⟩ := List.mem_map.mp hpath
    rw [(hfiles other hother).1] at hlocate
    rw [FileTree.name_eq_of_place_eq (Option.some.inj hlocate)] at hother
    exact hname hother

/-- Of names that are listed once, those at the end are the ones that are not too many. -/
theorem mem_rtake_iff {keep : Nat} (hnodup : (imageNames names).Nodup) :
    name ∈ (imageNames names).rtake keep ↔ name ∈ imageNames names ∧ name ∉ surplus keep names := by
  unfold surplus List.rtake
  generalize imageNames names = sorted at hnodup ⊢
  have hsplit := List.take_append_drop (sorted.length - keep) sorted
  have hmem : name ∈ sorted ↔ name ∈ sorted.take (sorted.length - keep) ∨
      name ∈ sorted.drop (sorted.length - keep) := by
    rw [← List.mem_append, hsplit]
  rw [← hsplit] at hnodup
  have hdisjoint := List.disjoint_of_nodup_append hnodup
  rw [hmem]
  constructor
  · intro hlast
    exact ⟨.inr hlast, fun hfirst => hdisjoint hfirst hlast⟩
  · rintro ⟨hfirst | hlast, hnotfirst⟩
    · exact absurd hfirst hnotfirst
    · exact hlast

end FileMedium

open FileMedium (ImageAt Kept backupName stagingPath)

/-- **A copy that is made leaves the newest.** For every tree and every number of copies asked for, one
at least: when the images in the directory of the copies are files that can be removed and a copy is
reported as made, the images there are the last ones, as many as were asked for, of those that were there
and the new one, ordered by name. The new one, if it is left, holds the image, and the others are as they
were. Nothing is left where the copy was written before it was moved, and at no other place of the tree
has anything changed but that missing directories on the way to the copy were made. -/
theorem backup_leaves_newest (d : FileMedium) (count now : Nat) (i : Image) {t u : FileTree}
    {d' : FileMedium} (hnamed : t.WellNamed) (hdistinct : t.Distinct)
    (hremovable : d.CopiesRemovable (d.prepared now t))
    (h : ((d.keeping count).backup now i : StateM FileTree _).run t = ((.ok (), d'), u)) :
    ∃ (dir : Place) (sorted : List String),
      (d.prepared now t).locate? d.backupDir = some dir ∧
      u.locate? d.backupDir = some dir ∧ u.isDirectoryAt dir = true ∧
      sorted.Pairwise (· < ·) ∧
      (∀ name, name ∈ sorted ↔ ImageAt t dir name ∨ name = backupName now d.made) ∧
      (∀ name, ImageAt u dir name ↔ name ∈ sorted.rtake (max count 1)) ∧
      (∀ name ∈ sorted.rtake (max count 1), u.find? (dir ++ [name]) =
        if name = backupName now d.made then some (.file (.text i.toJson.pretty))
        else t.find? (dir ++ [name])) ∧
      u.lookup? (stagingPath (d.copyPath now)) = none ∧
      ∀ r, u.locate? (stagingPath (d.copyPath now)) ≠ some r →
        (∀ name, Files.Path.extension? name = some "json" → r ≠ dir ++ [name]) →
          Kept (d.copyPath now) t u r := by
  have hok : ((((d.keeping count).backup now i : StateM FileTree _).run t).1).1 = .ok () := by rw [h]
  obtain ⟨v, names, hwrite, hlist, hremoved⟩ := FileMedium.backup_cases hok
  rw [h] at hremoved
  obtain ⟨dir, next, hplaced⟩ := FileMedium.exists_placed (d := d) hwrite hlist
  have hprepared : (d.prepared now t).WellNamed := (t.grows_makeDirectories _).named hnamed
  have hfiles : ∀ name, ImageAt v dir name →
      v.locate? (Files.Path.join d.backupDir name) = some (dir ++ [name]) ∧
        v.isDirectoryAt (dir ++ [name]) = false :=
    fun _ himage => hplaced.files hremovable hprepared himage
  have hnodir := fun name himage => (hfiles name himage).2
  have hmem : ∀ name, name ∈ FileMedium.imageNames names ↔ ImageAt v dir name := fun _ =>
    FileMedium.mem_imageNames_iff_imageAt hlist hplaced.directory hnodir
  have hold : ∀ name, ImageAt v dir name ↔ ImageAt t dir name ∨ name = backupName now d.made :=
    fun _ => hplaced.imageAt_iff_made hnodir
  have hsurplus : ∀ name ∈ FileMedium.surplus (max count 1) names, ImageAt v dir name :=
    fun name hname => (hmem name).mp (List.mem_of_mem_take hname)
  have hfind := FileMedium.find?_of_removed (fun name hname => hfiles name (hsurplus name hname))
    hremoved
  have hsorted := FileMedium.strictly_sorted_imageNames
    ((FileMedium.distinct_writeImage hdistinct hwrite).nodup_list hlist)
  have hnodup : (FileMedium.imageNames names).Nodup := hsorted.imp ne_of_lt
  refine ⟨dir, FileMedium.imageNames names, ?_, ?_, ?_, hsorted,
    fun name => (hmem name).trans (hold name), ?_, ?_, ?_, ?_⟩
  · rw [← hplaced.same.locate?, hplaced.directory]
  · rw [hremoved.same.locate?, hplaced.directory]
  · rw [hremoved.same.directories, hplaced.isDirectory]
  · intro name
    rw [FileMedium.mem_rtake_iff hnodup, hmem, ImageAt, ImageAt, hfind]
    by_cases hname : name ∈ FileMedium.surplus (max count 1) names <;> simp [hname]
  · intro name hname
    obtain ⟨himage, hnotsurplus⟩ := (FileMedium.mem_rtake_iff hnodup).mp hname
    rw [hfind, if_neg hnotsurplus]
    exact hplaced.find_image ((hold name).mp ((hmem name).mp himage))
  · rw [FileTree.lookup?, hremoved.same.locate?, hplaced.staging, Option.bind_some]
    exact hremoved.none next hplaced.find_next
  · intro r hr hnoimage
    rw [hremoved.same.locate?, hplaced.staging] at hr
    have hcopy := hnoimage _ (FileMedium.extension?_backupName now d.made)
    refine hplaced.kept hremoved.same hcopy (fun hnext => hr (congrArg some hnext.symm)) ?_
    refine hremoved.kept r fun path hpath hlocate => ?_
    obtain ⟨name, hname, rfl⟩ := List.mem_map.mp hpath
    have himage := hsurplus name hname
    exact hnoimage name himage.1 (Option.some.inj (hlocate.symm.trans (hfiles name himage).1))

/-! ## A copy among others -/

namespace Files.FileTree

/-- A directory with two images in it, one before the copies by name and one after them, and a file that
is no image. -/
def crowded : FileTree :=
  { entries := [(["store.backups"], .directory), (["store.backups", "zz.json"], .file (.text "{}")),
      (["store.backups", "notes.txt"], .file (.text "")),
      (["store.backups", "a.json"], .file (.bytes [255]))] }

theorem wellNamed_crowded : crowded.WellNamed := by
  refine ⟨by simp [crowded], ?_⟩
  have hnames : ∀ entry ∈ crowded.entries, ∀ name ∈ entry.1, '/' ∉ name.toList ∧ name.toList ≠ [] ∧
      name.toList ≠ ['.'] ∧ name.toList ≠ ['.', '.'] := by
    decide
  intro p e hentry name hname
  obtain ⟨hslash, hnonempty, hsame, hup⟩ := hnames (p, e) hentry name hname
  exact ⟨hslash, hnonempty, hsame, hup⟩

theorem imageAt_crowded {name : String} :
    ImageAt crowded ["store.backups"] name ↔ name = "a.json" ∨ name = "zz.json" := by
  have hnotes : Path.extension? "notes.txt" ≠ some "json" := by decide +kernel
  have ha : Path.extension? "a.json" = some "json" := by decide +kernel
  have hzz : Path.extension? "zz.json" = some "json" := by decide +kernel
  rw [ImageAt, find?_ne_none_iff]
  constructor
  · rintro ⟨hextension, habove | ⟨e, hentry⟩⟩
    · cases habove
    · have hname : name = "zz.json" ∨ name = "notes.txt" ∨ name = "a.json" := by
        have hplace := List.mem_map_of_mem (f := Prod.fst) hentry
        simpa [crowded] using hplace
      rcases hname with rfl | rfl | rfl
      · exact .inr rfl
      · exact absurd hextension hnotes
      · exact .inl rfl
  · rintro (rfl | rfl)
    · exact ⟨ha, .inr ⟨_, by simp [crowded]; rfl⟩⟩
    · exact ⟨hzz, .inr ⟨_, by simp [crowded]; rfl⟩⟩

end Files.FileTree

open Files.FileTree (crowded firstCopy)

theorem FileMedium.copiesRemovable_crowded :
    (FileMedium.ofPath "store.json").CopiesRemovable crowded := by
  intro dir name hdir himage
  have hplace : crowded.locate? (FileMedium.ofPath "store.json").backupDir = some ["store.backups"] := by
    decide +kernel
  obtain rfl := Option.some.inj (hdir.symm.trans hplace)
  rcases FileTree.imageAt_crowded.mp himage with rfl | rfl
  · exact ⟨_, rfl⟩
  · exact ⟨_, rfl⟩

/-- With two copies kept, the image that comes first is removed, and the file that is no image does not
count. -/
theorem backup_leaves_newest_crowded :
    let d := FileMedium.ofPath "store.json"
    let i : Image := ⟨Image.currentSchema, {}⟩
    crowded.WellNamed ∧ crowded.Distinct ∧ d.CopiesRemovable (d.prepared 0 crowded) ∧
      ∃ d' u, ((d.keeping 2).backup 0 i : StateM FileTree _).run crowded = ((.ok (), d'), u) ∧
        ∀ name, ImageAt u ["store.backups"] name ↔ name ∈ [firstCopy, "zz.json"] := by
  intro d i
  have hdistinct : crowded.Distinct := by
    unfold FileTree.Distinct
    decide
  have hcopy : crowded.locate? (d.copyPath 0) = some ["store.backups", firstCopy] := by decide +kernel
  have hprepared : d.prepared 0 crowded = crowded := FileMedium.prepared_eq_self hcopy
  have hremovable : d.CopiesRemovable (d.prepared 0 crowded) := by
    rw [hprepared]
    exact FileMedium.copiesRemovable_crowded
  have hpath : (d.keeping 2).copyPath 0 = "store.backups/" ++ firstCopy := by
    show d.copyPath 0 = _
    decide +kernel
  obtain ⟨v, hv⟩ : ∃ v : FileTree, v = { crowded with
      entries := (["store.backups", firstCopy], .file (.text i.toJson.pretty)) :: crowded.entries } :=
    ⟨_, rfl⟩
  have hwritten : Id.run ((FileMedium.writeImage ("store.backups/" ++ firstCopy) i :
      StateM FileTree _).run crowded) = (.ok (), v) := by
    rw [hv]
    decide +kernel
  have hlisted : v.list d.backupDir = .ok [firstCopy, "zz.json", "notes.txt", "a.json"] := by
    rw [hv]
    decide +kernel
  have hrun : ∃ d' u, ((d.keeping 2).backup 0 i : StateM FileTree _).run crowded = ((.ok (), d'), u) := by
    have hwrite : (FileMedium.writeImage ("store.backups/" ++ firstCopy) i :
      StateM FileTree _).run crowded = (.ok (), v) := hwritten
    have hlist : v.list (d.keeping 2).backupDir = _ := hlisted
    rw [FileMedium.run_backup, hpath, hwrite]
    dsimp only
    rw [FileMedium.run_prune, hlist]
    exact ⟨_, _, rfl⟩
  obtain ⟨d', u, hrun⟩ := hrun
  obtain ⟨dir, sorted, hdir, -, -, hsorted, hmem, hleft, -⟩ :=
    backup_leaves_newest d 2 0 i FileTree.wellNamed_crowded hdistinct hremovable hrun
  refine ⟨FileTree.wellNamed_crowded, hdistinct, hremovable, d', u, hrun, ?_⟩
  have hplace : crowded.locate? d.backupDir = some ["store.backups"] := by decide +kernel
  rw [hprepared, hplace] at hdir
  obtain rfl := Option.some.inj hdir
  have hfirst : backupName 0 d.made = firstCopy := by decide +kernel
  have hnames : sorted = ["a.json", firstCopy, "zz.json"] := by
    have hordered : ["a.json", firstCopy, "zz.json"].Pairwise (· < ·) := by decide +kernel
    refine hsorted.eq_of_mem_iff hordered fun name => ?_
    rw [hmem, FileTree.imageAt_crowded, hfirst]
    simp only [List.mem_cons, List.not_mem_nil, or_false]
    exact or_assoc.trans (or_congr_right or_comm)
  rw [hnames] at hleft
  exact hleft

end DiceScript
