import DiceScript.Proofs.Files.Growth

/-!
# Saving again and again

A path that takes one image takes every further one: a save leaves its directories, its place and the
place next to it as they have to be, and copies go into a directory of their own, which lies next to
the image and is neither of these places. Nothing that is done to the copies reaches further than that
directory.

- `Accepts` — an image can be put at a path.
- `Ready` — what a path has to be like for that.
- `grows_backup` — what a copy leaves as it is.
- `Ready.backup` — a path is as ready after a copy as before, and its image is still there.
-/

open DiceScript.Files.Path (IsName Splits)

namespace DiceScript

open Files

namespace FileMedium

open FileTree (Grows Leads)

variable {path : String} {i : Image} {t u : FileTree}

/-! ## Saving -/

/-- Any image can be put at a path. -/
def Accepts (path : String) (t : FileTree) : Prop :=
  ∀ i : Image, ∃ u, (writeImage path i : StateM FileTree _).run t = (.ok (), u)

/-- The directories of a path are there, and neither its place nor the one next to it is one. -/
structure Ready (path : String) (t : FileTree) : Prop where
  directories : t.makeDirectories (Files.Path.directory path) = (.ok (), t)
  staging : ∃ p, t.locate? (stagingPath path) = some p ∧ t.isDirectoryAt p = false
  place : ∃ q, t.locate? path = some q ∧ t.isDirectoryAt q = false

theorem Ready.accepts (h : Ready path t) : Accepts path t := by
  intro i
  obtain ⟨p, hp, hpdir⟩ := h.staging
  obtain ⟨q, hq, hqdir⟩ := h.place
  have hwrite := FileTree.write_eq (c := .text i.toJson.pretty) hp hpdir
  have hsame := FileTree.sameDirectories_write hwrite
  have hfind := FileTree.find?_insert t p (.file (.text i.toJson.pretty)) p
    (FileTree.isAbove_of_isDirectoryAt hpdir)
  rw [if_pos rfl] at hfind
  have hrename := FileTree.rename_eq ((hsame.locate? _).trans hp) ((hsame.locate? _).trans hq) hfind
    ((hsame.directories q).trans hqdir)
  rw [run_writeImage, h.directories]
  dsimp only
  rw [hwrite]
  dsimp only
  rw [hrename]
  exact ⟨_, rfl⟩

/-- After one image was put at a path, it is ready for the next. -/
theorem ready_of_writeImage (h : (writeImage path i : StateM FileTree _).run t = (.ok (), u)) :
    Ready path u := by
  obtain ⟨t', v, hmake, hwrite, hrename⟩ := writeImage_cases h
  have hgrows : Grows (fun _ => False) t' u :=
    (Grows.write hwrite fun _ _ _ h => h).trans
      (Grows.rename hrename (fun _ _ _ h => h) fun _ _ _ h => h)
  have hhere : t.here = t'.here := by
    have hsettled := (t.grows_makeDirectories (Files.Path.directory path)).here
    rw [hmake] at hsettled
    exact hsettled.symm
  have hsame := FileTree.sameDirectories_write hwrite
  have hsame' := FileTree.sameDirectories_rename hrename
  obtain ⟨p, hp, hpdir, -⟩ := FileTree.write_cases hwrite
  obtain ⟨-, q, -, -, hq, -, hqdir, -⟩ := FileTree.rename_cases hrename
  refine ⟨FileTree.makeDirectories_settled hmake hhere hgrows, ⟨p, ?_, ?_⟩, ⟨q, ?_, ?_⟩⟩
  · rw [hsame'.locate?, hsame.locate?, hp]
  · rw [hsame'.directories, hsame.directories, hpdir]
  · rw [hsame'.locate?, hq]
  · rw [hsame'.directories, hqdir]

/-! ## Changes that stay clear of places -/

section Grows

variable {fixed : Place → Prop}

theorem grows_writeImage (hmake : Grows fixed t (t.makeDirectories (Files.Path.directory path)).2)
    (hstaging : ∀ u, Grows fixed t u → u.Clear fixed (stagingPath path))
    (hpath : ∀ u, Grows fixed t u → u.Clear fixed path) :
    Grows fixed t ((writeImage path i : StateM FileTree _).run t).2 := by
  rw [run_writeImage]
  generalize t.makeDirectories (Files.Path.directory path) = r at hmake ⊢
  obtain ⟨made, u⟩ := r
  cases made with
  | error why => exact hmake
  | ok _ =>
    dsimp only
    split
    · exact hmake
    · rename_i v hwrite
      have hv : Grows fixed t v := hmake.trans (Grows.write hwrite (hstaging u hmake))
      split
      · exact hv
      · rename_i w hrename
        exact hv.trans (Grows.rename hrename (hstaging v hv) (hpath v hv))

theorem grows_removeAll {dir : String} {names : List String}
    (hclear : ∀ name ∈ names, ∀ u, Grows fixed t u → u.Clear fixed (Files.Path.join dir name)) :
    Grows fixed t ((removeAll dir names : StateM FileTree _).run t).2 := by
  induction names generalizing t with
  | nil => exact .refl _ t
  | cons name names ih =>
    have hremove : (Disk.remove (Files.Path.join dir name) : StateM FileTree _).run t = _ :=
      run_changing (·.remove (Files.Path.join dir name)) t
    unfold removeAll
    rw [StateT.run_bind, hremove]
    have hrest : ∀ v, Grows fixed t v →
        Grows fixed t ((removeAll dir names : StateM FileTree _).run v).2 := by
      intro v hv
      exact hv.trans (ih fun other hother w hw =>
        hclear other (List.mem_cons_of_mem _ hother) w (hv.trans hw))
    cases hv : t.remove (Files.Path.join dir name) with
    | error why => exact hrest t (.refl _ t)
    | ok v => exact hrest v (Grows.remove hv (hclear name List.mem_cons_self t (.refl _ t)))

theorem grows_prune {d : FileMedium}
    (hclear : ∀ names, t.list d.backupDir = .ok names → ∀ name ∈ names, ∀ u, Grows fixed t u →
      u.Clear fixed (Files.Path.join d.backupDir name)) :
    Grows fixed t ((prune d : StateM FileTree _).run t).2 := by
  have hlist : (Disk.list d.backupDir : StateM FileTree _).run t = (t.list d.backupDir, t) := rfl
  unfold prune
  rw [StateT.run_bind, hlist]
  cases hnames : t.list d.backupDir with
  | error why => exact .refl _ t
  | ok names =>
    show Grows fixed t
      ((removeAll d.backupDir ((imageNames names).take _) : StateM FileTree _).run t).2
    refine grows_removeAll fun name hname => hclear names hnames name ?_
    have hname := List.mem_of_mem_take hname
    unfold imageNames at hname
    exact List.mem_of_mem_filter (List.mem_mergeSort.mp hname)

end Grows

/-- An image that is put at a path is found there, and the next one can be put there, too. -/
theorem Accepts.save (h : Accepts path t) (hnamed : t.WellNamed) (i : Image) :
    ∃ u, (writeImage path i : StateM FileTree _).run t = (.ok (), u) ∧ Ready path u ∧ u.WellNamed ∧
      u.lookup? path = some (.file (.text i.toJson.pretty)) := by
  obtain ⟨u, hu⟩ := h i
  have hgrows : Grows (fun _ => False) t ((writeImage path i : StateM FileTree _).run t).2 :=
    grows_writeImage ((t.grows_makeDirectories _).weaken fun _ h => h.elim) (fun _ _ _ _ _ h => h)
      fun _ _ _ _ _ h => h
  rw [hu] at hgrows
  exact ⟨u, hu, ready_of_writeImage hu, hgrows.named hnamed, lookup?_writeImage hu⟩

/-! ## Copies -/

theorem notMem_padded (width n : Nat) : '/' ∉ (padded width n).toList := by
  unfold padded
  rw [String.toList_ofList]
  intro hmem
  rcases List.mem_append.mp hmem with hzero | hdigit
  · cases List.eq_of_mem_replicate hzero
  · have := Nat.isDigit_of_mem_toDigits (by decide) (by decide) hdigit
    exact absurd this (by decide)

theorem isName_backupName (now number : Nat) : IsName (backupName now number).toList := by
  unfold backupName
  rw [String.toList_append]
  refine IsName.append ?_ (by decide) (by decide)
  simp [notMem_padded]

/-- A copy makes at most the directory that the copies go into, and changes only what lies directly
in it. -/
theorem grows_backup {d : FileMedium} {front last : List Char} {p : Place}
    (hbase : Splits d.backupDir front last) (hlast : IsName last) (hp : t.Leads front p)
    (hnamed : t.WellNamed) (now : Nat) (i : Image) :
    Grows (fun r => r.length ≤ p.length + 1 ∧ (r = p ++ [String.ofList last] → t.find? r ≠ none)) t
      ((d.backup now i : StateM FileTree _).run t).2 := by
  generalize hfixed :
    (fun r : Place => r.length ≤ p.length + 1 ∧ (r = p ++ [String.ofList last] → t.find? r ≠ none)) =
      fixed
  have hname := isName_backupName now d.made
  have htarget := hbase.join hlast hname.slash
  have hclear : ∀ {path : String} {name : List Char}, Splits path (d.backupDir.toList ++ ['/']) name →
      ∀ u, Grows fixed t u → u.Clear fixed path := by
    intro path name hpath u hu r hr hfile hr'
    rw [← hfixed] at hr'
    exact FileTree.clear_inside hbase hlast (hu.leads hp) hpath r hr hfile hr'.1
  have hmake : Grows fixed t (t.makeDirectories d.backupDir).2 := by
    have hgrows := t.grows_makeDirectories d.backupDir
    refine ⟨hgrows.here, hgrows.directories, ?_, hgrows.named⟩
    intro r hr
    rw [← hfixed] at hr
    rcases FileTree.makeDirectories_cases hbase hlast hp with heq | ⟨hnone, heq⟩
    · rw [heq]
    · have hdir : t.isDirectoryAt (p ++ [String.ofList last]) = false := by
        simp [FileTree.isDirectoryAt, hnone]
      rw [heq, FileTree.find?_insert _ _ _ _ (FileTree.isAbove_of_isDirectoryAt hdir), if_neg]
      rintro rfl
      exact hr.2 rfl hnone
  have hwrite : Grows fixed t ((writeImage (Files.Path.join d.backupDir (backupName now d.made)) i :
      StateM FileTree _).run t).2 := by
    refine grows_writeImage ?_ (hclear (htarget.withExtension hname (by decide))) (hclear htarget)
    rw [Files.Path.directory_join hbase hlast hname]
    exact hmake
  unfold backup
  dsimp only
  rw [StateT.run_bind]
  generalize (writeImage (Files.Path.join d.backupDir (backupName now d.made)) i :
    StateM FileTree _).run t = r at hwrite ⊢
  obtain ⟨result, u⟩ := r
  cases result with
  | error fault => exact hwrite
  | ok _ =>
    refine hwrite.trans (grows_prune (d := { d with made := d.made + 1 }) ?_)
    intro names hnames other hother v hv
    obtain ⟨q, e, hentry, hmem⟩ := FileTree.exists_entry_of_mem_list hnames hother
    have hslash := ((hwrite.named hnamed).entries q e hentry other hmem).slash
    exact hclear (hbase.join hlast hslash) v (hwrite.trans hv)

/-! ## Copies of an image that is there -/

/-- Where the copies of a path go lies next to its place and to the place next to it. -/
theorem Ready.exists_seat (h : Ready path t) :
    ∃ front last p x y, Splits (Files.Path.withExtension path "backups") front last ∧ IsName last ∧
      t.Leads front p ∧ t.locate? (stagingPath path) = some (p ++ [x]) ∧ x ≠ String.ofList last ∧
      t.locate? path = some (p ++ [y]) := by
  obtain ⟨front, name, hpath⟩ := Files.Path.exists_splits path
  obtain ⟨q, hq, hqdir⟩ := h.place
  obtain ⟨p, hp, hname, rfl⟩ := FileTree.exists_leads_of_file hpath hq hqdir
  obtain ⟨r, hr, hrdir⟩ := h.staging
  have hstaging := hpath.withExtension hname (show '/' ∉ "json.tmp".toList by decide)
  obtain ⟨p', hp', hname', rfl⟩ := FileTree.exists_leads_of_file hstaging hr hrdir
  obtain rfl := hp'.unique hp
  -- The name has something in front of its extension, or the place next to it would be a directory.
  have hstem : (Files.Path.splitExtension name).1 ≠ ['.'] := by
    intro hdot
    apply hname'.up
    rw [Files.Path.extended, if_pos hdot]
  have hslash := Files.Path.notMem_splitExtension hpath.last
  have hbackups := hpath.withExtension hname (show '/' ∉ "backups".toList by decide)
  refine ⟨front, _, p', _, _, hbackups, ?_, hp, hr, ?_, hq⟩
  · rw [Files.Path.extended, if_neg hstem]
    exact IsName.append hslash (by decide) (by decide)
  · rw [Files.Path.extended, Files.Path.extended, if_neg hstem, if_neg hstem]
    intro heq
    have := List.append_cancel_left (String.ofList_injective heq)
    exact absurd this (by decide)

/-- A copy leaves a path as ready as it was, and the image at it where it is. -/
theorem Ready.backup (h : Ready path t) (hnamed : t.WellNamed) {c : Content}
    (hfile : t.lookup? path = some (.file c)) {d : FileMedium}
    (hdir : d.backupDir = Files.Path.withExtension path "backups") (now : Nat) (i : Image) :
    let u := ((d.backup now i : StateM FileTree _).run t).2
    Ready path u ∧ u.WellNamed ∧ u.lookup? path = some (.file c) := by
  obtain ⟨front, last, p, x, y, hbase, hlast, hp, hx, hne, hy⟩ := h.exists_seat
  have hgrows := grows_backup (hdir ▸ hbase) hlast hp hnamed now i
  have hfound : t.find? (p ++ [y]) = some (.file c) := by
    rw [← hfile, FileTree.lookup?, hy, Option.bind_some]
  have hxfixed := hgrows.fixed (p ++ [x]) ⟨by simp, by simp [hne]⟩
  have hyfixed := hgrows.fixed (p ++ [y]) ⟨by simp, by simp [hfound]⟩
  generalize ((d.backup now i : StateM FileTree _).run t).2 = u at *
  have hlookup : u.lookup? path = some (.file c) := by
    rw [FileTree.lookup?, hgrows.locate? hy, Option.bind_some, hyfixed, hfound]
  obtain ⟨r, hr, hrdir⟩ := h.staging
  obtain rfl := Option.some.inj (hr.symm.trans hx)
  refine ⟨⟨?_, ⟨_, hgrows.locate? hx, ?_⟩, ⟨_, hgrows.locate? hy, ?_⟩⟩, hgrows.named hnamed, hlookup⟩
  · exact FileTree.makeDirectories_settled h.directories rfl hgrows
  · rw [FileTree.isDirectoryAt, hxfixed]
    exact hrdir
  · rw [FileTree.isDirectoryAt, hyfixed, hfound]
    rfl

end FileMedium

end DiceScript
