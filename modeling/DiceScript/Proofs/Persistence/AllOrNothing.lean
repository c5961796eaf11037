import DiceScript.Proofs.Files.Growth

/-!
# All or nothing

A save makes the directories of a path, writes the image next to the path and moves it there, and each
of the three steps can fail. If all succeed, the image is at the path and nothing is left next to it. If
one fails, what was at the path still is, and at most the file next to it was written. Either way no
other file is touched, and a directory that is new lies on the way to the path.

This rests on where the file is written in between: that is never the place of the path, whatever its
name. The extension that it is given has a dot in it, and an extension that a name ends in has none.

- `KeptAlong`, `Kept` — a place is as it was, or a directory was made there on the way to a path.
- `makeDirectories_of_locate?` — where a path leads to a place, no directory has to be made.
- `locate?_stagingPath_ne` — the file is never written at the place of the path itself.
- `Replaced`, `Abandoned` — what a save leaves when it succeeds, and when it fails.
- `saves_all_or_nothing` — every save leaves one of the two.
-/

namespace DiceScript

open Files

namespace Files.FileTree

variable {t u v : FileTree} {p q r : Place} {path : String} {parts : List String}

/-! ## Directories that are made -/

/-- A place is as it was, or a directory was made there that the first of some parts lead to. -/
def KeptAlong (p : Place) (parts : List String) (t u : FileTree) (r : Place) : Prop :=
  u.find? r = t.find? r ∨
    t.find? r = none ∧ u.find? r = some .directory ∧
      ∃ before, before <+: parts ∧ u.follow? p before = some r

theorem KeptAlong.isDirectoryAt (h : KeptAlong p parts t u r) (hdir : t.isDirectoryAt r = true) :
    u.isDirectoryAt r = true := by
  rcases h with hsame | ⟨-, hmade, -⟩
  · rw [FileTree.isDirectoryAt, hsame]
    exact hdir
  · rw [FileTree.isDirectoryAt, hmade]
    rfl

/-- Places are kept by a change that leaves them and the directories as they are. -/
theorem KeptAlong.trans (h : KeptAlong p parts t u r) (hsame : SameDirectories u v)
    (hfind : v.find? r = u.find? r) : KeptAlong p parts t v r := by
  rcases h with hkept | ⟨hnone, hmade, before, hbefore, hr⟩
  · exact .inl (hfind.trans hkept)
  · exact .inr ⟨hnone, hfind.trans hmade, before, hbefore, (hsame.follow? p before).trans hr⟩

theorem rooted_start (t : FileTree) (path : String) : t.Rooted (t.start path) := by
  obtain ⟨front, last, h⟩ := Path.exists_splits path
  rw [start_eq h]
  exact t.rooted_origin front

theorem isDirectoryAt_start (t : FileTree) (path : String) :
    t.isDirectoryAt (t.start path) = true := by
  have habove : t.isAbove (t.start path) = true := by
    unfold start isAbove
    split
    · exact List.isPrefixOf_iff_prefix.mpr List.nil_prefix
    · exact List.isPrefixOf_iff_prefix.mpr (List.prefix_refl _)
  simp [isDirectoryAt, find?, habove]

theorem Rooted.insert_directory (h : t.Rooted q) (hnone : t.find? q = none) :
    (t.insert q .directory).Rooted q := by
  have hdir : t.isDirectoryAt q = false := by simp [isDirectoryAt, hnone]
  intro r hr hne
  rw [isDirectoryAt, find?_insert _ _ _ _ (isAbove_of_isDirectoryAt hdir), if_neg hne]
  exact h r hr hne

/-- Making directories either stops at a part, or goes on from the place it leads to, which is a
directory or becomes one. -/
theorem makeFrom_cons_cases (hrooted : t.Rooted p) (hdir : t.isDirectoryAt p = true) (part : String)
    (rest : List String) :
    (t.makeFrom p (part :: rest)).2 = t ∨
      ∃ q, t.follow? p [part] = some q ∧
        (t.isDirectoryAt q = true ∧ t.makeFrom p (part :: rest) = t.makeFrom q rest ∨
          t.find? q = none ∧
            t.makeFrom p (part :: rest) = (t.insert q .directory).makeFrom q rest) := by
  rw [follow?, makeFrom, if_pos hdir]
  split
  · exact .inr ⟨p, rfl, .inl ⟨hdir, rfl⟩⟩
  split
  · exact .inr ⟨p.dropLast, rfl, .inl ⟨hrooted.dropLast hdir, rfl⟩⟩
  split
  · split
    · rename_i hfound
      exact .inr ⟨p ++ [part], rfl, .inl ⟨by simp [isDirectoryAt, hfound], rfl⟩⟩
    · exact .inl rfl
    · rename_i hnone
      exact .inr ⟨p ++ [part], rfl, .inr ⟨hnone, rfl⟩⟩
  · exact .inl rfl

/-- Places are kept along a part and the rest when it leads on to a directory, which may have been
made, and they are kept along the rest from there. -/
theorem keptAlong_cons {part : String} (hdir : t.isDirectoryAt p = true)
    (hq : t.follow? p [part] = some q) (hqdir : u.isDirectoryAt q = true)
    (hu : ∀ r, u.find? r = t.find? r ∨ r = q ∧ t.find? r = none)
    (h : ∀ r, KeptAlong q parts u v r) (r : Place) : KeptAlong p (part :: parts) t v r := by
  have hupdir : u.isDirectoryAt p = true := by
    rw [isDirectoryAt, beq_iff_eq] at hdir ⊢
    rcases hu p with hsame | ⟨-, hnone⟩
    · rw [hsame, hdir]
    · simp [hdir] at hnone
  have hfollow : ∀ before, v.follow? p (part :: before) = v.follow? q before := by
    intro before
    have hstep : v.follow? p [part] = t.follow? p [part] := by
      simp only [follow?, hdir, (h p).isDirectoryAt hupdir]
    rw [← List.singleton_append, follow?_append, hstep, hq, Option.bind_some]
  rcases h r with hkept | ⟨hnone, hmade, before, hbefore, hr⟩
  · rcases hu r with hsame | ⟨rfl, hnone⟩
    · exact .inl (hkept.trans hsame)
    · refine .inr ⟨hnone, ?_, [part], by simp, hfollow []⟩
      rw [hkept]
      exact beq_iff_eq.mp hqdir
  · refine .inr ⟨?_, hmade, part :: before, ?_, (hfollow before).trans hr⟩
    · rcases hu r with hsame | ⟨-, hnone⟩
      · rw [← hsame, hnone]
      · exact hnone
    · exact List.cons_prefix_cons.mpr ⟨rfl, hbefore⟩

/-- Nothing is replaced when directories are made, and those that are new are on the way. -/
theorem keptAlong_makeFrom (hrooted : t.Rooted p) (hdir : t.isDirectoryAt p = true) (r : Place) :
    KeptAlong p parts t (t.makeFrom p parts).2 r := by
  induction parts generalizing t p r with
  | nil => exact .inl rfl
  | cons part rest ih =>
    rcases makeFrom_cons_cases hrooted hdir part rest with hstop | ⟨q, hq, hgo⟩
    · exact .inl (by rw [hstop])
    have hqrooted : t.Rooted q := hrooted.follow? hq
    rcases hgo with ⟨hqdir, hmake⟩ | ⟨hnone, hmake⟩
    · rw [hmake]
      exact keptAlong_cons hdir hq hqdir (fun _ => .inl rfl) (ih hqrooted hqdir) r
    · have hnodir : t.isDirectoryAt q = false := by simp [isDirectoryAt, hnone]
      have hinsert := fun s => find?_insert t q .directory s (isAbove_of_isDirectoryAt hnodir)
      have hqdir : (t.insert q .directory).isDirectoryAt q = true := by
        rw [isDirectoryAt, hinsert, if_pos rfl]
        rfl
      rw [hmake]
      refine keptAlong_cons hdir hq hqdir (fun s => ?_)
        (ih (hqrooted.insert_directory hnone) hqdir) r
      rw [hinsert]
      by_cases hs : s = q
      · exact .inr ⟨hs, hs ▸ hnone⟩
      · exact .inl (if_neg hs)

theorem keptAlong_makeDirectories (t : FileTree) (path : String) (r : Place) :
    KeptAlong (t.start path) (Path.parts path) t (t.makeDirectories path).2 r := by
  unfold makeDirectories
  split_ifs
  · exact .inl rfl
  · exact keptAlong_makeFrom (t.rooted_start path) (t.isDirectoryAt_start path) r
  · exact .inl rfl

/-- Where a path leads to a place, its directory is there and none has to be made. -/
theorem makeDirectories_of_locate? (h : t.locate? path = some q) :
    (t.makeDirectories (Path.directory path)).2 = t := by
  have hmake : ∀ dir, (t.makeFrom (t.start dir) (Path.parts dir)).2 = t →
      (t.makeDirectories dir).2 = t := by
    intro dir hdir
    unfold makeDirectories
    split_ifs
    · rfl
    · exact hdir
    · rfl
  apply hmake
  rcases Path.directory_cases path with hdir | hdir | ⟨above, rest, hne, hdir, htext⟩
  · rw [hdir]
    rfl
  · rw [hdir]
    rfl
  · unfold locate? at h
    split at h
    · have hparts : Path.parts path = Path.parts (Path.directory path) ++
          (Path.splitSlashes rest).map String.ofList := by
        rw [Path.parts, Path.parts, hdir, String.toList_ofList, htext,
          Path.splitSlashes_append_slash, List.map_append]
      have hstart : t.start (Path.directory path) = t.start path := by
        unfold start Path.isAbsolute
        rw [hdir, String.toList_ofList, htext, List.head?_append_of_ne_nil _ hne]
      obtain ⟨part, parts, hrest⟩ := List.exists_cons_of_ne_nil (Path.splitSlashes_ne_nil rest)
      rw [hparts, follow?_append, hrest, List.map_cons] at h
      obtain ⟨p, hp, hq⟩ := Option.bind_eq_some_iff.mp h
      have hfrom := makeFrom_append hp (follow?_cons_cases hq).1 []
      rw [List.append_nil] at hfrom
      rw [hstart, hfrom]
      rfl
    · cases h

end Files.FileTree

/-! ## The place next to a path -/

namespace FileMedium

variable {path : String} {t u v : FileTree} {p q r : Place} {text : String}

/-- A file is never written at the place of the path that it is to be moved to. -/
theorem locate?_stagingPath_ne (hp : t.locate? (stagingPath path) = some p)
    (hdir : t.isDirectoryAt p = false) : t.locate? path ≠ some p := by
  intro hq
  obtain ⟨front, last, hsplits⟩ := Files.Path.exists_splits path
  obtain ⟨above, habove, hname, hlast⟩ := FileTree.exists_leads_of_file hsplits hq hdir
  have hstaging := hsplits.withExtension hname (show '/' ∉ "json.tmp".toList by decide)
  obtain ⟨above', habove', -, hlast'⟩ := FileTree.exists_leads_of_file hstaging hp hdir
  -- Both lie in one directory, so the names would have to be equal.
  obtain rfl := habove.unique habove'
  have hnames := List.append_cancel_left (hlast'.symm.trans hlast)
  have hsame := String.ofList_injective (List.cons.inj hnames).1
  exact Files.Path.extended_ne hname (by decide) hsame

theorem stagingPath_ne (hname : (Files.Path.splitName? path).isSome = true) :
    stagingPath path ≠ path := by
  obtain ⟨⟨front, name⟩, hsplit⟩ := Option.isSome_iff_exists.mp hname
  exact Files.Path.withExtension_ne hsplit (by decide) (by decide)

/-! ## What a save leaves -/

/-- A place is as it was, or a missing directory on the way to a path was made there. -/
def Kept (path : String) (t u : FileTree) (r : Place) : Prop :=
  FileTree.KeptAlong (t.start (Files.Path.directory path))
    (Files.Path.parts (Files.Path.directory path)) t u r

/-- A text is at a path, nothing is next to it, and everything else is as it was. -/
structure Replaced (path text : String) (t u : FileTree) : Prop where
  place : u.lookup? path = some (.file (.text text))
  staging : u.lookup? (stagingPath path) = none
  others : ∀ r, u.locate? path ≠ some r → u.locate? (stagingPath path) ≠ some r → Kept path t u r

/-- What was at a path still is, and everything else is as it was, unless the text was left next to
the path. -/
structure Abandoned (path text : String) (t u : FileTree) : Prop where
  /-- Where the path led before, it leads to the same. -/
  same : t.locate? path ≠ none → u.lookup? path = t.lookup? path
  /-- Where it leads now, nothing was replaced. -/
  place : ∀ r, u.locate? path = some r → Kept path t u r
  others : ∀ r, u.locate? (stagingPath path) = some r ∧ u.find? r = some (.file (.text text)) ∨
    Kept path t u r

theorem kept_makeDirectories (path : String) (t : FileTree) (r : Place) :
    Kept path t (t.makeDirectories (Files.Path.directory path)).2 r :=
  t.keptAlong_makeDirectories (Files.Path.directory path) r

/-- Before anything is written, at most directories were made. -/
theorem abandoned_of_made (text : String)
    (hu : (t.makeDirectories (Files.Path.directory path)).2 = u) : Abandoned path text t u := by
  subst hu
  refine ⟨?_, fun r _ => kept_makeDirectories path t r, fun r => .inr (kept_makeDirectories path t r)⟩
  intro hlocated
  obtain ⟨q, hq⟩ := Option.ne_none_iff_exists'.mp hlocated
  rw [FileTree.makeDirectories_of_locate? hq]

/-- A file that was written but could not be moved is left next to the path. -/
theorem abandoned_of_written (hu : (t.makeDirectories (Files.Path.directory path)).2 = u)
    (hwrite : u.write (stagingPath path) (.text text) = .ok v) : Abandoned path text t v := by
  obtain ⟨p, hp, hdir, hv⟩ := FileTree.write_cases hwrite
  have hsame := FileTree.sameDirectories_write hwrite
  have hfind := fun r =>
    u.find?_insert p (.file (.text text)) r (FileTree.isAbove_of_isDirectoryAt hdir)
  rw [← hv] at hfind
  have hkept : ∀ r, r ≠ p → Kept path t v r := by
    intro r hr
    refine FileTree.KeptAlong.trans (hu ▸ kept_makeDirectories path t r) hsame ?_
    rw [hfind, if_neg hr]
  have hapart : u.locate? path ≠ some p := locate?_stagingPath_ne hp hdir
  refine ⟨?_, ?_, ?_⟩
  · intro hlocated
    rw [← (abandoned_of_made text hu).same hlocated, FileTree.lookup?, FileTree.lookup?,
      hsame.locate?]
    refine Option.bind_congr fun r hr => ?_
    rw [hfind, if_neg]
    rintro rfl
    exact hapart hr
  · intro r hr
    apply hkept
    rintro rfl
    exact hapart ((hsame.locate? path).symm.trans hr)
  · intro r
    by_cases hr : r = p
    · subst hr
      exact .inl ⟨(hsame.locate? _).trans hp, by rw [hfind, if_pos rfl]⟩
    · exact .inr (hkept r hr)

theorem replaced_of_moved (hu : (t.makeDirectories (Files.Path.directory path)).2 = u)
    (hwrite : u.write (stagingPath path) (.text text) = .ok v) {w : FileTree}
    (hrename : v.rename (stagingPath path) path = .ok w) : Replaced path text t w := by
  obtain ⟨p, q, hp, hpdir, hq, -, hsame, hfind⟩ := FileTree.replace_cases hwrite hrename
  have hne : p ≠ q := by
    rintro rfl
    exact locate?_stagingPath_ne hp hpdir hq
  refine ⟨FileTree.lookup?_replace hwrite hrename, ?_, ?_⟩
  · rw [FileTree.lookup?, hsame.locate?, hp, Option.bind_some, hfind, if_neg hne, if_pos rfl]
  · intro r hrq hrp
    rw [hsame.locate?, hq] at hrq
    rw [hsame.locate?, hp] at hrp
    refine FileTree.KeptAlong.trans (hu ▸ kept_makeDirectories path t r) hsame ?_
    rw [hfind, if_neg fun h => hrq (congrArg some h.symm), if_neg fun h => hrp (congrArg some h.symm)]

/-- What a save leaves is told by what it returns. -/
theorem writeImage_replaces_or_abandons (path : String) (i : Image) (t : FileTree) :
    (∃ u, (writeImage path i : StateM FileTree _).run t = (.ok (), u) ∧
        Replaced path i.toJson.pretty t u) ∨
      ∃ step why u, (writeImage path i : StateM FileTree _).run t = (.error (.failed step why), u) ∧
        Abandoned path i.toJson.pretty t u := by
  rw [run_writeImage]
  cases hmake : t.makeDirectories (Files.Path.directory path) with
  | mk made u =>
    have hu : (t.makeDirectories (Files.Path.directory path)).2 = u := by rw [hmake]
    have hmade := abandoned_of_made i.toJson.pretty hu
    cases made with
    | error why => exact .inr ⟨_, _, _, rfl, hmade⟩
    | ok _ =>
      dsimp only
      cases hwrite : u.write (stagingPath path) (.text i.toJson.pretty) with
      | error why => exact .inr ⟨_, _, _, rfl, hmade⟩
      | ok v =>
        dsimp only
        cases hrename : v.rename (stagingPath path) path with
        | error why => exact .inr ⟨_, _, _, rfl, abandoned_of_written hu hwrite⟩
        | ok w => exact .inl ⟨_, rfl, replaced_of_moved hu hwrite hrename⟩

/-- An image cannot be put at a path that has no name. -/
theorem run_writeImage_of_nameless (hname : Files.Path.splitName? path = none) (i : Image)
    (u : FileTree) : (writeImage path i : StateM FileTree _).run t ≠ (.ok (), u) := by
  intro h
  have hstaging : stagingPath path = path := by
    unfold stagingPath Files.Path.withExtension
    rw [hname]
  obtain ⟨t', v, -, hwrite, -⟩ := writeImage_cases h
  obtain ⟨p, hp, hdir, -⟩ := FileTree.write_cases hwrite
  exact locate?_stagingPath_ne hp hdir (hstaging ▸ hp)

end FileMedium

/-- A save either succeeds, and then the printed image is at the path, nothing is next to it and no
other file has changed, or it fails with a storage error, and then no file has changed but the one next
to the path. That one is never at the place of the path, and its path is another one unless the path
has no name, to which nothing can be saved. -/
theorem FileMedium.saves_all_or_nothing (d : FileMedium) (i : Image) {t u : FileTree}
    {result : Except StorageFault Unit}
    (h : (d.save i : StateM FileTree _).run t = (result, u)) :
    (result = .ok () ∧ Replaced d.path i.toJson.pretty t u ∨
      ∃ fault, result = .error fault ∧ fault.failure.kind = .storageError ∧
        Abandoned d.path i.toJson.pretty t u) ∧
    (∀ (v : FileTree) (p : Place), v.locate? (stagingPath d.path) = some p →
      v.isDirectoryAt p = false → v.locate? d.path ≠ some p) ∧
    ((Files.Path.splitName? d.path).isSome = true → stagingPath d.path ≠ d.path) ∧
    (Files.Path.splitName? d.path = none → result ≠ .ok ()) := by
  unfold save at h
  refine ⟨?_, fun v p hp hdir => locate?_stagingPath_ne hp hdir, stagingPath_ne, ?_⟩
  · rcases writeImage_replaces_or_abandons d.path i t with
      ⟨v, hrun, hreplaced⟩ | ⟨step, why, v, hrun, habandoned⟩
    · obtain ⟨rfl, rfl⟩ := Prod.mk.inj (hrun.symm.trans h)
      exact .inl ⟨rfl, hreplaced⟩
    · obtain ⟨rfl, rfl⟩ := Prod.mk.inj (hrun.symm.trans h)
      exact .inr ⟨_, rfl, rfl, habandoned⟩
  · rintro hname rfl
    exact run_writeImage_of_nameless hname i u h

def Files.FileTree.taken : FileTree := { entries := [(["store.json.tmp"], .directory)] }

/-- A path that ends in the extension of the files that are written next to paths is saved to like any
other; a directory at a path is not replaced, and the image stays next to it. -/
theorem FileMedium.saves_all_or_nothing_extension :
    let d := FileMedium.ofPath "store.json.tmp"
    let i : Image := ⟨Image.currentSchema, {}⟩
    (∃ u, (d.save i : StateM FileTree _).run {} = (.ok (), u) ∧
        Replaced d.path i.toJson.pretty {} u ∧ stagingPath d.path ≠ d.path) ∧
      ∃ why u, (d.save i : StateM FileTree _).run .taken = (.error (.failed .replace why), u) ∧
        Abandoned d.path i.toJson.pretty .taken u := by
  intro d i
  have hsaved : ∃ u, (writeImage "store.json.tmp" i : StateM FileTree _).run {} = (.ok (), u) := by
    rw [run_writeImage]
    generalize i.toJson.pretty = text
    have hmake : ({} : FileTree).makeDirectories (Files.Path.directory "store.json.tmp") =
        (.ok (), {}) := rfl
    have hwrite : ({} : FileTree).write (stagingPath "store.json.tmp") (.text text) =
        .ok { entries := [(["store.json.json.tmp"], .file (.text text))] } := rfl
    rw [hmake]
    dsimp only
    rw [hwrite]
    exact ⟨_, rfl⟩
  have hfailed : ∃ why u, (writeImage "store.json.tmp" i : StateM FileTree _).run .taken =
      (.error (.failed .replace why), u) := by
    rw [run_writeImage]
    generalize i.toJson.pretty = text
    have hmake : FileTree.taken.makeDirectories (Files.Path.directory "store.json.tmp") =
        (.ok (), .taken) := rfl
    have hwrite : FileTree.taken.write (stagingPath "store.json.tmp") (.text text) =
        .ok { entries := (["store.json.json.tmp"], .file (.text text)) ::
          FileTree.taken.entries } := rfl
    rw [hmake]
    dsimp only
    rw [hwrite]
    exact ⟨_, _, rfl⟩
  obtain ⟨u, hu⟩ := hsaved
  obtain ⟨why, v, hv⟩ := hfailed
  have hreplaced := FileMedium.saves_all_or_nothing d i hu
  have habandoned := FileMedium.saves_all_or_nothing d i hv
  refine ⟨⟨u, hu, ?_, hreplaced.2.2.1 (by decide)⟩, why, v, hv, ?_⟩
  · rcases hreplaced.1 with ⟨-, hdone⟩ | ⟨fault, hfault, -⟩
    · exact hdone
    · cases hfault
  · rcases habandoned.1 with ⟨hok, -⟩ | ⟨fault, -, -, hkept⟩
    · cases hok
    · exact hkept

end DiceScript
