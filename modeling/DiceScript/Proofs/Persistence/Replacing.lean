import DiceScript.Files.Tree
import DiceScript.Medium
import Mathlib.Tactic

/-!
# Replacing a file

An image is written next to its place and moved there. Neither step makes or removes a directory, so
paths lead where they led before, and when both succeed the text is found at the path, whether the
file next to it lies at another place or not.

- `SameDirectories` — two trees in which paths lead to the same places.
- `replace_cases` — what a tree is like after a file was written and moved.
- `lookup?_writeImage` — so an image that was put at a path is there.
-/

namespace DiceScript

namespace Files.FileTree

variable {t u v : FileTree} {p q : Place} {c : Content}

/-! ## Directories -/

structure SameDirectories (t u : FileTree) : Prop where
  here : u.here = t.here
  directories : ∀ p, u.isDirectoryAt p = t.isDirectoryAt p

namespace SameDirectories

theorem refl (t : FileTree) : SameDirectories t t := ⟨rfl, fun _ => rfl⟩

theorem trans (h : SameDirectories t u) (h' : SameDirectories u v) : SameDirectories t v :=
  ⟨h'.here.trans h.here, fun p => (h'.directories p).trans (h.directories p)⟩

theorem follow? (h : SameDirectories t u) (p : Place) (parts : List String) :
    u.follow? p parts = t.follow? p parts := by
  induction parts generalizing p with
  | nil => rfl
  | cons part rest ih =>
    unfold FileTree.follow?
    rw [h.directories]
    simp only [ih]

/-- A path leads to the same place in both. -/
theorem locate? (h : SameDirectories t u) (path : String) : u.locate? path = t.locate? path := by
  unfold FileTree.locate? start
  rw [h.here, h.follow?]

end SameDirectories

theorem isAbove_of_isDirectoryAt (h : t.isDirectoryAt p = false) : t.isAbove p = false := by
  by_contra habove
  rw [Bool.not_eq_false] at habove
  simp [isDirectoryAt, find?, habove] at h

theorem sameDirectories_insert (h : t.isDirectoryAt p = false) :
    SameDirectories t (t.insert p (.file c)) := by
  refine ⟨rfl, fun r => ?_⟩
  rw [isDirectoryAt, find?_insert t p _ r (isAbove_of_isDirectoryAt h)]
  by_cases hr : r = p
  · subst hr
    rw [if_pos rfl, h]
    rfl
  · rw [if_neg hr]
    rfl

theorem sameDirectories_erase (h : t.isDirectoryAt p = false) : SameDirectories t (t.erase p) := by
  refine ⟨rfl, fun r => ?_⟩
  rw [isDirectoryAt, find?_erase t p r (isAbove_of_isDirectoryAt h)]
  by_cases hr : r = p
  · subst hr
    rw [if_pos rfl, h]
    rfl
  · rw [if_neg hr]
    rfl

/-! ## Writing and moving -/

theorem write_cases {path : String} (h : t.write path c = .ok u) :
    ∃ p, t.locate? path = some p ∧ t.isDirectoryAt p = false ∧ u = t.insert p (.file c) := by
  unfold write at h
  split at h
  · cases h
  · rename_i p hp
    split at h
    · cases h
    · rename_i hdir
      exact ⟨p, hp, by simpa using hdir, (Except.ok.inj h).symm⟩

theorem rename_cases {source target : String} (h : t.rename source target = .ok u) :
    ∃ p q c, t.locate? source = some p ∧ t.locate? target = some q ∧
      t.find? p = some (.file c) ∧ t.isDirectoryAt q = false ∧
      u = (t.erase p).insert q (.file c) := by
  unfold rename at h
  split at h
  · rename_i p q hp hq
    split at h
    · rename_i c hc
      split at h
      · cases h
      · rename_i hdir
        exact ⟨p, q, c, hp, hq, hc, by simpa using hdir, (Except.ok.inj h).symm⟩
    · cases h
  · cases h

/-- A file that was written and then moved is where it was moved to and no longer where it was
written, unless that is the same place, and nothing else has changed. -/
theorem replace_cases {staging path : String} (hwrite : t.write staging c = .ok u)
    (hrename : u.rename staging path = .ok v) :
    ∃ p q, t.locate? staging = some p ∧ t.isDirectoryAt p = false ∧
      t.locate? path = some q ∧ t.isDirectoryAt q = false ∧ SameDirectories t v ∧
      ∀ r, v.find? r = if r = q then some (.file c) else if r = p then none else t.find? r := by
  obtain ⟨p, hp, hdir, rfl⟩ := write_cases hwrite
  obtain ⟨p', q, c', hp', hq, hc', hqdir, rfl⟩ := rename_cases hrename
  have hwritten := fun r => find?_insert t p (.file c) r (isAbove_of_isDirectoryAt hdir)
  have hsame := sameDirectories_insert (c := c) hdir
  -- The move finds the file that was written, since its path leads to the same place as before.
  obtain rfl : p = p' := by
    rw [hsame.locate?, hp] at hp'
    exact Option.some.inj hp'
  obtain rfl : c = c' := by
    rw [hwritten, if_pos rfl] at hc'
    exact Entry.file.inj (Option.some.inj hc')
  -- The file is taken away before it is put in its new place, which may be the same one.
  have hfile := (hsame.directories p).trans hdir
  have herased := fun r => find?_erase (t.insert p (.file c)) p r (isAbove_of_isDirectoryAt hfile)
  have herase := sameDirectories_erase hfile
  have hqfile := (herase.directories q).trans hqdir
  refine ⟨p, q, hp, hdir, (hsame.locate? path).symm.trans hq,
    (hsame.directories q).symm.trans hqdir,
    (hsame.trans herase).trans (sameDirectories_insert hqfile), fun r => ?_⟩
  rw [find?_insert _ q _ r (isAbove_of_isDirectoryAt hqfile), herased, hwritten]
  split_ifs <;> rfl

/-- A file that was written and then moved is found where it was moved to. -/
theorem lookup?_replace {staging path : String} (hwrite : t.write staging c = .ok u)
    (hrename : u.rename staging path = .ok v) : v.lookup? path = some (.file c) := by
  obtain ⟨p, q, -, -, hq, -, hsame, hfind⟩ := replace_cases hwrite hrename
  rw [lookup?, hsame.locate?, hq, Option.bind_some, hfind, if_pos rfl]

end Files.FileTree

/-! ## Images -/

open Files

namespace FileMedium

variable {path : String} {i : Image} {t v : FileTree}

/-- A change of the tree that succeeds leaves the changed tree, and one that fails the old one. -/
theorem run_changing (operation : FileTree → Except String FileTree) (t : FileTree) :
    (changing operation).run t =
      match operation t with
      | .ok u => (.ok (), u)
      | .error why => (.error why, t) := by
  show (match operation t with
    | .ok u => (do set u; return .ok () : StateM FileTree (Except String Unit))
    | .error why => return .error why).run t = _
  cases operation t <;> rfl

theorem run_makeDirectories (dir : String) (t : FileTree) :
    (Disk.makeDirectories dir : StateM FileTree _).run t = t.makeDirectories dir := by
  show (modifyGet fun t : FileTree => t.makeDirectories dir : StateM FileTree _).run t = _
  rw [StateT.run_modifyGet]
  generalize t.makeDirectories dir = made
  rfl

/-- Putting an image at a path, as a change of the tree. -/
theorem run_writeImage (path : String) (i : Image) (t : FileTree) :
    (writeImage path i : StateM FileTree _).run t =
      match t.makeDirectories (Files.Path.directory path) with
      | (.error why, u) => (.error (.failed .makeDirectory why), u)
      | (.ok _, u) =>
        match u.write (stagingPath path) (.text i.toJson.pretty) with
        | .error why => (.error (.failed .write why), u)
        | .ok v =>
          match v.rename (stagingPath path) path with
          | .error why => (.error (.failed .replace why), v)
          | .ok w => (.ok (), w) := by
  unfold writeImage
  -- Neither the text nor the paths matter for the order of the steps.
  generalize i.toJson.pretty = text
  generalize stagingPath path = staging
  rw [StateT.run_bind, run_makeDirectories]
  obtain ⟨made, u⟩ := t.makeDirectories (Files.Path.directory path)
  cases made with
  | error why => rfl
  | ok _ =>
    show (Disk.writeText staging text >>= _ : StateM FileTree _).run u = _
    have hwrite : (Disk.writeText staging text : StateM FileTree _).run u = _ :=
      run_changing (·.write staging (.text text)) u
    rw [StateT.run_bind, hwrite]
    dsimp only
    cases u.write staging (.text text) with
    | error why => rfl
    | ok v =>
      show (Disk.rename staging path >>= _ : StateM FileTree _).run v = _
      have hrename : (Disk.rename staging path : StateM FileTree _).run v = _ :=
        run_changing (·.rename staging path) v
      rw [StateT.run_bind, hrename]
      dsimp only
      cases v.rename staging path <;> rfl

/-- An image is at a path when directories, a write and a move succeed. -/
theorem writeImage_cases (h : (writeImage path i : StateM FileTree _).run t = (.ok (), v)) :
    ∃ t' u : FileTree, t.makeDirectories (Files.Path.directory path) = (.ok (), t') ∧
      t'.write (stagingPath path) (.text i.toJson.pretty) = .ok u ∧
      u.rename (stagingPath path) path = .ok v := by
  rw [run_writeImage] at h
  split at h
  · cases h
  · rename_i t' hmake
    split at h
    · cases h
    · rename_i u hwrite
      split at h
      · cases h
      · rename_i w hrename
        obtain rfl : w = v := (Prod.mk.inj h).2
        exact ⟨t', u, hmake, hwrite, hrename⟩

/-- An image that was put at a path is there. -/
theorem lookup?_writeImage (h : (writeImage path i : StateM FileTree _).run t = (.ok (), v)) :
    v.lookup? path = some (.file (.text i.toJson.pretty)) := by
  obtain ⟨t', u, -, hwrite, hrename⟩ := writeImage_cases h
  exact FileTree.lookup?_replace hwrite hrename

end FileMedium

end DiceScript
