import DiceScript.Interpreter
import DiceScript.Proofs.Persistence.Backups

/-!
# Keeping a store between commands

What keeping its store does to an interpreter is not seen by the programs it runs: the schedule and
the medium change, the store, the options and the dice do not. Over a path that takes images, whatever
the schedule wants is done, except that a copy may fail; the image itself is at the path in any case.

- `Yields` — what an action on any disk can come to.
- `RunsAs` — two interpreters that run programs alike.
- `yields_afterCommand` — programs run on alike, whatever the disk does after a command.
- `Serving` — an interpreter over a path that takes its images.
- `Serving.afterCommand` — what the schedule does after a command.
- `Serving.flush` — what a last save does.
-/

namespace DiceScript

open Files (FileTree Disk)

/-! ## Any disk -/

section Yields

variable {σ α β : Type} {P : α → Prop} {Q : β → Prop}

/-- Wherever an action starts, what it comes to has a property. -/
def Yields (P : α → Prop) (x : StateM σ α) : Prop :=
  ∀ s, P (x.run s).1

namespace Yields

theorem pure {a : α} (h : P a) : Yields P (Pure.pure a : StateM σ α) :=
  fun _ => h

theorem trivially (x : StateM σ α) : Yields (fun _ => True) x :=
  fun _ => trivial

theorem bind {x : StateM σ α} {f : α → StateM σ β} (h : Yields P x)
    (hnext : ∀ a, P a → Yields Q (f a)) : Yields Q (x >>= f) := by
  intro s
  rw [StateT.run_bind]
  exact hnext _ (h s) _

end Yields

end Yields

/-! ## Files -/

def Store.file (s : Store) : Files.Entry := .file (.text s.image.toJson.pretty)

namespace FileMedium

/-- A copy counts, whether it fails or not, and the medium is otherwise the same. -/
theorem medium_backup (d : FileMedium) (now : Nat) (i : Image) (t : FileTree) :
    ((d.backup now i : StateM FileTree _).run t).1.2 = { d with made := d.made + 1 } := by
  unfold backup
  dsimp only
  rw [StateT.run_bind]
  generalize (writeImage _ i : StateM FileTree _).run t = r
  obtain ⟨result, u⟩ := r
  cases result <;> rfl

end FileMedium

namespace Medium

theorem run_save_file (d : FileMedium) (i : Image) (t : FileTree) :
    ((Medium.file d).save i : StateM FileTree _).run t =
      let r := (FileMedium.writeImage d.path i : StateM FileTree _).run t
      ((r.1, .file d), r.2) := by
  unfold save FileMedium.save
  dsimp only
  generalize (FileMedium.writeImage d.path i : StateM FileTree _) = w
  rfl

theorem run_backup_file (d : FileMedium) (now : Nat) (i : Image) (t : FileTree) :
    ((Medium.file d).backup now i : StateM FileTree _).run t =
      let r := (d.backup now i : StateM FileTree _).run t
      ((r.1.1, .file r.1.2), r.2) := by
  unfold backup
  dsimp only
  generalize (d.backup now i : StateM FileTree _) = w
  rfl

end Medium

namespace Interpreter

variable {i j k : Interpreter} {d : FileMedium} {path : String} {t : FileTree}

/-! ## Running alike -/

/-- Interpreters that differ at most in what keeps their stores. -/
structure RunsAs (i j : Interpreter) : Prop where
  store : j.store = i.store
  options : j.options = i.options
  invocations : j.invocations = i.invocations
  entropy : j.entropy = i.entropy

namespace RunsAs

theorem refl (i : Interpreter) : RunsAs i i := ⟨rfl, rfl, rfl, rfl⟩

theorem trans (h : RunsAs i j) (h' : RunsAs j k) : RunsAs i k :=
  ⟨h'.store.trans h.store, h'.options.trans h.options, h'.invocations.trans h.invocations,
    h'.entropy.trans h.entropy⟩

theorem execute (h : RunsAs i j) (program : Node) (identity : Identity) :
    (j.execute program identity).1 = (i.execute program identity).1 ∧
      RunsAs (i.execute program identity).2 (j.execute program identity).2 := by
  have hdice : j.dice = i.dice := by rw [dice, dice, h.options, h.entropy, h.invocations]
  unfold Interpreter.execute
  rw [h.options, h.store, hdice, h.invocations]
  exact ⟨rfl, rfl, rfl, rfl, h.entropy⟩

theorem keeping (h : RunsAs i j) (medium : Option Medium) (schedule : Schedule) :
    RunsAs i { j with medium, schedule } :=
  h.trans ⟨rfl, rfl, rfl, rfl⟩

end RunsAs

section Yields

variable {σ : Type} [Disk (StateM σ)]

theorem yields_save (h : i.RunsAs j) : Yields (fun r => i.RunsAs r.2) (j.save : StateM σ _) := by
  unfold save
  cases j.medium with
  | none => exact .pure h
  | some d => exact .bind (.trivially _) fun _ _ => .pure (h.keeping _ j.schedule)

theorem yields_backup (h : i.RunsAs j) (now : Nat) :
    Yields (fun r => i.RunsAs r.2) (j.backup now : StateM σ _) := by
  unfold backup
  cases j.medium with
  | none => exact .pure h
  | some d =>
    refine .bind (.trivially _) fun saved _ => ?_
    obtain ⟨result, d⟩ := saved
    cases result with
    | error fault => exact .pure (h.keeping _ j.schedule)
    | ok _ => exact .bind (.trivially _) fun _ _ => .pure (h.keeping _ j.schedule)

/-- Whatever is due after a command, done or failed, programs run on as before. -/
theorem yields_afterCommand (h : i.RunsAs j) (now : Nat) :
    Yields (fun r => i.RunsAs r.2) (j.afterCommand now : StateM σ _) := by
  have hupdated := h.keeping j.medium (j.schedule.update now)
  unfold afterCommand
  dsimp only
  split
  · split
    · exact .pure hupdated
    · refine .bind (yields_backup hupdated now) fun kept hkept => ?_
      obtain ⟨result, k⟩ := kept
      cases result with
      | error fault => exact .pure hkept
      | ok _ => exact .pure (hkept.keeping k.medium _)
    · refine .bind (yields_save hupdated) fun kept hkept => ?_
      obtain ⟨result, k⟩ := kept
      cases result with
      | error fault => exact .pure hkept
      | ok _ => exact .pure (hkept.keeping k.medium _)
  · exact .pure hupdated

end Yields

/-! ## Saves and copies as changes of the tree -/

/-- A save puts the image in its place. -/
theorem run_save (hmedium : i.medium = some (.file d)) :
    (i.save : StateM FileTree _).run t =
      let r := (FileMedium.writeImage d.path i.store.image : StateM FileTree _).run t
      ((r.1, i), r.2) := by
  obtain ⟨store, medium, options, schedule, invocations, entropy⟩ := i
  obtain rfl : medium = some (.file d) := hmedium
  unfold save
  dsimp only
  rw [StateT.run_bind, Medium.run_save_file]
  rfl

theorem run_save_ok (hmedium : i.medium = some (.file d)) {u : FileTree}
    (hsave : (FileMedium.writeImage d.path i.store.image : StateM FileTree _).run t = (.ok (), u)) :
    (i.save : StateM FileTree _).run t = ((.ok (), i), u) := by
  rw [run_save hmedium, hsave]

/-- A copy is made after a save that succeeds. -/
theorem run_backup (hmedium : i.medium = some (.file d)) {now : Nat} {u : FileTree}
    (hsave : (FileMedium.writeImage d.path i.store.image : StateM FileTree _).run t = (.ok (), u)) :
    (i.backup now : StateM FileTree _).run t =
      let r := (d.backup now i.store.image : StateM FileTree _).run u
      ((r.1.1, { i with medium := some (.file r.1.2) }), r.2) := by
  unfold backup
  rw [hmedium]
  dsimp only
  rw [StateT.run_bind, Medium.run_save_file, hsave]
  show ((Medium.file d).backup now i.store.image >>= _ : StateM FileTree _).run u = _
  rw [StateT.run_bind, Medium.run_backup_file]
  generalize (d.backup now i.store.image : StateM FileTree _).run u = r
  rfl

/-! ## Interpreters over a path -/

def Over (path : String) (i : Interpreter) : Prop :=
  ∃ made, i.medium = some (.file { FileMedium.ofPath path with made })

/-- An interpreter runs programs as another does and keeps its store at a path that takes images. -/
structure Serving (path : String) (i j : Interpreter) (t : FileTree) : Prop where
  runs : i.RunsAs j
  medium : j.Over path
  accepts : FileMedium.Accepts path t
  named : t.WellNamed

namespace Serving

/-- The schedule is told of a command, and either nothing is done or the image is put in its place. -/
theorem afterCommand (h : Serving path i j t) (now : Nat) :
    ∃ kept k u, (j.afterCommand now : StateM FileTree _).run t = ((kept, k), u) ∧
      Serving path i k u ∧
      (kept = .ok none ∧ u = t ∨ kept ≠ .ok none ∧ u.lookup? path = some i.store.file) := by
  obtain ⟨made, hmedium⟩ := h.medium
  have hruns := h.runs.keeping
  obtain ⟨u, hsave, hready, hnamed, hfile⟩ := h.accepts.save h.named j.store.image
  have hstore : some i.store.file = some (.file (.text j.store.image.toJson.pretty)) := by
    rw [Store.file, h.runs.store]
  unfold Interpreter.afterCommand
  dsimp only
  rw [if_pos (show isDurable { j with schedule := j.schedule.update now } = true by
    simp [isDurable, hmedium])]
  split
  · exact ⟨_, _, t, rfl, ⟨hruns j.medium _, ⟨made, hmedium⟩, h.accepts, h.named⟩, .inl ⟨rfl, rfl⟩⟩
  · -- The image is saved before it is copied, so it is there even if the copy fails.
    rw [StateT.run_bind, run_backup (i := { j with schedule := j.schedule.update now }) hmedium hsave]
    obtain ⟨hready', hnamed', hfile'⟩ :=
      hready.backup hnamed hfile (d := { FileMedium.ofPath path with made }) rfl now j.store.image
    have hmade := FileMedium.medium_backup { FileMedium.ofPath path with made } now j.store.image u
    generalize (FileMedium.backup { FileMedium.ofPath path with made } now j.store.image :
      StateM FileTree _).run u = r at *
    obtain ⟨⟨result, d⟩, v⟩ := r
    obtain rfl : d = { FileMedium.ofPath path with made := made + 1 } := hmade
    cases result with
    | error fault =>
      exact ⟨_, _, v, rfl, ⟨hruns _ _, ⟨made + 1, rfl⟩, hready'.accepts, hnamed'⟩,
        .inr ⟨nofun, hfile'.trans hstore.symm⟩⟩
    | ok _ =>
      exact ⟨_, _, v, rfl, ⟨hruns _ _, ⟨made + 1, rfl⟩, hready'.accepts, hnamed'⟩,
        .inr ⟨nofun, hfile'.trans hstore.symm⟩⟩
  · rw [StateT.run_bind, run_save_ok (i := { j with schedule := j.schedule.update now }) hmedium hsave]
    exact ⟨_, _, u, rfl, ⟨hruns j.medium _, ⟨made, hmedium⟩, hready.accepts, hnamed⟩,
      .inr ⟨nofun, hfile.trans hstore.symm⟩⟩

/-- A last save puts the image in its place. -/
theorem flush (h : Serving path i j t) :
    ∃ k u, (j.flush : StateM FileTree _).run t = ((.ok (), k), u) ∧
      u.lookup? path = some i.store.file := by
  obtain ⟨made, hmedium⟩ := h.medium
  obtain ⟨u, hsave, -, -, hfile⟩ := h.accepts.save h.named j.store.image
  unfold Interpreter.flush
  rw [StateT.run_bind, run_save_ok hmedium hsave]
  refine ⟨_, u, rfl, ?_⟩
  rw [hfile, Store.file, h.runs.store]

end Serving

end Interpreter

end DiceScript
