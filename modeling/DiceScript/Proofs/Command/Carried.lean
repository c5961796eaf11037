import DiceScript.Command.Serve
import Mathlib.Tactic

/-!
# A disk with something beside it

The program is written against any disk. Put a state beside a disk, such as that of a clock, and what
the program does to the files stays the same, and it never touches the state.

- `Carried` — an action on the disk with a state beside it does what one on the disk alone does.
- `carried_openInterpreter`, `carried_serveLine`, `carried_endSession` — of the parts of a session.
-/

namespace DiceScript

open Files (Disk)

namespace Files

variable {σ : Type} {n : Type → Type} [Monad n]

instance [Disk n] : Disk (StateT σ n) where
  isPresent path := monadLift (Disk.isPresent path : n _)
  isDirectory path := monadLift (Disk.isDirectory path : n _)
  readText path := monadLift (Disk.readText path : n _)
  writeText path s := monadLift (Disk.writeText path s : n _)
  rename source target := monadLift (Disk.rename source target : n _)
  remove path := monadLift (Disk.remove path : n _)
  makeDirectories path := monadLift (Disk.makeDirectories path : n _)
  list path := monadLift (Disk.list path : n _)
  filesBelow path := monadLift (Disk.filesBelow path : n _)

/-- An action does what another one does, and leaves the state beside it alone. -/
def Carried {α : Type} (x : StateT σ n α) (y : n α) : Prop :=
  ∀ s, x.run s = y >>= fun a => pure (a, s)

namespace Carried

variable {α β : Type}

theorem lift (y : n α) : Carried (monadLift y : StateT σ n α) y :=
  fun _ => rfl

variable [LawfulMonad n]

theorem pure (a : α) : Carried (Pure.pure a : StateT σ n α) (Pure.pure a) := by
  intro s
  rw [StateT.run_pure, pure_bind]

theorem bind {x : StateT σ n α} {y : n α} {f : α → StateT σ n β} {g : α → n β} (h : Carried x y)
    (hnext : ∀ a, Carried (f a) (g a)) : Carried (x >>= f) (y >>= g) := by
  intro s
  rw [StateT.run_bind, h s, bind_assoc, bind_assoc]
  refine bind_congr fun a => ?_
  rw [pure_bind]
  exact hnext a s

end Carried

end Files

open Files (Carried)

variable {σ : Type} {n : Type → Type} [Monad n] [LawfulMonad n] [Disk n]

/-! ## Media -/

namespace FileMedium

theorem carried_writeImage (path : String) (i : Image) :
    Carried (writeImage path i : StateT σ n _) (writeImage path i) := by
  refine .bind (.lift _) fun made => ?_
  cases made with
  | error why => exact .pure _
  | ok _ =>
    refine .bind (.lift _) fun written => ?_
    cases written with
    | error why => exact .pure _
    | ok _ => exact .bind (.lift _) fun _ => .pure _

theorem carried_load (d : FileMedium) : Carried (d.load : StateT σ n _) d.load := by
  refine .bind (.lift _) fun present => ?_
  cases present with
  | false => exact .pure _
  | true =>
    refine .bind (.lift _) fun text => ?_
    cases text <;> exact .pure _

theorem carried_removeAll (dir : String) (names : List String) :
    Carried (removeAll dir names : StateT σ n _) (removeAll dir names) := by
  induction names with
  | nil => exact .pure _
  | cons name names ih => exact .bind (.lift _) fun _ => ih

theorem carried_prune (d : FileMedium) : Carried (d.prune : StateT σ n _) d.prune := by
  refine .bind (.lift _) fun names => ?_
  cases names with
  | error why => exact .pure _
  | ok names => exact .bind (carried_removeAll _ _) fun _ => .pure _

theorem carried_backup (d : FileMedium) (now : Nat) (i : Image) :
    Carried (d.backup now i : StateT σ n _) (d.backup now i) := by
  refine .bind (carried_writeImage _ i) fun written => ?_
  cases written with
  | error fault => exact .pure _
  | ok _ => exact .bind (carried_prune _) fun _ => .pure _

end FileMedium

namespace Medium

theorem carried_load (d : Medium) : Carried (d.load : StateT σ n _) d.load := by
  cases d with
  | memory d => exact .pure _
  | file d => exact d.carried_load

theorem carried_save (d : Medium) (i : Image) : Carried (d.save i : StateT σ n _) (d.save i) := by
  cases d with
  | memory d =>
    unfold save
    dsimp only
    cases d.save i <;> exact .pure _
  | file d => exact .bind (FileMedium.carried_writeImage d.path i) fun _ => .pure _

theorem carried_backup (d : Medium) (now : Nat) (i : Image) :
    Carried (d.backup now i : StateT σ n _) (d.backup now i) := by
  cases d with
  | memory d =>
    unfold backup
    dsimp only
    cases d.backup i <;> exact .pure _
  | file d => exact .bind (d.carried_backup now i) fun _ => .pure _

end Medium

/-! ## Interpreters -/

namespace Interpreter

theorem carried_save (i : Interpreter) : Carried (i.save : StateT σ n _) i.save := by
  unfold save
  cases i.medium with
  | none => exact .pure _
  | some d => exact .bind (d.carried_save _) fun _ => .pure _

theorem carried_backup (i : Interpreter) (now : Nat) :
    Carried (i.backup now : StateT σ n _) (i.backup now) := by
  unfold backup
  cases i.medium with
  | none => exact .pure _
  | some d =>
    refine .bind (d.carried_save _) fun saved => ?_
    obtain ⟨result, d⟩ := saved
    cases result with
    | error fault => exact .pure _
    | ok _ => exact .bind (d.carried_backup now _) fun _ => .pure _

theorem carried_afterCommand (i : Interpreter) (now : Nat) :
    Carried (i.afterCommand now : StateT σ n _) (i.afterCommand now) := by
  unfold afterCommand
  dsimp only
  split
  · split
    · exact .pure _
    · refine .bind (carried_backup _ now) fun kept => ?_
      obtain ⟨result, i⟩ := kept
      cases result <;> exact .pure _
    · refine .bind (carried_save _) fun kept => ?_
      obtain ⟨result, i⟩ := kept
      cases result <;> exact .pure _
  · exact .pure _

theorem carried_flush (i : Interpreter) : Carried (i.flush : StateT σ n _) i.flush := by
  refine .bind i.carried_save fun kept => ?_
  obtain ⟨result, i⟩ := kept
  cases result <;> exact .pure _

theorem carried_openStore (d : Medium) : Carried (openStore d : StateT σ n _) (openStore d) := by
  refine .bind d.carried_load fun image => ?_
  rcases image with fault | _ | image <;> exact .pure _

end Interpreter

/-! ## Sessions -/

namespace Command

theorem carried_readOptionsFile (config : Option String) :
    Carried (readOptionsFile config : StateT σ n _) (readOptionsFile config) := by
  cases config with
  | none => exact .pure _
  | some path =>
    refine .bind (.lift _) fun text => ?_
    cases text with
    | error why => exact .pure _
    | ok text =>
      dsimp only
      split <;> exact .pure _

theorem carried_readLibraryFiles (dir : String) (places : List (List String)) (library : Bindings) :
    Carried (readLibraryFiles dir library places : StateT σ n _)
      (readLibraryFiles dir library places) := by
  induction places generalizing library with
  | nil => exact .pure _
  | cons place places ih =>
    refine .bind (.lift _) fun text => ?_
    cases text with
    | error why => exact .pure _
    | ok text =>
      dsimp only
      split
      · exact .pure _
      · exact ih _

theorem carried_readLibrary (dir : String) :
    Carried (readLibrary dir : StateT σ n _) (readLibrary dir) := by
  refine .bind (.lift _) fun present => ?_
  cases present with
  | false => exact .pure _
  | true =>
    refine .bind (.lift _) fun directory => ?_
    cases directory with
    | false => exact .pure _
    | true =>
      refine .bind (.lift _) fun places => ?_
      cases places with
      | error why => exact .pure _
      | ok places => exact carried_readLibraryFiles dir _ _

theorem carried_openStore (store : Option String) :
    Carried (openStore store : StateT σ n _) (openStore store) := by
  cases store with
  | none => exact .pure _
  | some path =>
    refine .bind (Interpreter.carried_openStore _) fun store => ?_
    cases store <;> exact .pure _

theorem carried_openInterpreter (setup : Setup) (now : Nat) (entropy : UInt64) :
    Carried (openInterpreter setup now entropy : StateT σ n _)
      (openInterpreter setup now entropy) := by
  refine .bind (carried_readOptionsFile _) fun options => ?_
  cases options with
  | error fault => exact .pure _
  | ok options =>
    refine .bind (carried_openStore _) fun store => ?_
    rcases store with fault | ⟨store, medium⟩
    · exact .pure _
    · dsimp only
      split
      · exact .pure _
      · refine .bind (carried_readLibrary _) fun library => ?_
        cases library <;> exact .pure _

theorem carried_serveLine (i : Interpreter) (now : Nat) (line : String) :
    Carried (serveLine i now line : StateT σ n _) (serveLine i now line) := by
  unfold serveLine
  split
  · exact .pure _
  · exact .bind (Interpreter.carried_afterCommand _ now) fun _ => .pure _

theorem carried_endSession (i : Interpreter) :
    Carried (endSession i : StateT σ n _) (endSession i) := by
  unfold endSession
  split
  · refine .bind i.carried_flush fun kept => ?_
    obtain ⟨result, i⟩ := kept
    cases result <;> exact .pure _
  · exact .pure _

end Command

end DiceScript
