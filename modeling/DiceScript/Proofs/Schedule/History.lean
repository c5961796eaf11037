import DiceScript.Proofs.Persistence.Scheduled
import Mathlib.Data.List.DropRight
import Mathlib.Order.Bounds.Basic
import Mathlib.Order.MinMax

/-!
# The schedule and its history

A schedule is told of completed commands, each with a time, and of saves and backups that were done.
All that it counts and remembers can be said of what it was told: its clock is the latest time of all,
and for saves as for backups it knows how many commands came after the last event that counts as one,
and what its clock was then. So what is due is told by the history alone, also when times go back.

- `Event`, `after` — what a schedule is told, and what it is like then.
- `clock`, `since`, `upTo` — what a history says on its own.
- `Remembers` — a schedule is as its history says; `remembers_after` — it always is.
- `state_told_by_history` — what follows, for every history.
-/

namespace DiceScript

/-- Whether a cadence has been reached: by commands, or by the time from one moment to another. -/
def Cadence.Reached (c : Cadence) (commands earlier now : Nat) : Prop :=
  0 < c.commands.toNat ∧ c.commands.toNat ≤ commands ∨
    0 < c.intervalSecs.toNat ∧ earlier + c.intervalSecs.toNat * 1000 ≤ now

theorem Cadence.isDue_iff {c : Cadence} {commands earlier now : Nat} (h : earlier ≤ now) :
    c.isDue commands (now - earlier) = true ↔ c.Reached commands earlier now := by
  simp only [isDue, Reached, Bool.or_eq_true, Bool.and_eq_true, decide_eq_true_eq]
  omega

namespace Schedule

/-! ## What a schedule is told -/

inductive Event where
  /-- A command has been completed, at some time. -/
  | command (time : Nat)
  | saved
  | backedUp

namespace Event

def isCommand : Event → Bool
  | .command _ => true
  | _ => false

/-- Whether it starts the way to the next save, or to the next backup, anew. A backup also counts as
a save. -/
def resets : PersistAction → Event → Bool
  | .save, .saved => true
  | _, .backedUp => true
  | _, _ => false

end Event

def tell (s : Schedule) : Event → Schedule
  | .command time => s.update time
  | .saved => s.saved
  | .backedUp => s.backedUp

def after (s : Schedule) (events : List Event) : Schedule := events.foldl tell s

theorem after_append (s : Schedule) (events more : List Event) :
    s.after (events ++ more) = (s.after events).after more := List.foldl_append

/-! ## What a history says -/

/-- The latest time, of the one at the start and those of all commands. -/
def clock (start : Nat) : List Event → Nat
  | [] => start
  | .command time :: rest => max time (clock start rest)
  | _ :: rest => clock start rest

/-- What happened after the last event that counts as a save, or as a backup. -/
def since (action : PersistAction) (events : List Event) : List Event :=
  events.rtakeWhile fun e => !e.resets action

/-- What happened up to the last event that counts as a save, or as a backup. -/
def upTo (action : PersistAction) (events : List Event) : List Event :=
  events.rdropWhile fun e => !e.resets action

theorem since_concat (action : PersistAction) (events : List Event) (e : Event) :
    since action (events ++ [e]) = if e.resets action then [] else since action events ++ [e] := by
  rw [since, List.rtakeWhile_concat, since]
  cases e.resets action <;> rfl

theorem upTo_concat (action : PersistAction) (events : List Event) (e : Event) :
    upTo action (events ++ [e]) = if e.resets action then events ++ [e] else upTo action events := by
  rw [upTo, List.rdropWhile_concat, upTo]
  cases e.resets action <;> rfl

theorem isGreatest_clock (start : Nat) (events : List Event) :
    IsGreatest {t | t = start ∨ .command t ∈ events} (clock start events) := by
  induction events with
  | nil => simp [clock, IsGreatest, upperBounds]
  | cons e rest ih =>
    obtain ⟨hmem, hupper⟩ := ih
    cases e with
    | command time =>
      constructor
      · rcases max_choice time (clock start rest) with hmax | hmax
        · exact .inr (by simp [clock, hmax])
        · rw [clock, hmax]
          exact hmem.imp_right (List.mem_cons_of_mem _)
      · rintro t (rfl | ht)
        · exact le_max_of_le_right (hupper (.inl rfl))
        · rcases List.mem_cons.mp ht with heq | ht
          · exact le_max_of_le_left (Event.command.inj heq).le
          · exact le_max_of_le_right (hupper (.inr ht))
    | _ => simpa [IsGreatest, clock] using And.intro hmem hupper

theorem clock_concat (start : Nat) (events : List Event) (e : Event) :
    clock start (events ++ [e]) =
      match e with
      | .command time => max (clock start events) time
      | _ => clock start events := by
  induction events with
  | nil => cases e <;> simp [clock, max_comm]
  | cons first rest ih => cases first <;> cases e <;> simp_all [clock, max_assoc]

/-! ## Saves and backups alike -/

def cadence (options : ScheduleOptions) : PersistAction → Cadence
  | .save => options.saveEvery
  | .backup => options.backupEvery

def count (s : Schedule) : PersistAction → Nat
  | .save => s.sinceSave
  | .backup => s.sinceBackup

def last (s : Schedule) : PersistAction → Nat
  | .save => s.lastSave
  | .backup => s.lastBackup

def due (s : Schedule) : PersistAction → Bool
  | .save => s.shouldSave
  | .backup => s.shouldBackUp

variable {s : Schedule} {action : PersistAction} {e : Event}

theorem due_eq (s : Schedule) (action : PersistAction) :
    s.due action = (cadence s.options action).isDue (s.count action) (s.now - s.last action) := by
  cases action <;> rfl

/-! ## Single events -/

theorem options_tell (s : Schedule) (e : Event) : (s.tell e).options = s.options := by
  cases e <;> rfl

theorem now_tell (s : Schedule) (e : Event) :
    (s.tell e).now =
      match e with
      | .command time => max s.now time
      | _ => s.now := by
  cases e <;> rfl

theorem count_tell (s : Schedule) (e : Event) (action : PersistAction) :
    (s.tell e).count action =
      if e.resets action then 0 else s.count action + if e.isCommand then 1 else 0 := by
  cases e <;> cases action <;> rfl

theorem last_tell (s : Schedule) (e : Event) (action : PersistAction) :
    (s.tell e).last action = if e.resets action then s.now else s.last action := by
  cases e <;> cases action <;> rfl

/-- What is due stays due as long as nothing counts as doing it. -/
theorem due_tell (hdue : s.due action = true) (he : e.resets action = false) :
    (s.tell e).due action = true := by
  rw [due_eq] at hdue ⊢
  rw [options_tell, count_tell, last_tell, he]
  refine isDue_mono (Nat.le_add_right _ _) (Nat.sub_le_sub_right ?_ _) hdue
  rw [now_tell]
  cases e with
  | command time => exact le_max_left _ _
  | _ => exact le_rfl

theorem due_after {more : List Event} (hdue : s.due action = true)
    (hmore : ∀ e ∈ more, e.resets action = false) : (s.after more).due action = true := by
  induction more generalizing s with
  | nil => exact hdue
  | cons e rest ih =>
    obtain ⟨he, hrest⟩ := List.forall_mem_cons.mp hmore
    exact ih (due_tell hdue he) hrest

/-- A cadence is not reached in no time. -/
theorem isDue_zero (c : Cadence) : c.isDue 0 0 = false := by
  rw [Bool.eq_false_iff]
  simp only [Cadence.isDue, ne_eq, Bool.or_eq_true, Bool.and_eq_true, decide_eq_true_eq]
  omega

theorem due_tell_of_resets (he : e.resets action = true) : (s.tell e).due action = false := by
  have hnow : (s.tell e).now = s.now := by
    cases e with
    | command time => cases action <;> cases he
    | _ => rfl
  rw [due_eq, count_tell, last_tell, hnow, if_pos he, if_pos he, Nat.sub_self, isDue_zero]

/-- The last backup is no later than the last save, and the last save no later than the clock. -/
structure InOrder (s : Schedule) : Prop where
  lastBackup_le : s.lastBackup ≤ s.lastSave
  lastSave_le : s.lastSave ≤ s.now
  sinceSave_le : s.sinceSave ≤ s.sinceBackup

theorem InOrder.tell (h : s.InOrder) (e : Event) : (s.tell e).InOrder := by
  obtain ⟨hbackup, hsave, hcount⟩ := h
  cases e with
  | command time => exact ⟨hbackup, hsave.trans (le_max_left _ _), Nat.succ_le_succ hcount⟩
  | saved => exact ⟨hbackup.trans hsave, le_rfl, Nat.zero_le _⟩
  | backedUp => exact ⟨le_rfl, le_rfl, le_rfl⟩

theorem InOrder.last_le (h : s.InOrder) (action : PersistAction) : s.last action ≤ s.now := by
  cases action with
  | save => exact h.lastSave_le
  | backup => exact h.lastBackup_le.trans h.lastSave_le

/-! ## Whole histories -/

/-- A schedule is as its history says. -/
structure Remembers (options : ScheduleOptions) (start : Nat) (events : List Event)
    (s : Schedule) : Prop where
  options : s.options = options
  now : s.now = clock start events
  count : ∀ action, s.count action = (since action events).countP Event.isCommand
  last : ∀ action, s.last action = clock start (upTo action events)
  inOrder : s.InOrder

theorem remembers_start (options : ScheduleOptions) (start : Nat) :
    Remembers options start [] (.start options start) where
  options := rfl
  now := rfl
  count action := by cases action <;> rfl
  last action := by cases action <;> rfl
  inOrder := ⟨le_rfl, le_rfl, le_rfl⟩

/-- One event more. -/
theorem Remembers.tell {options : ScheduleOptions} {start : Nat} {events : List Event}
    (h : Remembers options start events s) (e : Event) :
    Remembers options start (events ++ [e]) (s.tell e) where
  options := (s.options_tell e).trans h.options
  now := by rw [now_tell, clock_concat, h.now]
  count action := by
    rw [count_tell, h.count, since_concat]
    cases e.resets action with
    | true => rfl
    | false => simp [List.countP_append, List.countP_singleton]
  last action := by
    rw [last_tell, h.last, h.now, upTo_concat]
    cases hreset : e.resets action with
    | false => rfl
    | true =>
      -- What resets tells no time, so the clock is what it was before.
      rw [if_pos rfl, if_pos rfl, clock_concat]
      cases e with
      | command time => cases action <;> cases hreset
      | _ => rfl
  inOrder := h.inOrder.tell e

theorem remembers_after (options : ScheduleOptions) (start : Nat) (events : List Event) :
    Remembers options start events ((Schedule.start options start).after events) := by
  induction events using List.reverseRecOn with
  | nil => exact remembers_start options start
  | append_singleton events e ih =>
    rw [after_append]
    exact ih.tell e

theorem Remembers.due_iff {options : ScheduleOptions} {start : Nat} {events : List Event}
    (h : Remembers options start events s) (action : PersistAction) :
    s.due action = true ↔ (cadence options action).Reached
      ((since action events).countP Event.isCommand) (clock start (upTo action events))
      (clock start events) := by
  rw [due_eq, h.options, Cadence.isDue_iff (h.inOrder.last_le action), h.count, h.last, h.now]

/-- **A schedule is told by its history.** For all cadences, every start and every sequence of
completed commands, saves and backups, with times in any order:

- the clock is the greatest of the start and all times;
- the commands counted are those since the last event that counts as a save, and since the last
  backup, and the last save and the last backup are remembered with what the clock was then;
- the last backup is not after the last save, nor that after the clock, and no more commands are
  counted for the save than for the backup;
- a save or a backup is due exactly when its number of commands, if not zero, or its interval, if not
  zero, has been reached since;
- what is due stays due until it is done, a backup also through saves;
- after a save no save is due, after a backup nothing is, and a due backup goes first. -/
theorem state_told_by_history (options : ScheduleOptions) (start : Nat) (events : List Event) :
    let s := (Schedule.start options start).after events
    IsGreatest {t | t = start ∨ .command t ∈ events} s.now ∧
    (s.sinceSave = (since .save events).countP Event.isCommand ∧
      s.sinceBackup = (since .backup events).countP Event.isCommand ∧
      s.lastSave = clock start (upTo .save events) ∧
      s.lastBackup = clock start (upTo .backup events)) ∧
    (s.lastBackup ≤ s.lastSave ∧ s.lastSave ≤ s.now ∧ s.sinceSave ≤ s.sinceBackup) ∧
    (s.shouldSave = true ↔ options.saveEvery.Reached ((since .save events).countP Event.isCommand)
      (clock start (upTo .save events)) (clock start events)) ∧
    (s.shouldBackUp = true ↔ options.backupEvery.Reached
      ((since .backup events).countP Event.isCommand) (clock start (upTo .backup events))
      (clock start events)) ∧
    (∀ more, (∀ e ∈ more, e.resets .save = false) → s.shouldSave = true →
      (s.after more).shouldSave = true) ∧
    (∀ more, (∀ e ∈ more, e.resets .backup = false) → s.shouldBackUp = true →
      (s.after more).shouldBackUp = true) ∧
    s.saved.shouldSave = false ∧ s.backedUp.nextAction = none ∧
    (s.shouldBackUp = true → s.nextAction = some .backup) := by
  intro s
  have h : Remembers options start events s := remembers_after options start events
  have hsaved : (s.tell .saved).due .save = false := due_tell_of_resets rfl
  have hsave : (s.tell .backedUp).due .save = false := due_tell_of_resets rfl
  have hbackup : (s.tell .backedUp).due .backup = false := due_tell_of_resets rfl
  refine ⟨?_, ⟨h.count .save, h.count .backup, h.last .save, h.last .backup⟩,
    ⟨h.inOrder.lastBackup_le, h.inOrder.lastSave_le, h.inOrder.sinceSave_le⟩,
    h.due_iff .save, h.due_iff .backup, ?_, ?_, hsaved, nextAction_eq_none.mpr ⟨hbackup, hsave⟩, ?_⟩
  · rw [h.now]
    exact isGreatest_clock start events
  · intro more hmore hdue
    have hkept : (s.after more).due .save = true := due_after hdue hmore
    exact hkept
  · intro more hmore hdue
    have hkept : (s.after more).due .backup = true := due_after hdue hmore
    exact hkept
  · intro hdue
    rw [nextAction, if_pos hdue]

/-- A clock that goes back is taken to stand still: a save is due by its interval, although the last
time that was told lies before the save before it. It stays due through a further command, which makes
a backup due by the number of commands since the start. -/
theorem state_told_by_history_clockBack :
    let options : ScheduleOptions := ⟨⟨0, 60⟩, ⟨4, 0⟩⟩
    let events : List Event := [.command 2000, .saved, .command 62000, .command 500]
    let s := (Schedule.start options 1000).after events
    s.sinceSave = 2 ∧ s.sinceBackup = 3 ∧ s.lastSave = 2000 ∧ s.lastBackup = 1000 ∧
      s.shouldSave = true ∧ (∀ e ∈ [Event.command 0], e.resets .save = false) ∧
      (s.after [.command 0]).shouldSave = true ∧
      (s.after [.command 0]).nextAction = some .backup := by
  intro options events s
  obtain ⟨-, ⟨hsave, hbackup, hlast, hlast'⟩, -, hdue, -, hstays, -⟩ :=
    state_told_by_history options 1000 events
  have hreached : options.saveEvery.Reached 2 2000 62000 := .inr (by decide)
  have hmore : ∀ e ∈ [Event.command 0], e.resets .save = false := by decide
  obtain ⟨-, -, -, -, hdue', -, -, -, -, hfirst⟩ :=
    state_told_by_history options 1000 (events ++ [.command 0])
  have hreached' : options.backupEvery.Reached 4 1000 62000 := .inl (by decide)
  exact ⟨hsave, hbackup, hlast, hlast', hdue.mpr hreached, hmore,
    hstays _ hmore (hdue.mpr hreached), hfirst (hdue'.mpr hreached')⟩

end Schedule

end DiceScript
