import DiceScript.Files.Tree
import DiceScript.Interpreter

/-!
# What the schedule keeps

An interpreter over a medium in memory is given programs, told of completed commands, asked to flush,
and its medium goes away and comes back, in any order. What each of these steps comes to is an event,
and everything the schedule promises can be said of the events alone: what was kept is the store as
it is, what failed changed nothing and is tried again, and whenever a command is reported while the
medium is there, fewer commands are left unkept than the cadence of saves allows. The triggers may be
commands, time or both.

- `history` — what steps come to, one after another.
- `sinceKept` — the commands reported since the store was last kept.
- `Tracked` — how an interpreter stands after events; `Tracked.perform` — one step keeps it up.
- `schedule_loses_nothing` — what follows for every history.
-/

namespace DiceScript

open Files (FileTree)

/-! ## What is due -/

namespace Schedule

def done (s : Schedule) : PersistAction → Schedule
  | .save => s.saved
  | .backup => s.backedUp

@[simp] theorem sinceSave_done (s : Schedule) (action : PersistAction) :
    (s.done action).sinceSave = 0 := by
  cases action <;> rfl

@[simp] theorem options_done (s : Schedule) (action : PersistAction) :
    (s.done action).options = s.options := by
  cases action <;> rfl

theorem nextAction_eq_none {s : Schedule} :
    s.nextAction = none ↔ s.shouldBackUp = false ∧ s.shouldSave = false := by
  unfold nextAction
  split
  · simp_all
  · split <;> simp_all

theorem isDue_mono {c : Cadence} {commands commands' elapsed elapsed' : Nat}
    (hc : commands ≤ commands') (he : elapsed ≤ elapsed') (h : c.isDue commands elapsed = true) :
    c.isDue commands' elapsed' = true := by
  simp only [Cadence.isDue, Bool.or_eq_true, Bool.and_eq_true, decide_eq_true_eq] at h ⊢
  omega

/-- What is due stays due when another command is reported, whatever the time. -/
theorem nextAction_update {s : Schedule} (now : Nat) (h : s.nextAction ≠ none) :
    (s.update now).nextAction ≠ none := by
  intro hnone
  obtain ⟨hbackup, hsave⟩ := nextAction_eq_none.mp hnone
  -- The time of a schedule does not go back.
  have helapsed : ∀ last, s.now - last ≤ max s.now now - last := fun last => by omega
  refine h (nextAction_eq_none.mpr ⟨?_, ?_⟩)
  · rw [Bool.eq_false_iff] at hbackup ⊢
    exact fun hdue => hbackup (isDue_mono (Nat.le_succ _) (helapsed _) hdue)
  · rw [Bool.eq_false_iff] at hsave ⊢
    exact fun hdue => hsave (isDue_mono (Nat.le_succ _) (helapsed _) hdue)

/-- As long as nothing is due, fewer commands have gone by than the cadence of saves allows. -/
theorem sinceSave_lt_of_nextAction {s : Schedule} (h : s.nextAction = none)
    (hc : 0 < s.options.saveEvery.commands.toNat) :
    s.sinceSave < s.options.saveEvery.commands.toNat := by
  have hsave := (nextAction_eq_none.mp h).2
  simp only [shouldSave, Cadence.isDue, Bool.or_eq_false_iff, Bool.and_eq_false_iff,
    decide_eq_false_iff_not] at hsave
  omega

end Schedule

def MemoryMedium.keep (d : MemoryMedium) (image : Image) : PersistAction → MemoryMedium
  | .save => { d with saved := some image }
  | .backup => { d with saved := some image, backups := d.backups ++ [image] }

namespace Interpreter

/-! ## Single steps -/

variable {i : Interpreter} {d : MemoryMedium}

theorem save_memory (h : i.medium = some (.memory d)) (t : FileTree) :
    (i.save : StateM FileTree _).run t =
      (if d.available then
        (.ok (), { i with medium := some (.memory (d.keep i.store.image .save)) })
      else (.error .unavailable, i), t) := by
  obtain ⟨store, medium, options, schedule, invocations, entropy⟩ := i
  obtain ⟨saved, backups, available⟩ := d
  obtain rfl : medium = _ := h
  cases available <;> rfl

theorem backup_memory (h : i.medium = some (.memory d)) (now : Nat) (t : FileTree) :
    (i.backup now : StateM FileTree _).run t =
      (if d.available then
        (.ok (), { i with medium := some (.memory (d.keep i.store.image .backup)) })
      else (.error .unavailable, i), t) := by
  obtain ⟨store, medium, options, schedule, invocations, entropy⟩ := i
  obtain ⟨saved, backups, available⟩ := d
  obtain rfl : medium = _ := h
  cases available <;> rfl

/-- Flushing saves when the medium is there, and else changes nothing. -/
theorem flush_memory (h : i.medium = some (.memory d)) (t : FileTree) :
    (i.flush : StateM FileTree _).run t =
      (if d.available then
        (.ok (), { i with
          medium := some (.memory (d.keep i.store.image .save)), schedule := i.schedule.saved })
      else (.error .unavailable, i), t) := by
  unfold flush
  rw [StateT.run_bind, save_memory h]
  split <;> rfl

/-- Reporting a command does what is due when the medium is there, and else only counts. -/
theorem afterCommand_memory (h : i.medium = some (.memory d)) (now : Nat) (t : FileTree) :
    (i.afterCommand now : StateM FileTree _).run t =
      (match (i.schedule.update now).nextAction with
      | none => (.ok none, { i with schedule := i.schedule.update now })
      | some action =>
        if d.available then
          (.ok (some action), { i with
            medium := some (.memory (d.keep i.store.image action))
            schedule := (i.schedule.update now).done action })
        else (.error .unavailable, { i with schedule := i.schedule.update now }), t) := by
  obtain ⟨store, medium, options, schedule, invocations, entropy⟩ := i
  obtain rfl : medium = _ := h
  simp only [afterCommand, isDurable, Option.isSome_some, if_true]
  cases (schedule.update now).nextAction with
  | none => rfl
  | some action =>
    cases action with
    | save =>
      rw [StateT.run_bind, save_memory rfl]
      split <;> rfl
    | backup =>
      rw [StateT.run_bind, backup_memory rfl]
      split <;> rfl

/-! ## Histories -/

/-- What is done with an interpreter over a medium in memory. -/
inductive Step where
  | execute (program : Node) (identity : Identity)
  /-- A command is reported as completed, at some time. -/
  | afterCommand (now : Nat)
  | flush
  /-- The medium goes away or comes back. -/
  | setAvailable (available : Bool)

/-- What a step comes to. -/
inductive Event where
  | executed (result : Except Failure Outcome)
  | reported (result : Except StorageFault (Option PersistAction))
  | flushed (result : Except StorageFault Unit)
  | switched (available : Bool)

namespace Event

def isKept : Event → Bool
  | .reported (.ok (some _)) => true
  | .flushed (.ok _) => true
  | _ => false

def isFailed : Event → Bool
  | .reported (.error _) => true
  | .flushed (.error _) => true
  | _ => false

def isReport : Event → Bool
  | .reported _ => true
  | _ => false

end Event

def setAvailable (i : Interpreter) (available : Bool) : Interpreter :=
  match i.medium with
  | some (.memory d) => { i with medium := some (.memory { d with available }) }
  | _ => i

def perform (i : Interpreter) : Step → StateM FileTree (Event × Interpreter)
  | .execute program identity =>
    let (result, j) := i.execute program identity
    return (.executed result, j)
  | .afterCommand now => do
    let (result, j) ← i.afterCommand now
    return (.reported result, j)
  | .flush => do
    let (result, j) ← i.flush
    return (.flushed result, j)
  | .setAvailable available => return (.switched available, i.setAvailable available)

structure Moment where
  before : Interpreter
  event : Event
  after : Interpreter

def history (i : Interpreter) : List Step → StateM FileTree (List Moment)
  | [] => return []
  | step :: rest => do
    let (event, j) ← i.perform step
    let later ← j.history rest
    return ⟨i, event, j⟩ :: later

/-- The commands that were reported since the store was last kept, or since the beginning. -/
def sinceKept (events : List Event) : Nat :=
  (events.reverse.takeWhile (!·.isKept)).countP (·.isReport)

theorem sinceKept_concat (past : List Event) (e : Event) :
    sinceKept (past ++ [e]) =
      if e.isKept then 0 else sinceKept past + if e.isReport then 1 else 0 := by
  unfold sinceKept
  rw [List.reverse_append, List.reverse_singleton, List.singleton_append, List.takeWhile_cons]
  cases e.isKept with
  | true => simp
  | false => simp [List.countP_cons]

/-! ## What a step can do -/

/-- The ways in which a step can go for an interpreter over a medium in memory. -/
inductive Follows (i : Interpreter) (d : MemoryMedium) : Event → Interpreter → Prop where
  | execute (program : Node) (identity : Identity) :
      Follows i d (.executed (i.execute program identity).1) (i.execute program identity).2
  | idle {now : Nat} : (i.schedule.update now).nextAction = none →
      Follows i d (.reported (.ok none)) { i with schedule := i.schedule.update now }
  | keep {now : Nat} {action : PersistAction} : (i.schedule.update now).nextAction = some action →
      d.available = true → Follows i d (.reported (.ok (some action)))
        { i with medium := some (.memory (d.keep i.store.image action))
                 schedule := (i.schedule.update now).done action }
  | fail {now : Nat} : (i.schedule.update now).nextAction ≠ none → d.available = false →
      Follows i d (.reported (.error .unavailable)) { i with schedule := i.schedule.update now }
  | flush : d.available = true → Follows i d (.flushed (.ok ()))
      { i with medium := some (.memory (d.keep i.store.image .save)), schedule := i.schedule.saved }
  | flushFail : d.available = false → Follows i d (.flushed (.error .unavailable)) i
  | switch (available : Bool) :
      Follows i d (.switched available) { i with medium := some (.memory { d with available }) }

/-- A step goes in one of these ways and does not touch any file. -/
theorem exists_follows (h : i.medium = some (.memory d)) (step : Step) (t : FileTree) :
    ∃ event j, (i.perform step).run t = ((event, j), t) ∧ Follows i d event j := by
  cases step with
  | execute program identity => exact ⟨_, _, rfl, .execute program identity⟩
  | afterCommand now =>
    rw [perform, StateT.run_bind, afterCommand_memory h]
    cases hnext : (i.schedule.update now).nextAction with
    | none => exact ⟨_, _, rfl, .idle hnext⟩
    | some action =>
      cases hd : d.available with
      | true => exact ⟨_, _, rfl, .keep hnext hd⟩
      | false => exact ⟨_, _, rfl, .fail (by simp [hnext]) hd⟩
  | flush =>
    rw [perform, StateT.run_bind, flush_memory h]
    cases hd : d.available with
    | true => exact ⟨_, _, rfl, .flush hd⟩
    | false => exact ⟨_, _, rfl, .flushFail hd⟩
  | setAvailable available =>
    refine ⟨_, _, rfl, ?_⟩
    have hset : i.setAvailable available =
        { i with medium := some (.memory { d with available }) } := by
      simp [setAvailable, h]
    rw [hset]
    exact .switch available

namespace Follows

variable {event : Event} {j : Interpreter}

/-- What is kept is the store as it is. -/
theorem saved_of_isKept (h : Follows i d event j) (hk : event.isKept = true) :
    ∃ e, j.medium = some (.memory e) ∧ e.saved = some j.store.image := by
  cases h with
  | @keep _ action _ _ => cases action <;> exact ⟨_, rfl, rfl⟩
  | flush _ => exact ⟨_, rfl, rfl⟩
  | _ => cases hk

/-- What fails leaves the medium alone. -/
theorem medium_of_isFailed (h : Follows i d event j) (hf : event.isFailed = true) :
    j.medium = i.medium := by
  cases h with
  | fail _ _ => rfl
  | flushFail _ => rfl
  | _ => cases hf

theorem due_of_failed {fault : StorageFault} (h : Follows i d (.reported (.error fault)) j) :
    j.schedule.nextAction ≠ none := by
  cases h with
  | fail hdue _ => exact hdue

/-- What is due stays due until something is kept. -/
theorem due (h : Follows i d event j) (hk : event.isKept = false)
    (hdue : i.schedule.nextAction ≠ none) : j.schedule.nextAction ≠ none := by
  cases h with
  | execute program identity => exact hdue
  | idle _ => exact Schedule.nextAction_update _ hdue
  | keep _ _ => cases hk
  | fail hnext _ => exact hnext
  | flush _ => cases hk
  | flushFail _ => exact hdue
  | switch available => exact hdue

/-- When something is due, reporting a command does not let it pass. -/
theorem reported_ne_none {result : Except StorageFault (Option PersistAction)}
    (h : Follows i d (.reported result) j) (hdue : i.schedule.nextAction ≠ none) :
    result ≠ .ok none := by
  cases h with
  | idle hnone => exact absurd hnone (Schedule.nextAction_update _ hdue)
  | keep _ _ => simp
  | fail _ _ => simp

/-- While the medium is there, a report leaves fewer commands unkept than the cadence allows. -/
theorem sinceSave_lt (h : Follows i d event j) (hreport : event.isReport = true)
    (hd : d.available = true) (hc : 0 < i.schedule.options.saveEvery.commands.toNat) :
    j.schedule.sinceSave < i.schedule.options.saveEvery.commands.toNat := by
  cases h with
  | idle hnone => exact Schedule.sinceSave_lt_of_nextAction hnone hc
  | keep _ _ =>
    rw [Schedule.sinceSave_done]
    exact hc
  | fail _ hd' => simp [hd'] at hd
  | _ => cases hreport

end Follows

/-! ## How an interpreter stands after events -/

/-- What an interpreter that started over a medium in memory is like after events. -/
structure Tracked (options : Options) (past : List Event) (i : Interpreter) : Prop where
  medium : ∃ d, i.medium = some (.memory d)
  cadences : i.schedule.options = options.schedule
  counted : i.schedule.sinceSave = sinceKept past
  /-- What has failed is due until something is kept. -/
  due : ∀ earlier fault later, past = earlier ++ .reported (.error fault) :: later →
    (∀ e ∈ later, e.isKept = false) → i.schedule.nextAction ≠ none

variable {options : Options} {past : List Event}

theorem tracked_start (store : Store) (d : MemoryMedium) (options : Options) (now : Nat)
    (entropy : UInt64) :
    Tracked options [] (start store (some (.memory d)) options now entropy) where
  medium := ⟨d, rfl⟩
  cadences := rfl
  counted := rfl
  due _ _ _ h := by simp at h

/-- One step more. -/
theorem Tracked.step (ht : Tracked options past i) (hm : i.medium = some (.memory d))
    {event : Event} {j : Interpreter} (h : Follows i d event j) :
    Tracked options (past ++ [event]) j where
  medium := by
    cases h with
    | execute program identity => exact ⟨d, hm⟩
    | idle _ => exact ⟨d, hm⟩
    | keep _ _ => exact ⟨_, rfl⟩
    | fail _ _ => exact ⟨d, hm⟩
    | flush _ => exact ⟨_, rfl⟩
    | flushFail _ => exact ⟨d, hm⟩
    | switch available => exact ⟨_, rfl⟩
  cadences := by
    cases h <;> simp [← ht.cadences, Schedule.update, Schedule.saved, execute]
  counted := by
    rw [sinceKept_concat, ← ht.counted]
    cases h <;> simp [Event.isKept, Event.isReport, Schedule.update, Schedule.saved, execute]
  due earlier fault later hpast hlater := by
    -- The failure is the event of this step, or it came before and nothing was kept since.
    rcases List.eq_nil_or_concat later with rfl | ⟨later, e, rfl⟩
    · obtain ⟨-, hevent⟩ := List.append_inj' hpast rfl
      obtain rfl := List.cons.inj hevent |>.1
      exact h.due_of_failed
    · rw [List.concat_eq_append, ← List.cons_append, ← List.append_assoc] at hpast
      obtain ⟨hbefore, hevent⟩ := List.append_inj' hpast rfl
      obtain rfl := List.cons.inj hevent |>.1
      refine h.due (hlater event (by simp)) (ht.due _ _ _ hbefore fun e he => hlater e (by simp [he]))

/-- How things stand before any step of a history, and how the step goes. -/
theorem Tracked.history (ht : Tracked options past i) {steps : List Step} {t : FileTree}
    {before : List Moment} {m : Moment} {rest : List Moment}
    (h : ((i.history steps).run t).1 = before ++ m :: rest) :
    Tracked options (past ++ before.map (·.event)) m.before ∧
      ∃ d, m.before.medium = some (.memory d) ∧ Follows m.before d m.event m.after := by
  induction steps generalizing i past before with
  | nil =>
    have hnil : [] = before ++ m :: rest := h
    simp at hnil
  | cons step steps ih =>
    obtain ⟨d, hm⟩ := ht.medium
    obtain ⟨event, j, hperform, hfollows⟩ := exists_follows hm step t
    have hcons : ((i.history (step :: steps)).run t).1 =
        ⟨i, event, j⟩ :: ((j.history steps).run t).1 := by
      rw [Interpreter.history, StateT.run_bind, hperform]
      rfl
    rw [hcons] at h
    cases before with
    | nil =>
      obtain ⟨rfl, -⟩ := List.cons.inj h
      exact ⟨by simpa using ht, d, hm, hfollows⟩
    | cons first before =>
      obtain ⟨rfl, hrest⟩ := List.cons.inj h
      have hlater := ih (ht.step hm hfollows) hrest
      rw [List.append_assoc] at hlater
      exact hlater

/-- **The schedule loses nothing and tries again.** Of every interpreter over a medium in memory, with
any cadences, and every sequence of runs, reports, flushes and outages:

- when a report tells of a save or backup, or a flush succeeds, the saved image is that of the store;
- when a report or a flush fails, the medium is as it was;
- after a failed report every further report saves, backs up or fails again, until the store is kept;
- when the cadence of saves asks for a save after `c` commands, then after every report for which the
  medium is there, whatever outages there were before, fewer than `c` commands have been reported
  since the store was last kept, or since the beginning. -/
theorem schedule_loses_nothing (store : Store) (d : MemoryMedium) (options : Options) (now : Nat)
    (entropy : UInt64) (steps : List Step) (t : FileTree) :
    let moments :=
      (((start store (some (.memory d)) options now entropy).history steps).run t).1
    (∀ m ∈ moments, m.event.isKept = true →
      ∃ e, m.after.medium = some (.memory e) ∧ e.saved = some m.after.store.image) ∧
    (∀ m ∈ moments, m.event.isFailed = true → m.after.medium = m.before.medium) ∧
    (∀ before failed between next rest fault result,
      moments = before ++ failed :: (between ++ next :: rest) →
      failed.event = .reported (.error fault) → (∀ m ∈ between, m.event.isKept = false) →
      next.event = .reported result → result ≠ .ok none) ∧
    ∀ before m rest e, moments = before ++ m :: rest → m.event.isReport = true →
      m.before.medium = some (.memory e) → e.available = true →
      0 < options.schedule.saveEvery.commands.toNat →
      sinceKept ((before ++ [m]).map (·.event)) < options.schedule.saveEvery.commands.toNat := by
  intro moments
  have htracked := tracked_start store d options now entropy
  refine ⟨fun m hm hk => ?_, fun m hm hf => ?_, ?_, ?_⟩
  · obtain ⟨before, rest, hsplit⟩ := List.mem_iff_append.mp hm
    obtain ⟨-, e, -, hfollows⟩ := htracked.history hsplit
    exact hfollows.saved_of_isKept hk
  · obtain ⟨before, rest, hsplit⟩ := List.mem_iff_append.mp hm
    obtain ⟨-, e, -, hfollows⟩ := htracked.history hsplit
    exact hfollows.medium_of_isFailed hf
  · intro before failed between next rest fault result hsplit hfailed hbetween hnext
    rw [← List.cons_append, ← List.append_assoc] at hsplit
    obtain ⟨hbefore, e, -, hfollows⟩ := htracked.history hsplit
    rw [hnext] at hfollows
    refine hfollows.reported_ne_none
      (hbefore.due (before.map (·.event)) fault (between.map (·.event)) ?_ ?_)
    · simp [hfailed]
    · simpa using hbetween
  · intro before m rest e hsplit hreport hm he hc
    obtain ⟨hpast, e', hm', hfollows⟩ := htracked.history hsplit
    obtain rfl : e' = e := by simpa [hm] using hm'.symm
    rw [List.nil_append] at hpast
    rw [List.map_append, List.map_singleton, ← (hpast.step hm hfollows).counted]
    rw [← hpast.cadences] at hc ⊢
    exact hfollows.sinceSave_lt hreport he hc

/-- A report fails during an outage, and the next one, after the outage, saves. -/
theorem schedule_loses_nothing_outage :
    let options : Options := { schedule := ⟨⟨1, 0⟩, ⟨0, 0⟩⟩ }
    let steps := [.setAvailable false, .afterCommand 0, .setAvailable true, .afterCommand 0]
    ∃ gone failed back next,
      (((start {} (some (.memory {})) options 0 0).history steps).run {}).1 =
        [gone, failed, back, next] ∧
      failed.event = .reported (.error .unavailable) ∧
      (∃ result, next.event = .reported result ∧ result ≠ .ok none) ∧
      next.event.isKept = true ∧
      ∃ e, next.after.medium = some (.memory e) ∧ e.saved = some next.after.store.image := by
  intro options steps
  obtain ⟨hkept, -, hretry, -⟩ := schedule_loses_nothing {} {} options 0 0 steps {}
  have hmoments : ∃ gone failed back next,
      (((start {} (some (.memory {})) options 0 0).history steps).run {}).1 =
        [gone, failed, back, next] ∧
      failed.event = .reported (.error .unavailable) ∧ back.event.isKept = false ∧
      next.event = .reported (.ok (some .save)) := ⟨_, _, _, _, rfl, rfl, rfl, rfl⟩
  obtain ⟨gone, failed, back, next, hall, hfailed, hback, hnext⟩ := hmoments
  have hkeeps : next.event.isKept = true := by
    rw [hnext]
    rfl
  refine ⟨gone, failed, back, next, hall, hfailed, ⟨_, hnext, ?_⟩, hkeeps, ?_⟩
  · exact hretry [gone] failed [back] next [] _ _ hall hfailed (by simpa using hback) hnext
  · refine hkept next ?_ hkeeps
    rw [hall]
    simp

end Interpreter

end DiceScript
