import DiceScript.Proofs.Recursion.Causes
import DiceScript.Proofs.Recursion.Termination

/-!
# The budgets of loops

Two counters bound the turns of loops. Each loop counts its own, from nothing whenever it is come to,
and all loops of a run count on one counter that never goes back. Both are asked before a body is
started. A loop can lie in a body or a condition of another, or in a function that is called there, so
neither counter shows what the other one counts.

`Told` is the recursion of a run with an account: of each loop that was come to, how many bodies it
started and with what it failed, if one of its own steps failed. Nothing in it looks at a counter. The
theorems below are about the accounts.

- `Loop`, `Account`, `Told` — runs with their accounts.
- `Ends.exists_told`, `Told.account_eq` — every run has an account, and only one.
- `Paid` — what is left of the budgets, from one place in a plan to a later one.
- `Told.paid` — along every run.
- `loops_keep_budgets` — whole programs, and the numbers that failures carry.
-/

namespace DiceScript

namespace Recursion

open EStateM (Result)

variable {c : Context} {α β : Type}

/-! ## Accounts -/

structure Loop where
  what : Guarded
  /-- How many times its body was started. -/
  bodies : Nat
  /-- The cause with which a step of its own failed, not one in its body or its condition. -/
  failed : Option Cause

/-- What a plan has to tell. -/
structure Account where
  /-- How many bodies the loop has started whose turn it is. -/
  bodies : Nat := 0
  /-- The cause with which a step of the plan failed. -/
  failed : Option Cause := none
  /-- The loops that were come to on the way. -/
  loops : List Loop := []

/-- The loop of which a task is a turn. -/
def Task.loop? : Task → Option Guarded
  | .whileTurn .. => some .whileLoop
  | .doWhileTurn .. => some .doWhileLoop
  | _ => none

def Task.isBlock : Task → Bool
  | .block _ => true
  | _ => false

namespace Account

def total (a : Account) : Nat := a.bodies + (a.loops.map (·.bodies)).sum

def andThen (a b : Account) : Account :=
  { bodies := a.bodies + b.bodies, failed := b.failed, loops := a.loops ++ b.loops }

@[simp] theorem empty_andThen (a : Account) : Account.andThen {} a = a := by
  simp [andThen]

@[simp] theorem total_empty : Account.total {} = 0 := rfl

@[simp] theorem total_andThen (a b : Account) : (a.andThen b).total = a.total + b.total := by
  simp only [total, andThen, List.map_append, List.sum_append]
  omega

/-- What a call adds. A turn in a frame of its own is the first of a new loop, one without is the next
of the loop that calls for it; and the block that a turn calls for is its body. -/
def ofCall (turn : Bool) (frame : Option Bindings) (task : Task) (a : Account) : Account :=
  match task.loop?, frame with
  | some what, some _ => { loops := ⟨what, a.bodies, a.failed⟩ :: a.loops }
  | some _, none => a
  | none, _ => { bodies := if turn && task.isBlock then 1 else 0, loops := a.loops }

end Account

/-- How a plan ends, and its account. Whether it is the plan of a turn says what its calls are. -/
inductive Told (c : Context) :
    Bool → {α : Type} → Plan α → Machine → Result Cause Machine α → Account → Prop where
  | done {turn : Bool} {α : Type} (a : α) (m : Machine) : Told c turn (.done a) m (.ok a m) {}
  | act {turn : Bool} {α β : Type} {step : Run β} {next : β → Plan α} {m m' : Machine} {b : β}
      {r : Result Cause Machine α} {a : Account} :
      step m = .ok b m' → Told c turn (next b) m' r a → Told c turn (.act step next) m r a
  | actFails {turn : Bool} {α β : Type} {step : Run β} {next : β → Plan α} {m m' : Machine}
      {cause : Cause} :
      step m = .error cause m' →
        Told c turn (.act step next) m (.error cause m') { failed := some cause }
  | call {turn : Bool} {α : Type} {depth : Nat} {frame : Option Bindings} {task : Task}
      {next : Value → Plan α} {m m' : Machine} {v : Value} {r : Result Cause Machine α}
      {a b : Account} :
      Told c task.loop?.isSome (plan c depth task) (enter m frame) (.ok v m') a →
      Told c turn (next v) (leave m' frame) r b →
        Told c turn (.call depth frame task next) m r ((a.ofCall turn frame task).andThen b)
  | callFails {turn : Bool} {α : Type} {depth : Nat} {frame : Option Bindings} {task : Task}
      {next : Value → Plan α} {m m' : Machine} {cause : Cause} {a : Account} :
      Told c task.loop?.isSome (plan c depth task) (enter m frame) (.error cause m') a →
        Told c turn (.call depth frame task next) m (.error cause (leave m' frame))
          (a.ofCall turn frame task)

section Accounts

variable {p : Plan α} {m : Machine} {r : Result Cause Machine α} {turn : Bool}

theorem Told.ends {a : Account} (h : Told c turn p m r a) : Ends c p m r := by
  induction h with
  | done a m => exact .done a m
  | act hstep _ ih => exact .act hstep ih
  | actFails hstep => exact .actFails hstep
  | call _ _ ihcall ihnext => exact .call ihcall ihnext
  | callFails _ ihcall => exact .callFails ihcall

theorem Ends.exists_told (h : Ends c p m r) : ∀ turn, ∃ a, Told c turn p m r a := by
  induction h with
  | done a m =>
    intro turn
    exact ⟨_, .done a m⟩
  | act hstep _ ih =>
    intro turn
    obtain ⟨a, htold⟩ := ih turn
    exact ⟨a, .act hstep htold⟩
  | actFails hstep =>
    intro turn
    exact ⟨_, .actFails hstep⟩
  | call _ _ ihcall ihnext =>
    intro turn
    obtain ⟨a, hcall⟩ := ihcall _
    obtain ⟨b, hnext⟩ := ihnext turn
    exact ⟨_, .call hcall hnext⟩
  | callFails _ ihcall =>
    intro turn
    obtain ⟨a, hcall⟩ := ihcall _
    exact ⟨_, .callFails hcall⟩

/-- One run has one account. -/
theorem Told.account_eq {a a' : Account} (h : Told c turn p m r a) (h' : Told c turn p m r a') :
    a = a' := by
  induction h generalizing a' with
  | done a m =>
    cases h'
    rfl
  | act hstep _ ih =>
    cases h' with
    | act hstep' hnext =>
      obtain ⟨rfl, rfl⟩ := Result.ok.inj (hstep.symm.trans hstep')
      exact ih hnext
    | actFails hstep' => cases hstep.symm.trans hstep'
  | actFails hstep =>
    cases h' with
    | act hstep' _ => cases hstep.symm.trans hstep'
    | actFails _ => rfl
  | call hcall _ ihcall ihnext =>
    cases h' with
    | call hcall' hnext =>
      obtain ⟨rfl, rfl⟩ := Result.ok.inj (hcall.ends.unique hcall'.ends)
      rw [ihcall hcall', ihnext hnext]
    | callFails hcall' => cases hcall.ends.unique hcall'.ends
  | @callFails _ _ _ frame _ _ _ m₁ cause _ hcall ihcall =>
    generalize hend : Result.error cause (leave m₁ frame) = r' at h'
    cases h' with
    | call hcall' _ => cases hcall.ends.unique hcall'.ends
    | callFails hcall' =>
      obtain ⟨rfl, rfl⟩ := Result.error.inj (hcall.ends.unique hcall'.ends)
      rw [ihcall hcall']

/-- Accounts are of loops only. -/
theorem Told.what_eq {a : Account} (h : Told c turn p m r a) :
    ∀ loop ∈ a.loops, loop.what = .whileLoop ∨ loop.what = .doWhileLoop := by
  have hcall : ∀ {turn : Bool} {frame : Option Bindings} {task : Task} {a : Account},
      (∀ loop ∈ a.loops, loop.what = .whileLoop ∨ loop.what = .doWhileLoop) →
      ∀ loop ∈ (a.ofCall turn frame task).loops,
        loop.what = .whileLoop ∨ loop.what = .doWhileLoop := by
    intro turn frame task a ha
    cases task <;> cases frame <;> simpa [Account.ofCall, Task.loop?] using ha
  induction h with
  | done a m =>
    intro loop hmem
    cases hmem
  | act _ _ ih => exact ih
  | actFails _ =>
    intro loop hmem
    cases hmem
  | call _ _ ihcall ihnext =>
    intro loop hmem
    rcases List.mem_append.mp hmem with hmem | hmem
    · exact hcall ihcall loop hmem
    · exact ihnext loop hmem
  | callFails _ ihcall => exact hcall ihcall

end Accounts

/-! ## Places in a turn -/

namespace Stage

def loop? : Stage → Option Guarded
  | .plain => none
  | .fresh what _ => some what
  | .charged what _ => some what
  | .started what _ => some what

/-- The bodies that the loop has started up to here. -/
def spent : Stage → Nat
  | .plain => 0
  | .fresh _ taken => taken
  | .charged _ taken => taken
  | .started _ taken => taken + 1

/-- The turns that are counted and whose bodies are not started yet. -/
def paid : Stage → Nat
  | .charged .. => 1
  | _ => 0

theorem paid_eq_zero {s : Stage} : s.paid = 0 ↔ s.isCharged = false := by
  cases s <;> simp [paid, isCharged]

/-- The loop whose turn it is, as it stands after an account. -/
def current (s : Stage) (a : Account) : Option Loop :=
  s.loop?.map fun what => ⟨what, s.spent + a.bodies, a.failed⟩

end Stage

theorem Task.loop?_stage (task : Task) : task.stage.loop? = task.loop? := by
  cases task <;> rfl

structure Ready (limits : Limits) (s : Stage) (m : Machine) : Prop where
  total : m.iterations ≤ limits.maxTotalLoopIterations.toNat
  own : s.spent + s.paid ≤ limits.maxLoopIterations.toNat

/-- A loop gave up: it had started as many bodies as one loop may, or all loops together had started as
many as they may. -/
def GaveUp (limits : Limits) (s : Stage) (m : Machine) (a : Account) (cause : Cause) : Prop :=
  ∃ loop, (loop ∈ a.loops ∨ s.current a = some loop) ∧ loop.failed = some cause ∧
    ((cause = .timeout loop.what limits.maxLoopIterations ∧
        loop.bodies = limits.maxLoopIterations.toNat) ∨
      (cause = .timeout loop.what limits.maxTotalLoopIterations ∧
        m.iterations + a.total = limits.maxTotalLoopIterations.toNat + s.paid))

/-- What a plan did with the budgets between two places. -/
structure Paid (limits : Limits) (s s' : Stage) (m : Machine) (r : Result Cause Machine α)
    (a : Account) : Prop where
  total : m.iterations + a.total ≤ limits.maxTotalLoopIterations.toNat + s.paid
  own : s.spent + a.bodies ≤ limits.maxLoopIterations.toNat
  loops : ∀ loop ∈ a.loops, loop.bodies ≤ limits.maxLoopIterations.toNat
  /-- Only turns start bodies. -/
  noTurn : s.loop? = none → a.bodies = 0
  ok : ∀ v n, r = .ok v n → Ready limits s' n ∧ s'.loop? = s.loop? ∧
    s'.spent = s.spent + a.bodies ∧ n.iterations + s.paid = m.iterations + a.total + s'.paid
  error : ∀ cause n, r = .error cause n → cause.OfStep limits ∨ GaveUp limits s m a cause

namespace Paid

variable {limits : Limits} {s s' s'' : Stage} {m n : Machine} {r : Result Cause Machine α}
  {a a' : Account}

/-- A step that starts nothing. -/
theorem step {b : β} (h : Ready limits s m) (h' : Ready limits s' n) (hloop : s'.loop? = s.loop?)
    (hspent : s'.spent = s.spent) (hcount : n.iterations + s.paid = m.iterations + s'.paid) :
    Paid limits s s' m (.ok b n) {} where
  total := by
    have htotal := h.total
    simp only [Account.total_empty]
    omega
  own := by
    have hown := h.own
    simp only [Nat.add_zero]
    omega
  loops := by
    intro loop hloop
    cases hloop
  noTurn := fun _ => rfl
  ok := by
    rintro _ _ ⟨⟩
    exact ⟨h', hloop, hspent, hcount⟩
  error := by
    intro cause n hr
    cases hr

/-- A step that fails. -/
theorem fails {cause : Cause} (h : Ready limits s m)
    (hcause : cause.OfStep limits ∨ GaveUp limits s m { failed := some cause } cause) :
    Paid limits s s' m (.error cause n : Result Cause Machine α) { failed := some cause } where
  total := by
    have htotal := h.total
    show m.iterations + 0 ≤ _
    omega
  own := by
    have hown := h.own
    simp only [Nat.add_zero]
    omega
  loops := by
    intro loop hloop
    cases hloop
  noTurn := fun _ => rfl
  ok := by
    intro v n hr
    cases hr
  error := by
    rintro _ _ ⟨⟩
    exact hcause

theorem andThen {b : β} (h : Paid limits s s' m (.ok b n) a) (h' : Paid limits s' s'' n r a') :
    Paid limits s s'' m r (a.andThen a') := by
  obtain ⟨hready, hloop, hspent, hcount⟩ := h.ok b n rfl
  have htotal := h'.total
  have hown := h'.own
  refine ⟨?_, ?_, ?_, ?_, ?_, ?_⟩
  · rw [Account.total_andThen]
    omega
  · show s.spent + (a.bodies + a'.bodies) ≤ _
    omega
  · intro loop hmem
    rcases List.mem_append.mp hmem with hmem | hmem
    · exact h.loops loop hmem
    · exact h'.loops loop hmem
  · intro hnone
    have hfirst := h.noTurn hnone
    have hsecond := h'.noTurn (hloop.trans hnone)
    show a.bodies + a'.bodies = 0
    omega
  · intro v n' hr
    obtain ⟨hready', hloop', hspent', hcount'⟩ := h'.ok v n' hr
    refine ⟨hready', hloop'.trans hloop, ?_, ?_⟩
    · show s''.spent = s.spent + (a.bodies + a'.bodies)
      omega
    · rw [Account.total_andThen]
      omega
  · intro cause n' hr
    rcases h'.error cause n' hr with hstep | ⟨loop, hmem, hfailed, hwhy⟩
    · exact .inl hstep
    · refine .inr ⟨loop, ?_, hfailed, ?_⟩
      · rcases hmem with hmem | hcurrent
        · exact .inl (List.mem_append_right _ hmem)
        · right
          rw [← hcurrent]
          simp only [Stage.current, Account.andThen, hloop, hspent, Nat.add_assoc]
      · rcases hwhy with hwhy | ⟨hwhy, hspare⟩
        · exact .inl hwhy
        · refine .inr ⟨hwhy, ?_⟩
          rw [Account.total_andThen]
          omega

theorem congr {t : Stage} (hloop : t.loop? = s.loop?) (hspent : t.spent = s.spent)
    (hpaid : t.paid = s.paid) (h : Paid limits t s' m r a) : Paid limits s s' m r a := by
  have hcurrent : t.current a = s.current a := by
    simp only [Stage.current, hloop, hspent]
  obtain ⟨htotal, hown, hloops, hnoTurn, hok, herror⟩ := h
  simp only [GaveUp, hcurrent, hloop, hspent, hpaid] at htotal hown hnoTurn hok herror
  exact ⟨htotal, hown, hloops, hnoTurn, hok, herror⟩

/-- Where a plan that failed would have gone on does not matter. -/
theorem anywhere {cause : Cause} (h : Paid limits s s' m (.error cause n : Result Cause Machine α) a) :
    Paid limits s s'' m (.error cause n : Result Cause Machine β) a := by
  refine ⟨h.total, h.own, h.loops, h.noTurn, ?_, ?_⟩
  · intro v n' hr
    cases hr
  · rintro _ _ ⟨⟩
    exact h.error cause n rfl

end Paid

/-! ## Calls -/

def leaving (frame : Option Bindings) : Result Cause Machine α → Result Cause Machine α
  | .ok v m => .ok v (leave m frame)
  | .error cause m => .error cause (leave m frame)

@[simp] theorem iterations_enter (m : Machine) (frame : Option Bindings) :
    (enter m frame).iterations = m.iterations := by
  cases frame <;> rfl

@[simp] theorem iterations_leave (m : Machine) (frame : Option Bindings) :
    (leave m frame).iterations = m.iterations := by
  cases frame with
  | none => rfl
  | some frame =>
    show m.pop.iterations = m.iterations
    unfold Machine.pop
    split <;> rfl

section Calls

variable {limits : Limits} {s s' s₀ : Stage} {m : Machine} {r : Result Cause Machine α}
  {frame : Option Bindings} {a : Account}

/-- What is no turn of a loop is called for: the body of a turn that is paid for, or anything else. -/
theorem Paid.within (hready : Ready limits s m) (hs₀ : s₀.paid = 0) (hs' : s'.paid = 0)
    (hloop : s'.loop? = s.loop?) (hspent : s'.spent = s.spent + s.paid)
    (h : Paid limits .plain s₀ (enter m frame) r a) :
    Paid limits s s' m (leaving frame r) { bodies := s.paid, loops := a.loops } := by
  have hsum : Account.total { bodies := s.paid, loops := a.loops } = s.paid + a.total := by
    simp [Account.total, h.noTurn rfl]
  have hplain : Stage.paid .plain = 0 := rfl
  have htotal := h.total
  have hown := hready.own
  rw [iterations_enter, hplain] at htotal
  refine ⟨?_, hown, h.loops, ?_, ?_, ?_⟩
  · rw [hsum]
    omega
  · intro hnone
    show s.paid = 0
    cases s with
    | plain => rfl
    | _ => cases hnone
  · intro v n hr
    cases r with
    | error cause n₀ => cases hr
    | ok v₀ n₀ =>
      obtain ⟨rfl, rfl⟩ := Result.ok.inj hr
      obtain ⟨hready₀, -, -, hcount⟩ := h.ok v₀ n₀ rfl
      rw [iterations_enter, hs₀, hplain] at hcount
      refine ⟨⟨?_, ?_⟩, hloop, hspent, ?_⟩
      · rw [iterations_leave]
        exact hready₀.total
      · omega
      · rw [iterations_leave, hsum]
        omega
  · intro cause n hr
    cases r with
    | ok v n₀ => cases hr
    | error cause₀ n₀ =>
      obtain ⟨rfl, rfl⟩ := Result.error.inj hr
      rcases h.error cause₀ n₀ rfl with hstep | ⟨loop, hmem | hcurrent, hfailed, hwhy⟩
      · exact .inl hstep
      · refine .inr ⟨loop, .inl hmem, hfailed, hwhy.imp id ?_⟩
        rintro ⟨hwhy, hspare⟩
        rw [iterations_enter, hplain] at hspare
        refine ⟨hwhy, ?_⟩
        rw [hsum]
        omega
      · cases hcurrent

/-- A loop is come to. -/
theorem Paid.loop {what : Guarded} (hs₀ : s₀.paid = 0)
    (h : Paid limits (.fresh what 0) s₀ (enter m frame) r a) :
    Paid limits .plain .plain m (leaving frame r)
      { loops := ⟨what, a.bodies, a.failed⟩ :: a.loops } := by
  have htotal := h.total
  have hown := h.own
  simp only [Account.total, iterations_enter, Stage.paid, Stage.spent] at htotal hown
  have hsum : Account.total { loops := ⟨what, a.bodies, a.failed⟩ :: a.loops } = a.total := by
    simp [Account.total]
  refine ⟨?_, ?_, ?_, fun _ => rfl, ?_, ?_⟩
  · rw [hsum]
    exact htotal
  · exact Nat.zero_le _
  · intro loop hmem
    rcases List.mem_cons.mp hmem with rfl | hmem
    · show a.bodies ≤ _
      omega
    · exact h.loops loop hmem
  · intro v n hr
    cases r with
    | error cause n₀ => cases hr
    | ok v₀ n₀ =>
      obtain ⟨rfl, rfl⟩ := Result.ok.inj hr
      obtain ⟨hready₀, -, -, hcount⟩ := h.ok v₀ n₀ rfl
      rw [hs₀, iterations_enter] at hcount
      refine ⟨⟨?_, Nat.zero_le _⟩, rfl, rfl, ?_⟩
      · rw [iterations_leave]
        exact hready₀.total
      · rw [hsum, iterations_leave]
        exact hcount
  · intro cause n hr
    cases r with
    | ok v n₀ => cases hr
    | error cause₀ n₀ =>
      obtain ⟨rfl, rfl⟩ := Result.error.inj hr
      rcases h.error cause₀ n₀ rfl with hstep | ⟨loop, hmem, hfailed, hwhy⟩
      · exact .inl hstep
      · refine .inr ⟨loop, .inl ?_, hfailed, ?_⟩
        · rcases hmem with hmem | hcurrent
          · exact List.mem_cons_of_mem _ hmem
          · have hnew : (⟨what, 0 + a.bodies, a.failed⟩ : Loop) = loop := Option.some.inj hcurrent
            rw [← hnew, Nat.zero_add]
            exact List.mem_cons_self
        · rw [hsum]
          rwa [iterations_enter] at hwhy

end Calls

section Made

variable {limits : Limits} {depth at' : Nat} {stage s₀ : Stage} {m : Machine}
  {frame : Option Bindings} {task : Task} {next : Value → Plan α}

/-- Whatever a plan calls for finds the counters within their limits. -/
theorem Ready.call (hp : Plan.Made c depth stage (.call at' frame task next))
    (hready : Ready limits stage m) : Ready limits task.stage (enter m frame) := by
  have htotal : (enter m frame).iterations ≤ limits.maxTotalLoopIterations.toNat := by
    rw [iterations_enter]
    exact hready.total
  refine ⟨htotal, ?_⟩
  cases hp with
  | loop htask _ =>
    rw [htask]
    exact Nat.zero_le _
  | again htask =>
    rw [htask]
    exact hready.own
  | _ => exact Nat.zero_le _

/-- What a call did with the budgets, and where the plan goes on. -/
theorem Paid.call {r : Result Cause Machine Value} {a : Account}
    (hp : Plan.Made c depth stage (.call at' frame task next)) (hready : Ready limits stage m)
    (hs₀ : s₀.paid = 0) (h : Paid limits task.stage s₀ (enter m frame) r a) :
    ∃ s', (∀ v, Plan.Made c depth s' (next v)) ∧
      Paid limits stage s' m (leaving frame r) (a.ofCall stage.loop?.isSome frame task) := by
  cases hp with
  | node hstage hnext =>
    have hpaid := Stage.paid_eq_zero.mpr hstage
    refine ⟨stage, hnext, ?_⟩
    have hwithin : Paid limits stage stage m _ _ := .within hready hs₀ hpaid rfl (by omega) h
    simpa [Account.ofCall, Task.loop?, Task.isBlock, hpaid] using hwithin
  | block hnext => exact ⟨_, hnext, .within hready hs₀ rfl rfl rfl h⟩
  | function hnext => exact ⟨_, hnext, .within hready hs₀ rfl rfl rfl h⟩
  | body hnext => exact ⟨_, hnext, .within hready hs₀ rfl rfl rfl h⟩
  | loop htask hnext =>
    rename_i what
    have hloop : task.loop? = some what := by rw [← Task.loop?_stage, htask]; rfl
    refine ⟨_, hnext, ?_⟩
    rw [htask] at h
    simpa [Account.ofCall, hloop] using Paid.loop hs₀ h
  | again htask =>
    rename_i what taken
    have hloop : task.loop? = some what := by rw [← Task.loop?_stage, htask]; rfl
    refine ⟨s₀, fun v => .done v (Stage.paid_eq_zero.mp hs₀), ?_⟩
    rw [htask] at h
    have hsame : leaving none r = r := by cases r <;> rfl
    have hstarted : Paid limits (.started what taken) s₀ m r a :=
      Paid.congr (t := .fresh what (taken + 1)) rfl rfl rfl h
    simpa [Account.ofCall, hloop, hsame] using hstarted

end Made

/-- The budgets along a whole plan. -/
theorem Told.paid {turn : Bool} {p : Plan α} {m : Machine} {r : Result Cause Machine α} {a : Account}
    (h : Told c turn p m r a) : ∀ {depth : Nat} {s : Stage}, Plan.Made c depth s p →
      s.loop?.isSome = turn → Ready c.options.limits s m →
        ∃ s', s'.paid = 0 ∧ Paid c.options.limits s s' m r a := by
  induction h with
  | done a m =>
    intro depth s hp hturn hready
    cases hp with
    | done _ hs =>
      exact ⟨s, Stage.paid_eq_zero.mpr hs, .step hready hready rfl rfl rfl⟩
  | @act _ _ _ step next m m' b r a hstep _ ih =>
    intro depth s hp hturn hready
    cases hp with
    | act _ hprimitive hnext =>
      have hcount : m'.iterations = m.iterations := by
        have hchanges := (hprimitive.changes m).2
        rwa [hstep] at hchanges
      have hready' : Ready c.options.limits s m' := ⟨hcount ▸ hready.total, hready.own⟩
      obtain ⟨s', hs', hpaid⟩ := ih (hnext b) hturn hready'
      have hfirst : Paid c.options.limits s s m (.ok b m') {} :=
        .step hready hready' rfl rfl (by omega)
      exact ⟨s', hs', a.empty_andThen ▸ hfirst.andThen hpaid⟩
    | stop _ => cases hstep
    | charge hroom hnext =>
      rename_i what taken _ _
      rw [Run.run_chargeLoop] at hstep
      split at hstep
      · cases hstep
      · rename_i hspare
        obtain ⟨rfl, rfl⟩ := Result.ok.inj hstep
        have hready' : Ready c.options.limits (.charged what taken)
            { m with iterations := m.iterations + 1 } := ⟨Nat.le_of_not_lt hspare, hroom⟩
        obtain ⟨s', hs', hpaid⟩ := ih (hnext ()) hturn hready'
        have hfirst : Paid c.options.limits (.fresh what taken) (.charged what taken) m
            (.ok () { m with iterations := m.iterations + 1 }) {} :=
          .step hready hready' rfl rfl rfl
        exact ⟨s', hs', a.empty_andThen ▸ hfirst.andThen hpaid⟩
  | @actFails _ _ _ step next m m' cause hstep =>
    intro depth s hp hturn hready
    refine ⟨.plain, rfl, .fails hready ?_⟩
    cases hp with
    | act _ hprimitive _ => exact .inl (hprimitive.fails m cause m' hstep)
    | stop hspent =>
      rename_i what taken
      have hcause : cause = .timeout what c.options.limits.maxLoopIterations := by
        cases hstep
        rfl
      have htaken : taken = c.options.limits.maxLoopIterations.toNat :=
        Nat.le_antisymm hready.own hspent
      exact .inr ⟨⟨what, taken, some cause⟩, .inr rfl, rfl, .inl ⟨hcause, htaken⟩⟩
    | charge hroom _ =>
      rename_i what taken _ _
      rw [Run.run_chargeLoop] at hstep
      split at hstep
      · rename_i hspent
        have hcause : cause = .timeout what c.options.limits.maxTotalLoopIterations := by
          cases hstep
          rfl
        have hall : m.iterations = c.options.limits.maxTotalLoopIterations.toNat :=
          Nat.le_antisymm hready.total (Nat.le_of_lt_succ hspent)
        exact .inr ⟨⟨what, taken, some cause⟩, .inr rfl, rfl, .inr ⟨hcause, hall⟩⟩
      · cases hstep
  | @call _ _ _ frame task next m m' v r a b _ _ ihcall ihnext =>
    intro depth s hp hturn hready
    obtain ⟨s₀, hs₀, hcall⟩ := ihcall (made_plan c _ task) (by rw [Task.loop?_stage])
      (hready.call hp)
    obtain ⟨s', hnext, hpaid⟩ := Paid.call hp hready hs₀ hcall
    rw [hturn] at hpaid
    obtain ⟨hready', hloop, -, -⟩ := hpaid.ok v _ rfl
    obtain ⟨s'', hs'', hrest⟩ := ihnext (hnext v) (by rw [hloop, hturn]) hready'
    exact ⟨s'', hs'', hpaid.andThen hrest⟩
  | @callFails _ _ _ frame task next m m' cause a _ ihcall =>
    intro depth s hp hturn hready
    obtain ⟨s₀, hs₀, hcall⟩ := ihcall (made_plan c _ task) (by rw [Task.loop?_stage])
      (hready.call hp)
    obtain ⟨s', -, hpaid⟩ := Paid.call hp hready hs₀ hcall
    rw [hturn] at hpaid
    exact ⟨.plain, rfl, hpaid.anywhere⟩

/-! ## Whole programs -/

def bodiesOf (loops : List Loop) : Nat := (loops.map (·.bodies)).sum

/-- One of some loops gave up and names that number: it had started as many bodies as one loop may, or
all loops together had started as many as they may. -/
def RanOut (limits : Limits) (loops : List Loop) (what : Guarded) (iterations : Option UInt64) : Prop :=
  ∃ loop ∈ loops, ∃ n, iterations = some n ∧ loop.what = what ∧ loop.failed = some (.timeout what n) ∧
    ((n = limits.maxLoopIterations ∧ loop.bodies = limits.maxLoopIterations.toNat) ∨
      (n = limits.maxTotalLoopIterations ∧
        bodiesOf loops = limits.maxTotalLoopIterations.toNat))

/-- The number that a failure carries is accounted for by its kind. -/
def Accounted (limits : Limits) (loops : List Loop) (failure : Failure) : Prop :=
  match failure.kind with
  | .whileLoopTimeout => RanOut limits loops .whileLoop failure.iterations
  | .doWhileLoopTimeout => RanOut limits loops .doWhileLoop failure.iterations
  | .exponentiationTimeout => failure.iterations = some limits.maxExponentSteps
  | .diceRollTimeout => failure.iterations = some limits.maxDiceDraws
  | .storageError => False
  | _ => failure.iterations = none

theorem accounted_of_ofStep {limits : Limits} {loops : List Loop} {cause : Cause}
    (actions : List String) (h : cause.OfStep limits) :
    Accounted limits loops (cause.failure actions) := by
  cases cause with
  | timeout what n =>
    cases what with
    | exponentiation => exact congrArg some h
    | diceRoll => exact congrArg some h
    | whileLoop => exact absurd h id
    | doWhileLoop => exact absurd h id
  | _ => rfl

theorem accounted_of_ranOut {limits : Limits} {loops : List Loop} {what : Guarded} {n : UInt64}
    (actions : List String) (hwhat : what = .whileLoop ∨ what = .doWhileLoop)
    (h : RanOut limits loops what (some n)) :
    Accounted limits loops ((Cause.timeout what n).failure actions) := by
  rcases hwhat with rfl | rfl
  · exact h
  · exact h

/-- Loops keep their budgets. Of every run of an interpreter there is one account; in it no loop starts
more bodies than one may, and all loops together start no more than they may. A loop that gives up has
started exactly as many, or all of them together have, and that is the number which the failure carries.
Powers and rolls name their limits, other failures carry no number, and no run fails for its storage. -/
theorem loops_keep_budgets (i : Interpreter) (program : Node) (identity : Identity) :
    let c : Context := ⟨i.options, identity⟩
    let limits := i.options.limits
    let start := Machine.start i.store i.dice
    ∃ a : Account,
      (∀ r b, Told c false (plan c 0 (.evaluate program)) start r b ↔
        r = Run.program c program start ∧ b = a) ∧
      (∀ loop ∈ a.loops, loop.bodies ≤ limits.maxLoopIterations.toNat) ∧
      bodiesOf a.loops ≤ limits.maxTotalLoopIterations.toNat ∧
      match (i.execute program identity).1 with
      | .ok _ => True
      | .error failure => Accounted limits a.loops failure := by
  intro c limits start
  have hends := carriedOut_program c program start
  obtain ⟨a, htold⟩ := hends.exists_told false
  have hready : Ready limits .plain start := ⟨Nat.zero_le _, Nat.zero_le _⟩
  obtain ⟨s, -, hpaid⟩ := htold.paid (made_plan c 0 (.evaluate program)) rfl hready
  have hsum : start.iterations + a.total = bodiesOf a.loops := by
    simp [Account.total, bodiesOf, hpaid.noTurn rfl, start, Machine.start]
  refine ⟨a, ?_, hpaid.loops, ?_, ?_⟩
  · intro r b
    constructor
    · intro h
      obtain rfl := h.ends.unique hends
      exact ⟨rfl, h.account_eq htold⟩
    · rintro ⟨rfl, rfl⟩
      exact htold
  · have htotal := hpaid.total
    rw [hsum] at htotal
    exact htotal
  · unfold Interpreter.execute Interpreter.run
    dsimp only
    cases hr : Run.program c program start with
    | ok v m => trivial
    | error cause m =>
      show Accounted limits a.loops (cause.failure _)
      rcases hpaid.error cause m hr with hstep | ⟨loop, hmem | hcurrent, hfailed, hwhy⟩
      · exact accounted_of_ofStep _ hstep
      · rw [hsum] at hwhy
        have hwhat := htold.what_eq loop hmem
        rcases hwhy with ⟨rfl, hspent⟩ | ⟨rfl, hspent⟩
        · exact accounted_of_ranOut _ hwhat ⟨loop, hmem, _, rfl, rfl, hfailed, .inl ⟨rfl, hspent⟩⟩
        · exact accounted_of_ranOut _ hwhat ⟨loop, hmem, _, rfl, rfl, hfailed, .inr ⟨rfl, hspent⟩⟩
      · cases hcurrent

end Recursion

end DiceScript
