import DiceScript.Proofs.Codec.Scenarios
import DiceScript.Proofs.Codec.Texts
import DiceScript.Proofs.Command.Inputs
import DiceScript.Proofs.Values.Sameness
import DiceScript.Scenario.Play

/-!
# Checking and recording scenarios

Playing a scenario reads the programs of its steps and runs them one after another; what the steps
expect has no part in it. So a check compares outcomes that are there before any of them is judged,
and its answer is the first step that refuses. Put in the place of the expectations, the outcomes are
a recording: it is played alike, and every outcome accepts itself, since its floats are finite.

- `Plays` — what is observed at the steps, one by one.
- `firstMismatch?_cases` — the first step that refuses what was observed.
- `Plays.finite` — what is observed is finite.
- `Plays.recorded` — a recording is played alike.
- `checks_judge_exactly_and_recordings_pass` — scenarios in files.
-/

namespace DiceScript

open Files (Disk FileTree)

/-! ## Outcomes accept themselves -/

theorem Node.FiniteFloats.numbers {n : Node} (h : n.FiniteFloats) :
    n.Floats fun x => x.isNaN = false := by
  induction h with
  | @intro n hp _ ih =>
    refine .intro ?_ ih
    cases n with
    | float x => exact Number.isNaN_of_isFinite hp
    | _ => trivial

namespace Value

mutual

/-- A finite value is the same as itself. -/
theorem sameAs_self (v : Value) (h : v.All FinitePart) : v.sameAs v = true := by
  match v with
  | .integer n => simp [sameAs]
  | .float x => exact Number.beq_self (Number.isNaN_of_isFinite h.self)
  | .string s => simp [sameAs]
  | .boolean b => simp [sameAs]
  | .list items => exact sameItems_self items (all_list.mp h).2
  | .function f => exact Function.sameAs_self fun n hn => (h.self n hn).numbers
  | .undefined => rfl

theorem sameItems_self (items : List Value) (h : ∀ v ∈ items, v.All FinitePart) :
    sameItems items items = true := by
  match items with
  | [] => rfl
  | v :: rest =>
    obtain ⟨hv, hrest⟩ := List.forall_mem_cons.mp h
    rw [sameItems, sameAs_self v hv, sameItems_self rest hrest]
    rfl

end

/-- A value is finite if it is nothing or finite. -/
theorem finite_of_defined {v : Value} (h : v.isUndefined = false → v.All FinitePart) :
    v.All FinitePart := by
  cases v with
  | undefined => exact all_undefined.mpr trivial
  | _ => exact h rfl

end Value

namespace StepOutcome

theorem acceptsOption_self {α : Type} [DecidableEq α] (o : Option α) :
    acceptsOption o o = true := by
  cases o <;> simp [acceptsOption]

/-- A finite outcome accepts itself. -/
theorem Finite.accepts_self {o : StepOutcome} (h : o.Finite) : o.accepts o = true := by
  cases o with
  | value v actions => simp [accepts, v.sameAs_self h, acceptsOption_self]
  | error kind iterations => simp [accepts, acceptsOption_self]

end StepOutcome

namespace Scenario

variable {t u : FileTree} {dir path : String} {s : Scenario} {i : Interpreter} {index : Nat}
  {step : ScenarioStep} {steps : List ScenarioStep} {o expected : StepOutcome}
  {observed : List StepOutcome} {program : Node}

/-! ## What files hold -/

def InFile (t : FileTree) (path : String) (s : Scenario) : Prop :=
  ∃ text, t.readText path = .ok text ∧ (Json.parse? text).bind (ofJson? .top) = some s ∧
    s.schema = currentSchema

inductive HasProgram (t : FileTree) (dir : String) (step : ScenarioStep) (program : Node) :
    Prop where
  | inline (hinline : step.program = some program)
  | inFile {file text : String} (hinline : step.program = none)
      (hfile : step.programFile = some file)
      (htext : t.readText (Files.Path.join dir file) = .ok text)
      (hprogram : (Json.parse? text).bind (Node.ofJson? .top) = some program)

theorem hasProgram_of_inline {given : Node} (h : step.program = some given) :
    HasProgram t dir step program ↔ given = program := by
  constructor
  · rintro (hinline | ⟨hinline, -, -, -⟩)
    · exact Option.some.inj (h.symm.trans hinline)
    · cases h.symm.trans hinline
  · rintro rfl
    exact .inline h

theorem hasProgram_of_file {file : String} (h : step.program = none)
    (hfile : step.programFile = some file) :
    HasProgram t dir step program ↔ ∃ text, t.readText (Files.Path.join dir file) = .ok text ∧
      (Json.parse? text).bind (Node.ofJson? .top) = some program := by
  constructor
  · rintro (hinline | ⟨-, hname, htext, hprogram⟩)
    · cases h.symm.trans hinline
    · obtain rfl := Option.some.inj (hfile.symm.trans hname)
      exact ⟨_, htext, hprogram⟩
  · rintro ⟨text, htext, hprogram⟩
    exact .inFile h hfile htext hprogram

theorem not_hasProgram (h : step.program = none) (hfile : step.programFile = none) :
    ¬ HasProgram t dir step program := by
  rintro (hinline | ⟨-, hname, -, -⟩)
  · cases h.symm.trans hinline
  · cases hfile.symm.trans hname

theorem HasProgram.finite (h : HasProgram t dir step program)
    (hinline : ∀ n ∈ step.program, n.FiniteFloats) : program.FiniteFloats := by
  cases h with
  | inline hp => exact hinline program hp
  | inFile _ _ _ hprogram =>
    obtain ⟨j, hj, hprogram⟩ := Option.bind_eq_some_iff.mp hprogram
    exact Node.ensures_finiteFloats .top j program (Json.inRange_of_parse? hj) hprogram

theorem InFile.finite (h : InFile t path s) : s.Finite := by
  obtain ⟨text, -, hread, -⟩ := h
  obtain ⟨j, hj, hread⟩ := Option.bind_eq_some_iff.mp hread
  exact ensures_finite .top j s (Json.inRange_of_parse? hj) hread

section Reading

open Command (run_bind_of_run run_readText)

/-- Reading yields the scenario that the file holds and leaves the disk as it is. -/
theorem run_readFrom (path : String) (t : FileTree) :
    ∃ r, (readFrom path : StateM FileTree _).run t = (r, t) ∧ ∀ s, r = .ok s ↔ InFile t path s := by
  unfold readFrom InFile
  rw [run_bind_of_run (run_readText path t)]
  cases htext : t.readText path with
  | error why => exact ⟨_, rfl, by simp⟩
  | ok text =>
    dsimp only
    cases hread : (Json.parse? text).bind (ofJson? .top) with
    | none => exact ⟨_, rfl, by simp [hread]⟩
    | some s =>
      refine ⟨_, rfl, fun s' => ?_⟩
      by_cases hschema : s.schema = currentSchema
      · rw [if_pos hschema]
        constructor
        · rintro ⟨⟩
          exact ⟨text, rfl, hread, hschema⟩
        · rintro ⟨_, ⟨⟩, hread', -⟩
          rw [Option.some.inj (hread.symm.trans hread')]
      · rw [if_neg hschema]
        refine ⟨nofun, ?_⟩
        rintro ⟨_, ⟨⟩, hread', hschema'⟩
        obtain rfl := Option.some.inj (hread.symm.trans hread')
        exact absurd hschema' hschema

/-- A text that no scenario can be read from is refused. -/
theorem run_readFrom_of_none {text : String} (htext : t.readText path = .ok text)
    (hread : (Json.parse? text).bind (ofJson? .top) = none) :
    (readFrom path : StateM FileTree _).run t = (.error (.parseScenario path), t) := by
  unfold readFrom
  rw [run_bind_of_run (run_readText path t), htext]
  dsimp only
  rw [hread]
  rfl

theorem run_stepProgram (dir : String) (index : Nat) (step : ScenarioStep) (t : FileTree) :
    ∃ r, (stepProgram dir index step : StateM FileTree _).run t = (r, t) ∧
      ∀ program, r = .ok program ↔ HasProgram t dir step program := by
  unfold stepProgram
  cases hinline : step.program with
  | some given =>
    refine ⟨_, rfl, fun program => ?_⟩
    rw [hasProgram_of_inline hinline, Except.ok.injEq]
  | none =>
    cases hfile : step.programFile with
    | none => exact ⟨_, rfl, fun _ => ⟨nofun, fun h => absurd h (not_hasProgram hinline hfile)⟩⟩
    | some file =>
      simp only [hasProgram_of_file hinline hfile]
      rw [run_bind_of_run (run_readText _ t)]
      cases t.readText (Files.Path.join dir file) with
      | error why => exact ⟨_, rfl, by simp⟩
      | ok text =>
        dsimp only
        cases hread : (Json.parse? text).bind (Node.ofJson? .top) with
        | none => exact ⟨_, rfl, by simp [hread]⟩
        | some given => exact ⟨_, rfl, by simp [hread]⟩

/-! ## Playing -/

/-- What is observed when an interpreter runs the programs of steps one after another. -/
inductive Plays (t : FileTree) (dir : String) (s : Scenario) :
    Interpreter → List ScenarioStep → List StepOutcome → Prop where
  | nil (i : Interpreter) : Plays t dir s i [] []
  | cons {i : Interpreter} {step : ScenarioStep} {steps : List ScenarioStep} {program : Node}
      {observed : List StepOutcome} (hprogram : HasProgram t dir step program)
      (hrest : Plays t dir s (i.execute program (s.identity step)).2 steps observed) :
      Plays t dir s i (step :: steps)
        (observe (i.execute program (s.identity step)).1 :: observed)

theorem run_playSteps (dir : String) (s : Scenario) (i : Interpreter) (index : Nat)
    (steps : List ScenarioStep) (t : FileTree) :
    ∃ r, (playSteps dir s i index steps : StateM FileTree _).run t = (r, t) ∧
      ∀ observed, r = .ok observed ↔ Plays t dir s i steps observed := by
  induction steps generalizing i index with
  | nil =>
    refine ⟨_, rfl, fun observed => ⟨?_, ?_⟩⟩
    · rintro ⟨⟩
      exact .nil i
    · rintro ⟨⟩
      rfl
  | cons step steps ih =>
    obtain ⟨r, hrun, hr⟩ := run_stepProgram dir index step t
    rw [playSteps, run_bind_of_run hrun]
    cases r with
    | error fault =>
      refine ⟨_, rfl, fun observed => ⟨nofun, ?_⟩⟩
      rintro (_ | ⟨hprogram, -⟩)
      cases (hr _).mpr hprogram
    | ok program =>
      dsimp only
      obtain ⟨r', hrun', hr'⟩ := ih (i.execute program (s.identity step)).2 (index + 1)
      rw [run_bind_of_run hrun']
      have hstep := (hr program).mp rfl
      cases r' with
      | error fault =>
        refine ⟨_, rfl, fun observed => ⟨nofun, ?_⟩⟩
        rintro (_ | ⟨hprogram, hrest⟩)
        obtain rfl := Except.ok.inj ((hr _).mpr hprogram)
        cases (hr' _).mpr hrest
      | ok rest =>
        refine ⟨_, rfl, fun observed => ⟨?_, ?_⟩⟩
        · rintro ⟨⟩
          exact .cons hstep ((hr' rest).mp rfl)
        · rintro (_ | ⟨hprogram, hrest⟩)
          obtain rfl := Except.ok.inj ((hr _).mpr hprogram)
          obtain rfl := Except.ok.inj ((hr' _).mpr hrest)
          rfl

/-- Playing yields what is observed and leaves the disk as it is. -/
theorem run_play (dir : String) (s : Scenario) (t : FileTree) :
    ∃ r, (s.play dir : StateM FileTree _).run t = (r, t) ∧ ∀ observed, r = .ok observed ↔
      s.steps.length ≤ maxSteps ∧ Plays t dir s s.interpreter s.steps observed := by
  unfold play
  by_cases hsteps : maxSteps < s.steps.length
  · rw [if_pos hsteps]
    refine ⟨_, rfl, fun observed => ⟨nofun, ?_⟩⟩
    rintro ⟨hle, -⟩
    omega
  · rw [if_neg hsteps]
    obtain ⟨r, hrun, hr⟩ := run_playSteps dir s s.interpreter 0 s.steps t
    refine ⟨r, hrun, fun observed => (hr observed).trans ⟨fun h => ⟨by omega, h⟩, And.right⟩⟩

/-- A check judges what is observed. -/
theorem run_check (hread : InFile t path s) (hsteps : s.steps.length ≤ maxSteps)
    (hplays : Plays t dir s s.interpreter s.steps observed) :
    (check dir path : StateM FileTree _).run t =
      (match firstMismatch? 0 s.steps observed with
        | some fault => .error fault
        | none => .ok (), t) := by
  obtain ⟨r, hrun, hr⟩ := run_readFrom path t
  obtain rfl := (hr s).mpr hread
  obtain ⟨r, hrun', hr'⟩ := run_play dir s t
  obtain rfl := (hr' observed).mpr ⟨hsteps, hplays⟩
  unfold check
  rw [run_bind_of_run hrun]
  dsimp only
  rw [run_bind_of_run hrun']
  dsimp only
  cases firstMismatch? 0 s.steps observed <;> rfl

end Reading

namespace Plays

theorem length_eq (h : Plays t dir s i steps observed) : observed.length = steps.length := by
  induction h with
  | nil i => rfl
  | cons _ _ ih => rw [List.length_cons, List.length_cons, ih]

/-- What is observed on a finite store is finite. -/
theorem finite (h : Plays t dir s i steps observed) (hstore : i.store.Holds Value.FinitePart)
    (hsteps : ∀ step ∈ steps, step.Finite) : ∀ o ∈ observed, o.Finite := by
  induction h with
  | nil i => simp
  | @cons i step steps program observed hprogram hrest ih =>
    obtain ⟨hstep, hsteps⟩ := List.forall_mem_cons.mp hsteps
    obtain ⟨hafter, hvalue⟩ := lasting_finitePart.holds_execute i (s.identity step)
      (hprogram.finite hstep.program) hstore
    refine List.forall_mem_cons.mpr ⟨?_, ih hafter hsteps⟩
    cases hresult : (i.execute program (s.identity step)).1 with
    | error f => trivial
    | ok outcome =>
      exact Value.finite_of_defined (hvalue outcome hresult)

end Plays

theorem holds_installCore {p : Value → Prop} {st : Store} (h : st.Holds p) {name : String}
    {v : Value} (hv : v.All p) : (st.installCore name v).Holds p := by
  intro ns name' u hu
  cases ns with
  | core =>
    have hu : (st.core.insert name v).get? name' = some u := hu
    rw [Dict.get?_insert] at hu
    split at hu
    · rwa [← Option.some.inj hu]
    · exact h .core name' u hu
  | global => exact h .global name' u hu
  | shared server => exact h (.shared server) name' u hu
  | personal server user => exact h (.personal server user) name' u hu

theorem holds_foldl_installCore {p : Value → Prop} {st : Store} (h : st.Holds p)
    {l : List (String × Value)} (hl : ∀ e ∈ l, e.2.All p) :
    (l.foldl (fun st (name, v) => st.installCore name v) st).Holds p := by
  induction l generalizing st with
  | nil => exact h
  | cons e rest ih =>
    obtain ⟨hv, hrest⟩ := List.forall_mem_cons.mp hl
    exact ih (holds_installCore h hv) hrest

/-- A finite scenario starts on a finite store. -/
theorem Finite.holds_interpreter (h : s.Finite) : s.interpreter.store.Holds Value.FinitePart :=
  holds_foldl_installCore Store.holds_empty fun e he => h.core e.1 e.2 (Dict.get?_of_mem he)

/-! ## Judging -/

/-- The expectation of a step accepts what was observed at it. -/
def AcceptsAt (steps : List ScenarioStep) (observed : List StepOutcome) (n : Nat) : Prop :=
  ∃ expected o, steps[n]?.map (·.expect) = some expected ∧ observed[n]? = some o ∧
    expected.accepts o = true

/-- The first step whose expectation does not accept what was observed at it. -/
structure FirstRefusal (steps : List ScenarioStep) (observed : List StepOutcome) (n : Nat)
    (expected o : StepOutcome) : Prop where
  step : steps[n]?.map (·.expect) = some expected
  outcome : observed[n]? = some o
  refused : expected.accepts o = false
  before : ∀ k < n, AcceptsAt steps observed k

theorem FirstRefusal.lt_length {n : Nat} (h : FirstRefusal steps observed n expected o) :
    n < steps.length := by
  obtain ⟨step, hstep, -⟩ := Option.map_eq_some_iff.mp h.step
  exact (List.getElem?_eq_some_iff.mp hstep).1

theorem FirstRefusal.not_acceptsAt {n : Nat} (h : FirstRefusal steps observed n expected o) :
    ¬ AcceptsAt steps observed n := by
  rintro ⟨e, o', he, ho, haccepts⟩
  obtain rfl := Option.some.inj (he.symm.trans h.step)
  obtain rfl := Option.some.inj (ho.symm.trans h.outcome)
  exact Bool.false_ne_true (h.refused.symm.trans haccepts)

/-- There is one first refusal at most. -/
theorem FirstRefusal.unique {m n : Nat} {expected' o' : StepOutcome}
    (h : FirstRefusal steps observed m expected o)
    (h' : FirstRefusal steps observed n expected' o') : m = n ∧ expected = expected' ∧ o = o' := by
  rcases Nat.lt_trichotomy m n with hlt | rfl | hlt
  · exact absurd (h'.before m hlt) h.not_acceptsAt
  · exact ⟨rfl, Option.some.inj (h.step.symm.trans h'.step),
      Option.some.inj (h.outcome.symm.trans h'.outcome)⟩
  · exact absurd (h.before n hlt) h'.not_acceptsAt

/-- A refusal at the first step, or later in the rest after a step that accepts. -/
theorem firstMismatch?_cases (hlength : observed.length = steps.length) (index : Nat) :
    (firstMismatch? index steps observed = none ∧ ∀ n < steps.length, AcceptsAt steps observed n) ∨
      ∃ n expected o, FirstRefusal steps observed n expected o ∧
        firstMismatch? index steps observed = some (.mismatch (index + n) expected o) := by
  induction steps generalizing observed index with
  | nil => exact .inl ⟨rfl, nofun⟩
  | cons step steps ih =>
    cases observed with
    | nil => cases hlength
    | cons o observed =>
      rw [firstMismatch?]
      cases haccepts : step.expect.accepts o with
      | false => exact .inr ⟨0, _, _, ⟨rfl, rfl, haccepts, nofun⟩, rfl⟩
      | true =>
        have hhere : AcceptsAt (step :: steps) (o :: observed) 0 := ⟨_, _, rfl, rfl, haccepts⟩
        have hsplit : ∀ {n}, (∀ k < n, AcceptsAt steps observed k) →
            ∀ k < n + 1, AcceptsAt (step :: steps) (o :: observed) k := by
          intro n hn k hk
          cases k with
          | zero => exact hhere
          | succ k => exact hn k (by omega)
        rw [if_pos rfl]
        rcases ih (Nat.succ.inj hlength) (index + 1) with ⟨hnone, hall⟩ | ⟨n, e, o', hfirst, hsome⟩
        · exact .inl ⟨hnone, hsplit hall⟩
        · refine .inr ⟨n + 1, e, o', ⟨hfirst.step, hfirst.outcome, hfirst.refused,
            hsplit hfirst.before⟩, ?_⟩
          rw [hsome, Nat.add_right_comm, Nat.add_assoc]

/-- A check that can play its scenario passes, or fails with the first refusal. -/
theorem check_cases (hread : InFile t path s) (hsteps : s.steps.length ≤ maxSteps)
    (hplays : Plays t dir s s.interpreter s.steps observed) :
    (((check dir path : StateM FileTree _).run t).1 = .ok () ∧
        ∀ n < s.steps.length, AcceptsAt s.steps observed n) ∨
      ∃ n expected o, FirstRefusal s.steps observed n expected o ∧
        ((check dir path : StateM FileTree _).run t).1 = .error (.mismatch n expected o) := by
  rw [run_check hread hsteps hplays]
  rcases firstMismatch?_cases hplays.length_eq 0 with ⟨hnone, hall⟩ | ⟨n, e, o, hfirst, hsome⟩
  · rw [hnone]
    exact .inl ⟨rfl, hall⟩
  · rw [hsome, Nat.zero_add]
    exact .inr ⟨n, e, o, hfirst, rfl⟩

/-! ## Recording -/

/-- A scenario in which every step expects what was observed at it. -/
def recording (s : Scenario) (observed : List StepOutcome) : Scenario :=
  { s with steps := s.steps.zipWith (fun step o => { step with expect := o }) observed }

def SameProgramFiles (dir : String) (steps : List ScenarioStep) (t u : FileTree) : Prop :=
  ∀ step ∈ steps, step.program = none → ∀ file, step.programFile = some file →
    u.readText (Files.Path.join dir file) = t.readText (Files.Path.join dir file)

/-- What steps expect has no part in playing them. -/
theorem Plays.recorded (h : Plays t dir s i steps observed) (all : List StepOutcome)
    (hfiles : SameProgramFiles dir steps t u) :
    Plays u dir (s.recording all) i
      (steps.zipWith (fun step o => { step with expect := o }) observed) observed := by
  induction h with
  | nil i => exact .nil i
  | @cons i step steps program observed hprogram hrest ih =>
    obtain ⟨hfile, hfiles⟩ := List.forall_mem_cons.mp hfiles
    have hstep : HasProgram u dir
        { step with expect := observe (i.execute program (s.identity step)).1 } program := by
      cases hprogram with
      | inline h => exact .inline h
      | inFile hinline hname htext hread =>
        exact .inFile hinline hname ((hfile hinline _ hname).trans htext) hread
    exact .cons hstep (ih hfiles)

/-- A recording of finite outcomes is finite. -/
theorem Finite.recording (h : s.Finite) (hobserved : ∀ o ∈ observed, o.Finite) :
    (s.recording observed).Finite := by
  refine ⟨h.core, fun step hstep => ?_⟩
  obtain ⟨n, hn, rfl⟩ := List.mem_iff_getElem.mp hstep
  unfold Scenario.recording at hn ⊢
  dsimp only at hn ⊢
  rw [List.getElem_zipWith]
  exact ⟨(h.steps _ (List.getElem_mem _)).program, hobserved _ (List.getElem_mem _)⟩

/-- A recording refuses nothing of what was recorded. -/
theorem firstMismatch?_recording (hlength : observed.length = s.steps.length)
    (hobserved : ∀ o ∈ observed, o.Finite) :
    firstMismatch? 0 (s.recording observed).steps observed = none := by
  have hlength' : observed.length = (s.recording observed).steps.length := by
    simp [recording, hlength]
  rcases firstMismatch?_cases hlength' 0 with ⟨hnone, -⟩ | ⟨n, expected, o, hfirst, -⟩
  · exact hnone
  · have hexpected := hfirst.step
    obtain ⟨hn, rfl⟩ := List.getElem?_eq_some_iff.mp hfirst.outcome
    obtain rfl : expected = observed[n] := by
      simpa [recording, List.getElem?_zipWith, hn, hlength ▸ hn] using hexpected.symm
    have hself := (hobserved _ (List.getElem_mem hn)).accepts_self
    exact absurd (hfirst.refused.symm.trans hself) Bool.false_ne_true

/-- A text that holds a recording is read as the recording and passes, unless it is too deep to be
read at all. -/
theorem check_recording {text : String} (hs : s.Finite) (hschema : s.schema = currentSchema)
    (hsteps : s.steps.length ≤ maxSteps) (hplays : Plays t dir s s.interpreter s.steps observed)
    (hfiles : SameProgramFiles dir s.steps t u) (htext : u.readText path = .ok text)
    (hparse : Json.parse? text = some (s.recording observed).toJson) :
    ((readFrom path : StateM FileTree _).run u).1 =
        (if (s.recording observed).toJson.depth ≤ 127 then .ok (s.recording observed)
          else .error (.parseScenario path)) ∧
      ((check dir path : StateM FileTree _).run u).1 =
        if (s.recording observed).toJson.depth ≤ 127 then .ok ()
        else .error (.parseScenario path) := by
  have hfinite := hplays.finite hs.holds_interpreter hs.steps
  have hread := faithful_toJson.read_text (hs.recording hfinite).writable_toJson hparse
  by_cases hdepth : (s.recording observed).toJson.depth ≤ 127
  · rw [if_pos hdepth] at hread
    have hfile : InFile u path (s.recording observed) := ⟨text, htext, hread, hschema⟩
    obtain ⟨r, hrun, hr⟩ := run_readFrom path u
    have hcount : (s.recording observed).steps.length ≤ maxSteps := by
      simp [recording, hplays.length_eq, hsteps]
    have hcheck := run_check hfile hcount (hplays.recorded observed hfiles)
    rw [firstMismatch?_recording hplays.length_eq hfinite] at hcheck
    rw [if_pos hdepth, if_pos hdepth, hrun, hcheck]
    exact ⟨(hr _).mpr hfile, rfl⟩
  · rw [if_neg hdepth] at hread
    have hrun := run_readFrom_of_none htext hread
    rw [if_neg hdepth, if_neg hdepth, hrun, check, Command.run_bind_of_run hrun]
    exact ⟨rfl, rfl⟩

/-- **Scenarios are judged exactly, and recordings pass.** A scenario in a file that can be played
comes to one outcome for each step, also where the program fails. It is checked successfully exactly
when every step accepts its outcome, and otherwise the fault is the first that is not accepted, with
its number. The outcomes in the place of what the steps expect are a recording: written as a text, in
either layout, it is read back and passes wherever the programs in files are the same, unless more
than 127 arrays and objects are open in it at once, when no scenario can be read from it. -/
theorem checks_judge_exactly_and_recordings_pass
    (hread : ((readFrom path : StateM FileTree _).run t).1 = .ok s)
    (hplay : ((s.play dir : StateM FileTree _).run t).1 = .ok observed) :
    observed.length = s.steps.length ∧
    (((check dir path : StateM FileTree _).run t).1 = .ok () ↔
      ∀ n < s.steps.length, AcceptsAt s.steps observed n) ∧
    (∀ fault, ((check dir path : StateM FileTree _).run t).1 = .error fault ↔
      ∃ n expected o, FirstRefusal s.steps observed n expected o ∧
        fault = .mismatch n expected o) ∧
    ∀ (u : FileTree) (path' text : String), SameProgramFiles dir s.steps t u →
      u.readText path' = .ok text →
      text = (s.recording observed).toJson.compact ∨ text = (s.recording observed).toJson.pretty →
      ((readFrom path' : StateM FileTree _).run u).1 =
          (if (s.recording observed).toJson.depth ≤ 127 then .ok (s.recording observed)
            else .error (.parseScenario path')) ∧
        ((check dir path' : StateM FileTree _).run u).1 =
          if (s.recording observed).toJson.depth ≤ 127 then .ok ()
          else .error (.parseScenario path') := by
  obtain ⟨r, hrun, hr⟩ := run_readFrom path t
  rw [hrun] at hread
  have hfile := (hr s).mp hread
  obtain ⟨r', hrun', hr'⟩ := run_play dir s t
  rw [hrun'] at hplay
  obtain ⟨hsteps, hplays⟩ := (hr' observed).mp hplay
  refine ⟨hplays.length_eq, ?_, ?_, ?_⟩
  · rcases check_cases hfile hsteps hplays with ⟨hok, hall⟩ | ⟨n, expected, o, hfirst, herror⟩
    · exact ⟨fun _ => hall, fun _ => hok⟩
    · rw [herror]
      exact ⟨nofun, fun hall => absurd (hall n hfirst.lt_length) hfirst.not_acceptsAt⟩
  · intro fault
    rcases check_cases hfile hsteps hplays with ⟨hok, hall⟩ | ⟨n, expected, o, hfirst, herror⟩
    · rw [hok]
      refine ⟨nofun, ?_⟩
      rintro ⟨n, expected, o, hfirst, -⟩
      exact absurd (hall n hfirst.lt_length) hfirst.not_acceptsAt
    · rw [herror]
      constructor
      · rintro ⟨⟩
        exact ⟨n, expected, o, hfirst, rfl⟩
      · rintro ⟨n', expected', o', hfirst', rfl⟩
        obtain ⟨rfl, rfl, rfl⟩ := hfirst.unique hfirst'
        rfl
  · intro u path' text hfiles htext hlayout
    have hfinite := hfile.finite.recording
      (hplays.finite hfile.finite.holds_interpreter hfile.finite.steps)
    refine check_recording hfile.finite hfile.choose_spec.2.2 hsteps hplays hfiles htext ?_
    rcases hlayout with rfl | rfl
    · exact Json.parse?_compact hfinite.writable_toJson
    · exact Json.parse?_pretty hfinite.writable_toJson

/-- A conversation of three steps. The second fails, though not as it should, and the program of the
third is in a file. -/
def talk : Scenario where
  schema := currentSchema
  options := some { limits := { maxLoopIterations := 2 } }
  core := Dict.empty.insert "base" (.float 0.5)
  steps := [
    ⟨none, none, some (.qualifiedAssign .global "x" (.identifier "base")), none,
      .value (.float 0.5) none⟩,
    ⟨some "guest", none, some (.whileLoop (.boolean true) []), none,
      .error "WhileLoopTimeout" (some 3)⟩,
    ⟨none, none, none, some "last.json", .value .undefined none⟩]

def talkObserved : List StepOutcome :=
  [.value (.float 0.5) (some []), .error "WhileLoopTimeout" (some 2), .value (.float 0.5) (some [])]

def desk (s : Scenario) : FileTree :=
  { entries := [(["cases"], .directory), (["cases", "talk.json"], .file (.text s.toJson.compact)),
      (["cases", "last.json"], .file (.text (Node.identifier "x").toJson.compact))] }

theorem readText_desk (s : Scenario) :
    (desk s).readText "cases/talk.json" = .ok s.toJson.compact ∧
      (desk s).readText (Files.Path.join "cases" "last.json") =
        .ok (Node.identifier "x").toJson.compact := ⟨rfl, rfl⟩

theorem finite_talk : talk.Finite := by
  have hhalf : Float.isFinite 0.5 = true := by decide
  have hbase : (Value.float 0.5).All Value.FinitePart := Value.all_float.mpr hhalf
  constructor
  · intro name v hv
    have hv : (Dict.ofList [("base", Value.float 0.5)]).get? name = some v := hv
    obtain ⟨-, rfl⟩ : name = "base" ∧ v = .float 0.5 := by simpa using Dict.mem_of_get?_ofList hv
    exact hbase
  · have hassign : (Node.qualifiedAssign .global "x" (.identifier "base")).FiniteFloats :=
      .intro trivial (List.forall_mem_singleton.mpr (.intro trivial nofun))
    have hloop : (Node.whileLoop (.boolean true) []).FiniteFloats :=
      .intro trivial (List.forall_mem_singleton.mpr (.intro trivial nofun))
    simp only [talk, List.forall_mem_cons]
    refine ⟨⟨?_, hbase⟩, ⟨?_, trivial⟩, ⟨nofun, Value.all_undefined.mpr trivial⟩, nofun⟩
    · rintro n ⟨⟩
      exact hassign
    · rintro n ⟨⟩
      exact hloop

theorem inFile_talk : InFile (desk talk) "cases/talk.json" talk := by
  have hread := faithful_toJson.read_text finite_talk.writable_toJson
    (Json.parse?_compact finite_talk.writable_toJson)
  have hdepth : talk.toJson.depth ≤ 127 := by decide
  rw [if_pos hdepth] at hread
  exact ⟨_, (readText_desk talk).1, hread, rfl⟩

theorem plays_talk :
    Plays (desk talk) "cases" talk talk.interpreter talk.steps talkObserved := by
  have hlast : (Json.parse? (Node.identifier "x").toJson.compact).bind (Node.ofJson? .top) =
      some (.identifier "x") := by
    have hwritable : (Node.identifier "x").toJson.Writable := by simp [Node.toJson]
    rw [Node.faithful_toJson.read_text hwritable (Json.parse?_compact hwritable)]
    rfl
  -- The outcomes are those of the runs, which only have to be carried out.
  have hplays : ∃ observed, Plays (desk talk) "cases" talk talk.interpreter talk.steps observed ∧
      observed = talkObserved :=
    ⟨_, .cons (.inline rfl) (.cons (.inline rfl)
      (.cons (.inFile rfl rfl (readText_desk talk).2 hlast) (.nil _))), rfl⟩
  obtain ⟨_, h, rfl⟩ := hplays
  exact h

/-- The second step of the conversation is refused; its recording passes. -/
theorem checks_judge_exactly_and_recordings_pass_talk :
    ((readFrom "cases/talk.json" : StateM FileTree _).run (desk talk)).1 = .ok talk ∧
    ((talk.play "cases" : StateM FileTree _).run (desk talk)).1 = .ok talkObserved ∧
    ((check "cases" "cases/talk.json" : StateM FileTree _).run (desk talk)).1 =
      .error (.mismatch 1 (.error "WhileLoopTimeout" (some 3))
        (.error "WhileLoopTimeout" (some 2))) ∧
    ((check "cases" "cases/talk.json" : StateM FileTree _).run
      (desk (talk.recording talkObserved))).1 = .ok () := by
  have hread : ((readFrom "cases/talk.json" : StateM FileTree _).run (desk talk)).1 = .ok talk := by
    obtain ⟨r, hrun, hr⟩ := run_readFrom "cases/talk.json" (desk talk)
    rw [hrun]
    exact (hr talk).mpr inFile_talk
  have hplay : ((talk.play "cases" : StateM FileTree _).run (desk talk)).1 = .ok talkObserved := by
    obtain ⟨r, hrun, hr⟩ := run_play "cases" talk (desk talk)
    rw [hrun]
    exact (hr talkObserved).mpr ⟨by decide, plays_talk⟩
  obtain ⟨-, -, hfault, hrecording⟩ := checks_judge_exactly_and_recordings_pass hread hplay
  refine ⟨hread, hplay, (hfault _).mpr ⟨1, _, _, ⟨rfl, rfl, rfl, ?_⟩, rfl⟩, ?_⟩
  · intro k hk
    obtain rfl : k = 0 := by omega
    exact ⟨_, _, rfl, rfl, by decide⟩
  · have hfiles : SameProgramFiles "cases" talk.steps (desk talk)
        (desk (talk.recording talkObserved)) := by
      simp only [SameProgramFiles, talk, List.forall_mem_cons]
      refine ⟨nofun, nofun, ?_, nofun⟩
      rintro - file ⟨⟩
      rw [(readText_desk _).2, (readText_desk _).2]
    have hdepth : (talk.recording talkObserved).toJson.depth ≤ 127 := by decide
    have hpass := hrecording _ "cases/talk.json" _ hfiles (readText_desk _).1 (.inl rfl)
    rw [hpass.2, if_pos hdepth]

end Scenario

end DiceScript
