import DiceScript.Proofs.Command.Inputs
import DiceScript.Proofs.Command.Sessions
import DiceScript.Proofs.Isolation.Writes
import DiceScript.Proofs.Persistence.Reopen
import DiceScript.Proofs.Recursion.Dice

/-!
# Commands that are run one by one

A run by itself reads the options, the store, the library and its program, and saves the store when it
is done. What it opens is told by the store and by what was read beside it. The next run opens the
store that was saved, and reads everything else as it was: the image is read as the store it was made
of, the library is in it already, a run starts with nothing else that an earlier one could have left
behind, and without a die to roll its seed does not matter.

- `outcomes` — what commands come to in turn.
- `Surroundings` — what an interpreter is opened from, the store apart.
- `run_openInterpreter`, `openInterpreter_cases` — what is opened.
- `Between.exec` — one run.
- `run_execs` — one after another.
-/

namespace DiceScript.Command

open Files (FileTree Disk)

/-! ## Commands in turn -/

/-- What commands come to in turn: what each yields, and the interpreter after it. -/
def outcomes (i : Interpreter) : List LineCommand → List (Except Failure Outcome × Interpreter)
  | [] => []
  | c :: rest =>
    i.execute c.program c.identity :: outcomes (i.execute c.program c.identity).2 rest

def afterAll (i : Interpreter) (commands : List LineCommand) : Interpreter :=
  commands.foldl (fun i c => (i.execute c.program c.identity).2) i

/-- Commands that roll no die when they are run in turn. -/
def RollsNone (i : Interpreter) : List LineCommand → Prop
  | [] => True
  | c :: rest =>
    Interpreter.RollsNone i.options i.dice i.store c.program c.identity ∧
      RollsNone (i.execute c.program c.identity).2 rest

/-- The report of a run by itself on what its command yields, when the store could be saved. -/
def Report.ofResult : Except Failure Outcome → Report
  | .ok o => .outcome o true
  | .error f => .fault (.program f)

/-! ## Libraries in stores -/

/-- A store with a library in the place of its core tier, if there is one. -/
def furnished (library : Option Bindings) (store : Store) : Store :=
  match library with
  | none => store
  | some bindings => store.replaceCore bindings

/-- The library of a furnished store is in it for good. -/
theorem furnished_of_core {library : Option Bindings} {store later : Store}
    (h : later.core = (furnished library store).core) : furnished library later = later := by
  cases library with
  | none => rfl
  | some bindings =>
    obtain ⟨_, _, _, _⟩ := later
    obtain rfl := h
    rfl

theorem finite_furnished {library : Option Bindings} {store : Store}
    (hstore : store.Holds Value.FinitePart)
    (hlibrary : ∀ bindings ∈ library, ∀ name v, bindings.get? name = some v → v.All Value.FinitePart) :
    (furnished library store).Holds Value.FinitePart := by
  cases library with
  | none => exact hstore
  | some bindings =>
    intro ns name v hv
    cases ns with
    | core => exact hlibrary bindings rfl name v hv
    | global => exact hstore .global name v hv
    | shared server => exact hstore (.shared server) name v hv
    | personal server user => exact hstore (.personal server user) name v hv

/-! ## Reading beside the store -/

/-- What an interpreter is opened from beside its store: the options and the library. -/
structure Surroundings (setup : Setup) (options : Options) (library : Option Bindings)
    (t : FileTree) : Prop where
  options : ((readOptionsFile setup.config : StateM FileTree _).run t).1 = .ok options
  bare : setup.coreDir = none → library = none
  stocked : ∀ dir, setup.coreDir = some dir → ∃ bindings, library = some bindings ∧
    ((readLibrary dir : StateM FileTree _).run t).1 = .ok bindings

/-- The places that a run by itself reads: those of the options, of a program and of the library. -/
inductive IsInput (setup : Setup) (programs : List String) (t : FileTree) : Files.Place → Prop where
  | options {path : String} {r : Files.Place} :
      setup.config = some path → t.locate? path = some r → IsInput setup programs t r
  | program {path : String} {r : Files.Place} :
      path ∈ programs → t.locate? path = some r → IsInput setup programs t r
  | library {dir : String} {place names : Files.Place} :
      setup.coreDir = some dir → t.locate? dir = some place → isLibraryFile names = true →
        IsInput setup programs t (place ++ names)

section Reading

variable {t u : FileTree} {setup : Setup} {programs : List String} {options : Options}
  {library : Option Bindings}

theorem Reads.run {α : Type} {P : α → Prop} {x : StateM FileTree α} (h : Reads P x) {a : α}
    (ha : (x.run t).1 = a) : x.run t = (a, t) :=
  Prod.ext ha (h t).1

theorem run_readProgram (path : String) (t : FileTree) :
    (readProgram path : StateM FileTree _).run t =
      match t.readText path with
      | .error why => (.error (.host .readProgram why), t)
      | .ok text =>
        match (Json.parse? text).bind (Node.ofJson? .top) with
        | none => (.error (.host .decodeProgram "the text is not a program"), t)
        | some program => (.ok program, t) := by
  rw [readProgram, run_bind_of_run (run_readText path t)]
  cases t.readText path with
  | error why => rfl
  | ok text =>
    dsimp only
    cases (Json.parse? text).bind (Node.ofJson? .top) <;> rfl

/-- The program of a file is one that was accepted, and it is read wherever that file is. -/
theorem readProgram_cases {path : String} {program : Node}
    (h : ((readProgram path : StateM FileTree _).run t).1 = .ok program) :
    program.Accepted ∧ ∃ text, t.readText path = .ok text ∧ ∀ u : FileTree,
      u.readText path = .ok text →
        (readProgram path : StateM FileTree _).run u = (.ok program, u) := by
  rw [run_readProgram] at h
  split at h
  · cases h
  · rename_i text htext
    split at h
    · cases h
    · rename_i node hnode
      obtain rfl := Except.ok.inj h
      refine ⟨⟨text, hnode⟩, text, htext, fun u hu => ?_⟩
      rw [run_readProgram, hu]
      dsimp only
      rw [hnode]

/-- A program that was written to a file is read from it, up to the reader's bound. -/
theorem readProgram_of_readText {path : String} {program : Node} (h : program.toJson.Writable)
    (hdepth : program.toJson.depth ≤ 127) (htext : t.readText path = .ok program.toJson.compact) :
    ((readProgram path : StateM FileTree _).run t).1 = .ok program := by
  rw [run_readProgram, htext]
  dsimp only
  rw [Node.faithful_toJson.read_text h (Json.parse?_compact h), if_pos hdepth]

theorem readOptionsFile_of_spares (h : FileTree.Spares (IsInput setup programs t) t u)
    (hread : ((readOptionsFile setup.config : StateM FileTree _).run t).1 = .ok options) :
    ((readOptionsFile setup.config : StateM FileTree _).run u).1 = .ok options := by
  cases hconfig : setup.config with
  | none =>
    rw [hconfig] at hread
    exact hread
  | some path =>
    rw [hconfig] at hread
    unfold readOptionsFile at hread ⊢
    rw [run_bind_of_run (run_readText path t)] at hread
    rw [run_bind_of_run (run_readText path u)]
    cases htext : t.readText path with
    | error why =>
      rw [htext] at hread
      cases hread
    | ok text =>
      obtain ⟨r, hr⟩ := FileTree.exists_locate?_of_readText htext
      rw [h.readText hr (.options hconfig hr) htext]
      rw [htext] at hread
      dsimp only at hread ⊢
      split at hread
      · cases hread
      · exact hread

namespace Surroundings

theorem of_library {dir : String} {bindings : Bindings}
    (hoptions : ((readOptionsFile setup.config : StateM FileTree _).run t).1 = .ok options)
    (hdir : setup.coreDir = some dir)
    (hread : ((readLibrary dir : StateM FileTree _).run t).1 = .ok bindings) :
    Surroundings setup options (some bindings) t := by
  refine ⟨hoptions, fun hnone => ?_, fun dir' hdir' => ?_⟩
  · cases hdir.symm.trans hnone
  · obtain rfl := Option.some.inj (hdir.symm.trans hdir')
    exact ⟨bindings, rfl, hread⟩

/-- Opening reads the same surroundings where they were spared. -/
theorem of_spares (h : Surroundings setup options library t) (hnamed : t.WellNamed)
    (hspares : FileTree.Spares (IsInput setup programs t) t u)
    (hsearch : ∀ dir ∈ setup.coreDir.toList, ∃ places, u.filesBelow dir = .ok places) :
    Surroundings setup options library u := by
  refine ⟨readOptionsFile_of_spares hspares h.options, h.bare, fun dir hdir => ?_⟩
  obtain ⟨bindings, rfl, hread⟩ := h.stocked dir hdir
  refine ⟨bindings, rfl, readLibrary_of_spares hspares hnamed ?_ (hsearch dir (by simp [hdir])) hread⟩
  intro place names hplace hlibrary
  exact .library hdir hplace hlibrary

/-- Everything in the library is finite, since it was read. -/
theorem finite (h : Surroundings setup options library t) :
    ∀ bindings ∈ library, ∀ name v, bindings.get? name = some v → v.All Value.FinitePart := by
  rintro bindings rfl
  cases hdir : setup.coreDir with
  | none => cases h.bare hdir
  | some dir =>
    obtain ⟨bindings', heq, hread⟩ := h.stocked dir hdir
    obtain rfl := Option.some.inj heq
    obtain ⟨-, places, -, hread⟩ := readLibrary_cases hread
    exact finite_of_readLibraryFiles (by simp) hread

end Surroundings

end Reading

/-! ## Opening -/

section Opening

variable {t : FileTree} {setup : Setup} {path : String} {store : Store} {options : Options}
  {library : Option Bindings}

theorem run_openStore (hpath : setup.store = some path) (t : FileTree) :
    (openStore setup.store : StateM FileTree _).run t =
      (match ((Interpreter.openStore (.file (.ofPath path)) : StateM FileTree _).run t).1 with
      | .error fault => .error (.storage fault)
      | .ok store => .ok (store, some (.file (.ofPath path))), t) := by
  refine (reads_openStore setup.store).run ?_
  rw [hpath]
  unfold openStore
  dsimp only
  rw [StateT.run_bind]
  generalize (Interpreter.openStore (.file (.ofPath path)) : StateM FileTree _).run t = r
  obtain ⟨result, u⟩ := r
  cases result <;> rfl

theorem run_openInterpreter (h : Surroundings setup options library t)
    (hpath : setup.store = some path)
    (hstore : ((Interpreter.openStore (.file (.ofPath path)) : StateM FileTree _).run t).1 =
      .ok store) (now : Nat) (entropy : UInt64) :
    ((openInterpreter setup now entropy : StateM FileTree _).run t).1 =
      .ok (.start (furnished library store) (some (.file (.ofPath path))) options now entropy) := by
  unfold openInterpreter
  rw [run_bind_of_run ((reads_readOptionsFile setup.config).run h.options)]
  dsimp only
  rw [run_bind_of_run (run_openStore hpath t), hstore]
  dsimp only
  cases hdir : setup.coreDir with
  | none =>
    rw [h.bare hdir]
    rfl
  | some dir =>
    obtain ⟨bindings, rfl, hread⟩ := h.stocked dir hdir
    dsimp only
    rw [run_bind_of_run ((reads_readLibrary dir).run hread)]
    rfl

/-- An interpreter that was opened has its store, furnished, and its options from its surroundings. -/
theorem openInterpreter_cases {now : Nat} {entropy : UInt64} {i : Interpreter}
    (hpath : setup.store = some path)
    (h : ((openInterpreter setup now entropy : StateM FileTree _).run t).1 = .ok i) :
    ∃ library store, Surroundings setup i.options library t ∧
      ((Interpreter.openStore (.file (.ofPath path)) : StateM FileTree _).run t).1 = .ok store ∧
      i.store = furnished library store := by
  unfold openInterpreter at h
  cases hoptions : ((readOptionsFile setup.config : StateM FileTree _).run t).1 with
  | error fault =>
    rw [run_bind_of_run ((reads_readOptionsFile setup.config).run hoptions)] at h
    cases h
  | ok options =>
    rw [run_bind_of_run ((reads_readOptionsFile setup.config).run hoptions)] at h
    dsimp only at h
    rw [run_bind_of_run (run_openStore hpath t)] at h
    cases hstore : ((Interpreter.openStore (.file (.ofPath path)) : StateM FileTree _).run t).1 with
    | error fault =>
      rw [hstore] at h
      cases h
    | ok store =>
      rw [hstore] at h
      dsimp only at h
      cases hdir : setup.coreDir with
      | none =>
        rw [hdir] at h
        obtain rfl := Except.ok.inj h
        exact ⟨none, store, ⟨hoptions, fun _ => rfl, fun _ hother => nomatch hdir ▸ hother⟩, rfl, rfl⟩
      | some dir =>
        rw [hdir] at h
        dsimp only at h
        cases hlibrary : ((readLibrary dir : StateM FileTree _).run t).1 with
        | error fault =>
          rw [run_bind_of_run ((reads_readLibrary dir).run hlibrary)] at h
          cases h
        | ok bindings =>
          rw [run_bind_of_run ((reads_readLibrary dir).run hlibrary)] at h
          obtain rfl := Except.ok.inj h
          exact ⟨some bindings, store, .of_library hoptions hdir hlibrary, rfl, rfl⟩

end Opening

/-! ## Running -/

section Running

variable {σ : Type} {t u : FileTree} {setup : Setup} {path : String} {i : Interpreter}

theorem carried_readProgram {n : Type → Type} [Monad n] [LawfulMonad n] [Disk n] (path : String) :
    Files.Carried (readProgram path : StateT σ n _) (readProgram path) := by
  refine .bind (.lift _) fun text => ?_
  cases text with
  | error why => exact .pure _
  | ok text =>
    dsimp only
    split <;> exact .pure _

theorem run_carried_bind {α β : Type} {x : StateT σ (StateM FileTree) α} {y : StateM FileTree α}
    (h : Files.Carried x y) {a : α} (hy : y.run t = (a, u)) {f : α → StateT σ (StateM FileTree) β}
    {s : σ} : ((x >>= f).run s).run t = ((f a).run s).run u := by
  rw [StateT.run_bind, StateT.run_bind, run_carried h, hy]
  rfl

theorem run_endSession_of_save (hmedium : i.medium = some (.file (.ofPath path)))
    (hsave : (FileMedium.writeImage path i.store.image : StateM FileTree _).run t = (.ok (), u)) :
    (endSession i : StateM FileTree _).run t = (none, u) := by
  have hdurable : i.isDurable = true := by simp [Interpreter.isDurable, hmedium]
  have hflush := Interpreter.run_save_ok hmedium hsave
  unfold endSession Interpreter.flush
  rw [if_pos hdurable, bind_assoc, run_bind_of_run hflush]
  rfl

/-- A run by itself reports what its command yields, and leaves the store that the command leaves. -/
theorem run_exec (tick : σ → Nat × σ) (s : σ) {entropy : UInt64} {program : String} {node : Node}
    {identity : Identity}
    (hopen : ((openInterpreter setup (tick s).1 entropy : StateM FileTree _).run t).1 = .ok i)
    (hprogram : (readProgram program : StateM FileTree _).run t = (.ok node, t))
    (hmedium : i.medium = some (.file (.ofPath path)))
    (hsave : (FileMedium.writeImage path (i.execute node identity).2.store.image :
      StateM FileTree _).run t = (.ok (), u)) :
    ((exec (clockOf tick) entropy program identity setup).run s).run t =
      ((.ofResult (i.execute node identity).1, (tick s).2), u) := by
  have hopened := (reads_openInterpreter setup (tick s).1 entropy).run hopen
  have hend := run_endSession_of_save (i := (i.execute node identity).2) hmedium hsave
  unfold exec
  rw [run_clockOf_bind, run_carried_bind (carried_openInterpreter setup (tick s).1 entropy) hopened]
  dsimp only
  rw [run_carried_bind (carried_readProgram program) hprogram]
  dsimp only
  rw [run_carried_bind (carried_endSession _) hend]
  generalize (i.execute node identity).1 = result
  cases result <;> rfl

/-- A run by itself that opens nothing changes nothing. -/
theorem run_exec_of_error (tick : σ → Nat × σ) (s : σ) {entropy : UInt64} (program : String)
    (identity : Identity) {fault : Fault}
    (hopen : ((openInterpreter setup (tick s).1 entropy : StateM FileTree _).run t).1 = .error fault) :
    ((exec (clockOf tick) entropy program identity setup).run s).run t =
      ((.fault fault, (tick s).2), t) := by
  have hopened := (reads_openInterpreter setup (tick s).1 entropy).run hopen
  unfold exec
  rw [run_clockOf_bind, run_carried_bind (carried_openInterpreter setup (tick s).1 entropy) hopened]
  rfl

/-- A program that is run by itself: from a file, for someone, with a seed of its own. -/
structure Invocation where
  entropy : UInt64
  program : String
  identity : Identity

def Invocation.Runs (t : FileTree) (v : Invocation) (c : LineCommand) : Prop :=
  v.identity = c.identity ∧ ((readProgram v.program : StateM FileTree _).run t).1 = .ok c.program

/-- A run by itself does what the command does in its turn. -/
theorem execute_of_rollsNone {j k : Interpreter} {c : LineCommand}
    (hrolls : Interpreter.RollsNone j.options j.dice j.store c.program c.identity)
    (hstore : k.store = j.store) (hoptions : k.options = j.options) :
    (k.execute c.program c.identity).1 = (j.execute c.program c.identity).1 ∧
      (k.execute c.program c.identity).2.store = (j.execute c.program c.identity).2.store := by
  have hrun := Interpreter.run_eq_of_rollsNone hrolls k.dice
  unfold Interpreter.execute
  rw [hstore, hoptions, hrun]
  exact ⟨rfl, rfl⟩

/-- Between two runs: `u` is the tree that the runs so far have made of `t`, and an interpreter that is
opened there has the store of `j`, which has run the same commands. -/
structure Between (setup : Setup) (path : String) (programs : List String)
    (library : Option Bindings) (t u : FileTree) (j : Interpreter) : Prop where
  named : t.WellNamed
  settled : Settled path (IsInput setup programs t) setup.coreDir.toList u
  spares : FileTree.Spares (IsInput setup programs t) t u
  start : Surroundings setup j.options library t
  surroundings : Surroundings setup j.options library u
  opened : ∃ store,
    ((Interpreter.openStore (.file (.ofPath path)) : StateM FileTree _).run u).1 = .ok store ∧
      j.store = furnished library store
  finite : j.store.Holds Value.FinitePart

/-- One run: it reports what the command yields, saves its store, and the next run opens that store. -/
theorem Between.exec {programs : List String} {library : Option Bindings} {j : Interpreter}
    (h : Between setup path programs library t u j) (hpath : setup.store = some path)
    (tick : σ → Nat × σ) (s : σ) {v : Invocation} {c : LineCommand} (hv : v.Runs t c)
    (hlisted : v.program ∈ programs)
    (hroll : Interpreter.RollsNone j.options j.dice j.store c.program c.identity)
    (hshallow : (j.execute c.program c.identity).2.store.image.toJson.depth ≤ 127) :
    ∃ w,
      ((Command.exec (clockOf tick) v.entropy v.program v.identity setup).run s).run u =
        ((.ofResult (j.execute c.program c.identity).1, (tick s).2), w) ∧
      Between setup path programs library t w (j.execute c.program c.identity).2 ∧
      w.lookup? path = some (j.execute c.program c.identity).2.store.file := by
  obtain ⟨entropy, program, identity⟩ := v
  obtain ⟨rfl, hprogram⟩ := hv
  obtain ⟨store, hopen, hstore⟩ := h.opened
  obtain ⟨haccepted, text, htext, hread⟩ := readProgram_cases hprogram
  obtain ⟨r, hr⟩ := FileTree.exists_locate?_of_readText htext
  have hread := hread u (h.spares.readText hr (.program hlisted hr) htext)
  -- The interpreter of this run differs from `j` in its schedule and its dice only.
  have hk := run_openInterpreter h.surroundings hpath hopen (tick s).1 entropy
  rw [← hstore] at hk
  obtain ⟨hresult, hleft⟩ := execute_of_rollsNone (k := .start j.store
    (some (.file (.ofPath path))) j.options (tick s).1 entropy) hroll rfl rfl
  generalize hstart : Interpreter.start j.store (some (.file (.ofPath path))) j.options (tick s).1
    entropy = k at hk hresult hleft
  have hmedium : k.medium = some (.file (.ofPath path)) := by
    rw [← hstart]
    rfl
  have hmedium' : (k.execute c.program c.identity).2.medium = some (.file (.ofPath path)) := hmedium
  obtain ⟨w, hsave, hsettled, hspares, hsearch, hfile⟩ :=
    h.settled.save (k.execute c.program c.identity).2.store.image
  have hrun := run_exec tick s hk hread hmedium hsave
  rw [hresult] at hrun
  -- The store that was saved is opened again, and the library is in it already.
  have hfinite : (j.execute c.program c.identity).2.store.Holds Value.FinitePart :=
    (lasting_finitePart.holds_execute j c.identity haccepted.finiteFloats h.finite).1
  have hopened : ((Interpreter.openStore (.file (.ofPath path)) : StateM FileTree _).run w).1 =
      .ok (k.execute c.program c.identity).2.store :=
    (Interpreter.openStore_of_save (hleft ▸ hfinite) hmedium' rfl
      (Interpreter.run_save_ok hmedium' hsave)).1 (hleft ▸ hshallow)
  rw [hleft] at hopened hfile
  have hcore : (j.execute c.program c.identity).2.store.core = (furnished library store).core := by
    rw [j.core_execute, hstore]
  have hspares' := h.spares.trans hspares
  refine ⟨w, hrun, ⟨h.named, hsettled, hspares', h.start, ?_, ?_, hfinite⟩, hfile⟩
  · exact h.start.of_spares h.named hspares' hsearch
  · exact ⟨_, hopened, (furnished_of_core hcore).symm⟩

theorem run_mapM_cons {α β : Type} {f : α → StateT σ (StateM FileTree) β} {a : α} {rest : List α}
    {b : β} {results : List β} {s s' s'' : σ} {t u v : FileTree}
    (h : ((f a).run s).run t = ((b, s'), u))
    (hrest : ((rest.mapM f).run s').run u = ((results, s''), v)) :
    (((a :: rest).mapM f).run s).run t = ((b :: results, s''), v) := by
  rw [List.mapM_cons, StateT.run_bind, StateT.run_bind, h]
  show ((List.mapM f rest >>= _ : StateT σ (StateM FileTree) _).run s').run u = _
  rw [StateT.run_bind, StateT.run_bind, hrest]
  rfl

/-- Commands that are run one by one yield what they yield in turn, and the last store is in its
file. -/
theorem run_execs {programs : List String} {library : Option Bindings}
    (hpath : setup.store = some path) (tick : σ → Nat × σ) {commands : List LineCommand}
    {invocations : List Invocation} (hruns : List.Forall₂ (Invocation.Runs t) invocations commands)
    (hlisted : ∀ v ∈ invocations, v.program ∈ programs) {u : FileTree} {j : Interpreter} (s : σ)
    (h : Between setup path programs library t u j) (hrolls : RollsNone j commands)
    (hshallow : ∀ x ∈ outcomes j commands, x.2.store.image.toJson.depth ≤ 127) :
    ∃ s' v,
      ((invocations.mapM fun v =>
          Command.exec (clockOf tick) v.entropy v.program v.identity setup).run s).run u =
        (((outcomes j commands).map (Report.ofResult ·.1), s'), v) ∧
      (commands ≠ [] ∨ u.lookup? path = some j.store.file →
        v.lookup? path = some (afterAll j commands).store.file) := by
  induction hruns generalizing u j s with
  | nil =>
    refine ⟨s, u, rfl, ?_⟩
    rintro (hne | hfile)
    · exact absurd rfl hne
    · exact hfile
  | cons hv _ ih =>
    obtain ⟨hroll, hrolls⟩ := hrolls
    obtain ⟨hfirst, hshallow⟩ := List.forall_mem_cons.mp hshallow
    obtain ⟨hlisted, hrest⟩ := List.forall_mem_cons.mp hlisted
    obtain ⟨w, hexec, hbetween, hfile⟩ := h.exec hpath tick s hv hlisted hroll hfirst
    obtain ⟨s', v, hexecs, hlast⟩ := ih hrest (tick s).2 hbetween hrolls hshallow
    exact ⟨s', v, run_mapM_cons hexec hexecs, fun _ => hlast (.inr hfile)⟩

/-- An interpreter that was opened is as one between two runs. -/
theorem between_of_openInterpreter {t : FileTree} {setup : Setup} {path : String}
    {programs : List String} {now : Nat} {entropy : UInt64} {i : Interpreter}
    (hpath : setup.store = some path)
    (hopen : ((openInterpreter setup now entropy : StateM FileTree _).run t).1 = .ok i)
    (hsettled : Settled path (IsInput setup programs t) setup.coreDir.toList t) :
    ∃ library, Between setup path programs library t t i := by
  obtain ⟨library, store, hsurroundings, hstored, hstore⟩ := openInterpreter_cases hpath hopen
  refine ⟨library, hsettled.named, hsettled, .refl _ t, hsurroundings, hsurroundings,
    ⟨store, hstored, hstore⟩, ?_⟩
  rw [hstore]
  exact finite_furnished (Interpreter.holds_of_openStore hstored) hsurroundings.finite

end Running

end DiceScript.Command
