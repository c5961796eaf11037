import DiceScript.Proofs.Command.SingleRuns

/-!
# One session or many runs

A session keeps its store in memory from command to command. Commands that are run one by one keep it
in its file alone: each of them opens an interpreter on what the one before has saved, with a library
that is read anew. Neither loses anything on the way, so both answer alike and leave the same file.

They have to be given the same commands, though. A line has a level of its own around its program, so
the deepest programs can only be run by themselves. And a library that is read anew has to be within
reach each time, while a session needs it once.

- `run_serve_lines`, `turns_eq` — the commands as the lines of a session.
- `session_agrees_with_single_runs` — both ways agree.
- `session_and_single_runs_can_differ` — where they do not.
-/

namespace DiceScript

open Files (FileTree Disk)

/-! ## Blank lines -/

theorem Text.isBlankChar_eq_false {c : Char} (h : c.isDigit = true) : isBlankChar c = false := by
  have hlower : 48 ≤ c.toNat := (Bool.and_eq_true_iff.mp h).1 |> of_decide_eq_true
  have hupper : c.toNat ≤ 57 := (Bool.and_eq_true_iff.mp h).2 |> of_decide_eq_true
  rw [← Bool.not_eq_true]
  simp only [isBlankChar, blankRanges, List.any_eq_true, not_exists, not_and]
  intro r hr
  fin_cases hr <;> simp <;> omega

/-- A text that holds a document is not blank. -/
theorem Json.isBlank_eq_false {text : String} {j : Json} (h : parse? text = some j) :
    Text.isBlank text = false := by
  rw [← Bool.not_eq_true]
  intro hblank
  rw [Text.isBlank, List.all_eq_true] at hblank
  have hskip : ∀ c rest, skipGap text.toList = c :: rest → Text.isBlankChar c = true := by
    intro c rest hc
    exact hblank c ((List.dropWhile_sublist _).subset (hc ▸ List.mem_cons_self))
  have hread : readValue (fuelFor text.toList) text.toList = none := by
    unfold fuelFor readValue
    split
    case h_7 =>
      rw [Option.eq_none_iff_forall_ne_some]
      intro r hr
      obtain ⟨c, rest, hc, hhead⟩ := readNumber_head hr
      have hspace := hskip c rest hc
      rcases hhead with rfl | hdigit
      · exact absurd hspace (by decide)
      · rw [Text.isBlankChar_eq_false hdigit] at hspace
        cases hspace
    -- Every other document starts with a character that is no blank.
    all_goals
      rename_i heq
      exact absurd (hskip _ _ heq) (by decide)
  rw [parse?, hread] at h
  cases h

namespace Command

/-! ## Commands as the lines of a session -/

section Session

variable {i : Interpreter} {path : String} {t : FileTree}

theorem isBlank_eq_false {line : String} {c : LineCommand} (h : LineCommand.ofText? line = some c) :
    Text.isBlank line = false := by
  obtain ⟨j, hj, -⟩ := Option.bind_eq_some_iff.mp h
  exact Json.isBlank_eq_false hj

/-- The line of a command, if it is shallow enough. -/
theorem ofText?_line {c : LineCommand} (h : c.program.toJson.Writable) (hdepth : c.toJson.depth ≤ 127) :
    LineCommand.ofText? c.toJson.compact = some c := by
  rw [LineCommand.ofText?_compact (by simp [LineCommand.toJson, h]), if_pos hdepth]

/-- Lines that are commands come to what the commands come to. -/
theorem turns_eq {lines : List String} {commands : List LineCommand}
    (h : lines.map LineCommand.ofText? = commands.map some) :
    (turns i lines).map Prod.fst = (outcomes i commands).map (Answer.ofResult ·.1) ∧
      afterTurns i lines = afterAll i commands := by
  induction lines generalizing commands i with
  | nil =>
    obtain rfl : commands = [] := by simpa using h.symm
    exact ⟨rfl, rfl⟩
  | cons line lines ih =>
    obtain ⟨c, commands, rfl⟩ : ∃ c rest, commands = c :: rest := by
      cases commands with
      | nil => cases h
      | cons c rest => exact ⟨c, rest, rfl⟩
    obtain ⟨hline, hrest⟩ := List.cons.inj h
    have hblank : ¬ Text.isBlank line = true := by simp [isBlank_eq_false hline]
    obtain ⟨hanswers, hlast⟩ := ih (i := (i.execute c.program c.identity).2) hrest
    rw [afterTurns_answer hblank, turns, if_neg hblank, answer_eq hline, List.map_cons, hanswers, hlast]
    exact ⟨rfl, rfl⟩

/-- A session over lines answers them, and saves the store after them. -/
theorem run_serve_lines {σ : Type} (tick : σ → Nat × σ) (s : σ) (entropy : UInt64) {setup : Setup}
    (hpath : setup.store = some path) (hnamed : t.WellNamed) (haccepts : FileMedium.Accepts path t)
    (hopen : ((openInterpreter setup (tick s).1 entropy : StateM FileTree _).run t).1 = .ok i)
    (lines : List String) :
    ∃ replies s' u,
      ((serve (clockOf tick) entropy setup (lines.map some)).run s).run t =
        ((.session replies none, s'), u) ∧
      replies.map Reply.answer = (turns i lines).map Prod.fst ∧
      u.lookup? path = some (afterTurns i lines).store.file := by
  have hmedium := (reads_openInterpreter setup (tick s).1 entropy t).2 i hopen
  rw [hpath] at hmedium
  have hserving : Interpreter.Serving path i i t := ⟨.refl i, ⟨0, hmedium⟩, haccepts, hnamed⟩
  obtain ⟨replies, k, s', u, hk, hanswers, -, hsession⟩ :=
    serveLines_texts tick lines [] (tick s).2 hserving
  obtain ⟨v, hend, hfile⟩ := run_endSession hk
  have hlast : ((serveLines (clockOf tick) k []).run s').run u = ((([], none), s'), v) := by
    rw [serveLines_nil, run_carried_bind (carried_endSession k) hend]
    rfl
  rw [List.append_nil, hlast] at hsession
  refine ⟨replies, s', v, ?_, hanswers, hfile⟩
  rw [run_serve tick s entropy setup _ hopen, hsession]
  simp

/-- An input whose lines are commands is made of texts. -/
theorem exists_lines {input : List (Option String)} {commands : List LineCommand}
    (h : input.map (·.bind LineCommand.ofText?) = commands.map some) :
    ∃ lines : List String, input = lines.map some ∧
      lines.map LineCommand.ofText? = commands.map some := by
  induction input generalizing commands with
  | nil => exact ⟨[], rfl, h⟩
  | cons line input ih =>
    cases commands with
    | nil => cases h
    | cons c commands =>
      obtain ⟨hline, hrest⟩ := List.cons.inj h
      obtain ⟨lines, rfl, hlines⟩ := ih hrest
      cases line with
      | none => cases hline
      | some line => exact ⟨line :: lines, rfl, congrArg₂ List.cons hline hlines⟩

end Session

/-! ## Both ways -/

/-- The answer that tells what the report of a run by itself tells, unless the run came to nothing. -/
def Report.answer? : Report → Option Answer
  | .outcome o true => some (.success o)
  | .fault (.program f) => some (.failure f)
  | _ => none

theorem answer?_ofResult (r : Except Failure Outcome) :
    (Report.ofResult r).answer? = some (Answer.ofResult r) := by
  cases r <;> rfl

/-- A session and single runs agree. Take any commands, one at least; the lines of an input that are
these commands; and as many files with their programs, each with an identity and a seed. On any tree
from which an interpreter can be opened, over a path that takes images and beside which the options,
the programs and the library are only read, and with whatever clocks: if the commands roll no die and
every store on their way has an image within the reader's bound, then the session over the lines and
the runs of the files, one after another, leave the same file at the path, that of the last store, and
a reply tells of each command what the report of its own run tells, whether its program fails or not. -/
theorem session_agrees_with_single_runs {σ τ : Type} (tick : σ → Nat × σ) (s : σ) (entropy : UInt64)
    (tick' : τ → Nat × τ) (s' : τ) {setup : Setup} {path : String} (hpath : setup.store = some path)
    {t : FileTree} {i : Interpreter}
    (hopen : ((openInterpreter setup (tick s).1 entropy : StateM FileTree _).run t).1 = .ok i)
    {commands : List LineCommand} (hne : commands ≠ []) {input : List (Option String)}
    (hlines : input.map (·.bind LineCommand.ofText?) = commands.map some)
    {invocations : List Invocation} (hruns : List.Forall₂ (Invocation.Runs t) invocations commands)
    (hsettled : Settled path (IsInput setup (invocations.map (·.program)) t) setup.coreDir.toList t)
    (hrolls : RollsNone i commands)
    (hshallow : ∀ x ∈ outcomes i commands, x.2.store.image.toJson.depth ≤ 127) :
    ∃ replies reports r r' u v,
      ((serve (clockOf tick) entropy setup input).run s).run t = ((.session replies none, r), u) ∧
      ((invocations.mapM fun v => exec (clockOf tick') v.entropy v.program v.identity setup).run s').run t =
        ((reports, r'), v) ∧
      replies.map Reply.answer = (outcomes i commands).map (Answer.ofResult ·.1) ∧
      reports.map Report.answer? = replies.map (some ·.answer) ∧
      u.lookup? path = some (afterAll i commands).store.file ∧ v.lookup? path = u.lookup? path := by
  obtain ⟨lines, hinput, hcommands⟩ := exists_lines hlines
  obtain ⟨replies, r, u, hserve, hanswers, hfile⟩ :=
    run_serve_lines tick s entropy hpath hsettled.named hsettled.accepts hopen lines
  obtain ⟨hturns, hafter⟩ := turns_eq (i := i) hcommands
  rw [← hinput] at hserve
  rw [hturns] at hanswers
  rw [hafter] at hfile
  obtain ⟨library, hbetween⟩ := between_of_openInterpreter hpath hopen hsettled
  obtain ⟨r', v, hexecs, hlast⟩ := run_execs hpath tick' hruns
    (fun v hv => List.mem_map.mpr ⟨v, hv, rfl⟩) s' hbetween hrolls hshallow
  refine ⟨replies, _, r, r', u, v, hserve, hexecs, hanswers, ?_, hfile, ?_⟩
  · have hsome : replies.map (some ·.answer) = (replies.map Reply.answer).map some := by simp
    rw [hsome, hanswers, List.map_map, List.map_map]
    exact List.map_congr_left fun x _ => answer?_ofResult x.1
  · rw [hfile, hlast (.inl hne)]

/-! ## A library and a command that fails -/

def pocket : Bindings := Dict.ofList [("base", .integer 2)]

def copying : LineCommand := ⟨⟨"ann", "guild"⟩, .qualifiedAssign .global "x" (.identifier "base")⟩

/-- A command that fails, since it writes to the core tier. -/
def refused : LineCommand := ⟨⟨"bob", "guild"⟩, .qualifiedAssign .core "base" (.integer 1)⟩

/-- The library in a directory, and the programs of both commands beside it. -/
def desk : FileTree :=
  { entries := [(["core"], .directory), (["core", "pocket.json"], .file (.text pocket.toJson.compact)),
      (["copy.json"], .file (.text copying.program.toJson.compact)),
      (["refuse.json"], .file (.text refused.program.toJson.compact))] }

def deskSetup : Setup := { store := some "store.json", coreDir := some "core" }

def atDesk : Interpreter :=
  .start (furnished (some pocket) {}) (some (.file (.ofPath "store.json"))) {} 0 0

theorem writable_copying : copying.program.toJson.Writable := by
  simp [copying, Node.toJson]

theorem writable_refused : refused.program.toJson.Writable := by
  have hone : Json.Integral 1 := by constructor <;> decide
  simp [refused, Node.toJson, hone]

theorem writable_pocket : pocket.toJson.Writable := by
  refine Dict.writable_toJson fun name v hv => ?_
  obtain ⟨-, rfl⟩ : name = "base" ∧ v = .integer 2 := by simpa using Dict.mem_of_get?_ofList hv
  exact Value.writable_toJson _ (Value.all_integer.mpr trivial)

theorem filesBelow_desk : desk.filesBelow "core" = .ok [["pocket.json"]] := by decide +kernel

theorem readLibrary_desk : ((readLibrary "core" : StateM FileTree _).run desk).1 = .ok pocket := by
  have hfiles : libraryFiles [["pocket.json"]] = [["pocket.json"]] := by decide +kernel
  have htext : desk.readText (pathAlong "core" ["pocket.json"]) = .ok pocket.toJson.compact := by
    decide +kernel
  have hread := Bindings.faithful_toJson.read_text (a := pocket) writable_pocket
    (Json.parse?_compact writable_pocket)
  rw [if_pos (by decide)] at hread
  rw [run_readLibrary_of_filesBelow rfl filesBelow_desk, hfiles, run_readLibraryFiles_cons, htext]
  dsimp only
  rw [hread]
  rfl

theorem openInterpreter_desk :
    ((openInterpreter deskSetup 0 0 : StateM FileTree _).run desk).1 = .ok atDesk := by
  have hsurroundings : Surroundings deskSetup {} (some pocket) desk :=
    .of_library rfl rfl readLibrary_desk
  exact run_openInterpreter hsurroundings rfl rfl 0 0

theorem settled_desk :
    Settled "store.json" (IsInput deskSetup ["copy.json", "refuse.json"] desk) ["core"] desk := by
  have hmade : desk.makeDirectories (Files.Path.directory "store.json") = (.ok (), desk) := rfl
  have hstaging : desk.locate? (FileMedium.stagingPath "store.json") = some ["store.json.tmp"] := by
    decide +kernel
  have hplace : desk.locate? "store.json" = some ["store.json"] := by decide +kernel
  have hinput : ∀ r, IsInput deskSetup ["copy.json", "refuse.json"] desk r →
      r ≠ ["store.json"] ∧ r ≠ ["store.json.tmp"] := by
    rintro r (⟨hconfig, -⟩ | ⟨hpath, hr⟩ | ⟨hdir, hplace, -⟩)
    · cases hconfig
    · rcases List.mem_pair.mp hpath with rfl | rfl
      · obtain rfl : ["copy.json"] = r := Option.some.inj hr
        decide
      · obtain rfl : ["refuse.json"] = r := Option.some.inj hr
        decide
    · obtain rfl := Option.some.inj hdir
      obtain rfl : ["core"] = _ := Option.some.inj hplace
      simp
  refine .of_ready hmade ⟨hmade, ⟨_, hstaging, by decide +kernel⟩, ⟨_, hplace, by decide +kernel⟩⟩
    (.of_names (by decide +kernel) (by decide +kernel)) hstaging hplace
    (fun h => (hinput _ h).2 rfl) (fun h => (hinput _ h).1 rfl) ?_
  intro dir hdir
  obtain rfl := List.mem_singleton.mp hdir
  exact ⟨_, filesBelow_desk⟩

/-- At the desk, with seeds and clocks that differ, one command succeeds and one fails, and a session
and single runs agree. -/
theorem session_agrees_with_single_runs_desk :
    RollsNone atDesk [copying, refused] ∧
      (∀ x ∈ outcomes atDesk [copying, refused], x.2.store.image.toJson.depth ≤ 127) ∧
      (outcomes atDesk [copying, refused]).map (·.1.isOk) = [true, false] ∧
      ∃ replies reports r r' u v,
        ((serve (clockOf fun n => (n, n + 1000)) 0 deskSetup
          [some copying.toJson.compact, some refused.toJson.compact]).run 0).run desk =
            ((.session replies none, r), u) ∧
        (([⟨7, "copy.json", ⟨"ann", "guild"⟩⟩, ⟨8, "refuse.json", ⟨"bob", "guild"⟩⟩].mapM
          fun v : Invocation => exec (clockOf fun n => (n, n + 1)) v.entropy v.program v.identity
            deskSetup).run 5).run desk = ((reports, r'), v) ∧
        reports.map Report.answer? = replies.map (some ·.answer) ∧
        v.lookup? "store.json" = u.lookup? "store.json" := by
  have hpath : deskSetup.store = some "store.json" := rfl
  have hrolls : RollsNone atDesk [copying, refused] := ⟨rfl, rfl, trivial⟩
  have hshallow : ∀ x ∈ outcomes atDesk [copying, refused], x.2.store.image.toJson.depth ≤ 127 := by
    decide +kernel
  have hlines : ∀ {a b : String}, LineCommand.ofText? a = some copying →
      LineCommand.ofText? b = some refused →
        [some a, some b].map (·.bind LineCommand.ofText?) = [copying, refused].map some := by
    intro a b ha hb
    simp [ha, hb]
  have hruns : List.Forall₂ (Invocation.Runs desk)
      [⟨7, "copy.json", ⟨"ann", "guild"⟩⟩, ⟨8, "refuse.json", ⟨"bob", "guild"⟩⟩] [copying, refused] :=
    .cons ⟨rfl, readProgram_of_readText writable_copying (by decide) rfl⟩
      (.cons ⟨rfl, readProgram_of_readText writable_refused (by decide) rfl⟩ .nil)
  obtain ⟨replies, reports, r, r', u, v, hserve, hexecs, -, hagree, -, hfile⟩ :=
    session_agrees_with_single_runs (fun n => (n, n + 1000)) 0 0 (fun n => (n, n + 1)) 5
      hpath openInterpreter_desk (List.cons_ne_nil _ _)
      (hlines (ofText?_line writable_copying (by decide)) (ofText?_line writable_refused (by decide))) hruns settled_desk hrolls hshallow
  exact ⟨hrolls, hshallow, rfl, replies, reports, r, r', u, v, hserve, hexecs, hagree, hfile⟩

/-! ## Where they differ -/

/-- A session over the lines of commands and the runs of their programs, one after another, leave
different files, although the commands roll no die, every store on their way has an image within the
reader's bound, and the path takes images and lies apart from what is read. -/
structure Differs (setup : Setup) (path : String) (t : FileTree) (i : Interpreter)
    (commands : List LineCommand) (invocations : List Invocation) : Prop where
  store : setup.store = some path
  opened : ((openInterpreter setup 0 0 : StateM FileTree _).run t).1 = .ok i
  runs : List.Forall₂ (Invocation.Runs t) invocations commands
  settled : Settled path (IsInput setup (invocations.map (·.program)) t) [] t
  rolls : RollsNone i commands
  shallow : ∀ x ∈ outcomes i commands, x.2.store.image.toJson.depth ≤ 127
  files : ∃ x y reports u v,
    ((serve (clockOf fun n => (n, n + 1000)) 0 setup
      (commands.map (some ·.toJson.compact))).run 0).run t = (x, u) ∧
    ((invocations.mapM fun v => exec (clockOf fun n => (n, n + 1)) v.entropy v.program v.identity
      setup).run 0).run t = ((reports, y), v) ∧
    v.lookup? path ≠ u.lookup? path

/-! ### A command that is too deep for a line -/

def grouped : Nat → Node
  | 0 => .integer 1
  | n + 1 => .group (grouped n)

/-- A command whose program is as deep as the reader admits. -/
def deep : LineCommand := ⟨⟨"ann", "guild"⟩, .qualifiedAssign .global "x" (grouped 125)⟩

def deepTree : FileTree :=
  { entries := [(["deep.json"], .file (.text deep.program.toJson.compact))] }

theorem writable_grouped (n : Nat) : (grouped n).toJson.Writable := by
  have hone : Json.Integral 1 := by constructor <;> decide
  induction n with
  | zero => simp [grouped, Node.toJson, hone]
  | succ n ih => simp [grouped, Node.toJson, ih]

theorem writable_deep : deep.program.toJson.Writable := by
  simp [deep, Node.toJson, writable_grouped]

theorem readText_deep : deepTree.readText "deep.json" = .ok deep.program.toJson.compact := rfl

theorem ofText?_deep : LineCommand.ofText? deep.toJson.compact = none := by
  rw [LineCommand.ofText?_compact, if_neg (by decide +kernel)]
  simp [LineCommand.toJson, writable_deep]

theorem turns_deep :
    turns fresh [deep.toJson.compact] = [(.invalid "the line is not a command", fresh)] := by
  have hblank : Text.isBlank deep.toJson.compact = false :=
    Json.isBlank_eq_false (Json.parse?_compact (by simp [LineCommand.toJson, writable_deep]))
  rw [turns, if_neg (by simp [hblank]), answer, ofText?_deep]
  rfl

theorem settled_deep :
    Settled "store.json" (IsInput { store := some "store.json" } ["deep.json"] deepTree) [] deepTree := by
  have hmade : deepTree.makeDirectories (Files.Path.directory "store.json") = (.ok (), deepTree) := rfl
  have hstaging : deepTree.locate? (FileMedium.stagingPath "store.json") = some ["store.json.tmp"] := by
    decide +kernel
  have hplace : deepTree.locate? "store.json" = some ["store.json"] := by decide +kernel
  have hinput : ∀ r, IsInput { store := some "store.json" } ["deep.json"] deepTree r →
      r = ["deep.json"] := by
    rintro r (⟨hconfig, -⟩ | ⟨hpath, hr⟩ | ⟨hdir, -, -⟩)
    · cases hconfig
    · obtain rfl := List.mem_singleton.mp hpath
      exact (Option.some.inj hr).symm
    · cases hdir
  exact .of_ready hmade ⟨hmade, ⟨_, hstaging, by decide +kernel⟩, ⟨_, hplace, by decide +kernel⟩⟩
    (.of_names (by decide +kernel) (by decide +kernel)) hstaging hplace
    (fun h => absurd (hinput _ h) (by decide)) (fun h => absurd (hinput _ h) (by decide)) nofun

/-- The session refuses the line, so its store stays empty. -/
theorem differs_deep :
    Differs { store := some "store.json" } "store.json" deepTree fresh [deep]
      [⟨0, "deep.json", ⟨"ann", "guild"⟩⟩] := by
  have hopen : ((openInterpreter { store := some "store.json" } 0 0 : StateM FileTree _).run
      deepTree).1 = .ok fresh := rfl
  have hruns : Invocation.Runs deepTree ⟨0, "deep.json", ⟨"ann", "guild"⟩⟩ deep :=
    ⟨rfl, readProgram_of_readText writable_deep (by decide +kernel) readText_deep⟩
  have hrolls : RollsNone fresh [deep] := ⟨rfl, trivial⟩
  have hshallow : ∀ x ∈ outcomes fresh [deep], x.2.store.image.toJson.depth ≤ 127 := by
    decide +kernel
  obtain ⟨replies, r, u, hserve, -, hfile⟩ :=
    run_serve_lines (fun n => (n, n + 1000)) 0 0 rfl settled_deep.named settled_deep.accepts hopen
      [deep.toJson.compact]
  obtain ⟨library, hbetween⟩ := between_of_openInterpreter rfl hopen settled_deep
  obtain ⟨r', v, hexecs, hlast⟩ := run_execs rfl (fun n => (n, n + 1))
    (.cons hruns .nil) (by simp) 0 hbetween hrolls hshallow
  refine ⟨rfl, hopen, .cons hruns .nil, settled_deep, hrolls, hshallow, _, _, _, u, v, hserve, hexecs, ?_⟩
  rw [hlast (.inl (List.cons_ne_nil _ _)), hfile, afterTurns, turns_deep]
  decide +kernel

/-! ### A library that comes out of reach -/

/-- A path that leads to a directory and then, step after step, to where it is. -/
def detour : Nat → String
  | 0 => "core"
  | n + 1 => detour n ++ "/."

section Detour

variable (n : Nat) {t : FileTree}

theorem utf8ByteSize_detour : (detour n).utf8ByteSize = 4 + 2 * n := by
  induction n with
  | zero => rfl
  | succ n ih =>
    rw [detour, String.utf8ByteSize_append, ih, show "/.".utf8ByteSize = 2 from rfl]
    omega

theorem parts_detour : Files.Path.parts (detour n) = "core" :: List.replicate n "." := by
  induction n with
  | zero => rfl
  | succ n ih =>
    rw [Files.Path.parts] at ih ⊢
    rw [detour, String.toList_append, show "/.".toList = ['/', '.'] from rfl,
      Files.Path.splitSlashes_append_slash, List.map_append, ih, List.replicate_succ']
    rfl

theorem head?_detour : (detour n).toList.head? = some 'c' := by
  induction n with
  | zero => rfl
  | succ n ih => simp [detour, ih]

theorem nul_notMem_detour : '\x00' ∉ (detour n).toList := by
  induction n with
  | zero => decide
  | succ n ih => simp [detour, ih]

/-- A path that goes on from there can be followed as long as it is short enough. -/
theorem isFollowable_detour {rest : String} (hnul : '\x00' ∉ rest.toList) :
    Files.isFollowable (detour n ++ rest) = true ↔ 4 + 2 * n + rest.utf8ByteSize ≤ 4095 := by
  have hempty : (detour n ++ rest).isEmpty = false := by
    rw [← Bool.not_eq_true, String.isEmpty_iff]
    intro hnone
    have hhead := head?_detour n
    simp_all
  have hnul' : (detour n ++ rest).toList.contains '\x00' = false := by
    simp [hnul, nul_notMem_detour]
  rw [Files.isFollowable, hempty, hnul', String.utf8ByteSize_append, utf8ByteSize_detour,
    Bool.not_false, Bool.true_and, Bool.and_true, decide_eq_true_iff, Files.maxPathBytes]

theorem join_detour {name : String} (habsolute : Files.Path.isAbsolute name = false) :
    Files.Path.join (detour (n + 1)) name = detour (n + 1) ++ "/" ++ name := by
  simp [Files.Path.join, habsolute, detour]

theorem locate?_detour (h : n ≤ 2045) (hhere : t.here = [])
    (hcore : t.isDirectoryAt ["core"] = true) : t.locate? (detour n) = some ["core"] := by
  have hfollowable : Files.isFollowable (detour n) = true := by
    rw [← @String.append_empty (detour n), isFollowable_detour n (by simp), String.utf8ByteSize_empty]
    omega
  have hstay : ∀ m, t.follow? ["core"] (List.replicate m ".") = some ["core"] := by
    intro m
    induction m with
    | zero => rfl
    | succ m ih => simpa [List.replicate_succ, FileTree.follow?, hcore] using ih
  have hroot : t.isDirectoryAt [] = true := by
    simp [FileTree.isDirectoryAt, FileTree.find?, FileTree.isAbove]
  have hname : "core".utf8ByteSize ≤ Files.maxNameBytes := by decide
  rw [FileTree.locate?, if_pos hfollowable, parts_detour, FileTree.start, Files.Path.isAbsolute,
    head?_detour, hhere]
  simpa [FileTree.follow?, hroot, hname] using hstay n

end Detour

def resetting : LineCommand := ⟨⟨"bob", "guild"⟩, .qualifiedAssign .global "x" (.integer 2)⟩

/-- A directory for a library, and the programs of two commands beside it. -/
def hall : FileTree :=
  { entries := [(["core"], .directory), (["one.json"], .file (.text setting.program.toJson.compact)),
      (["two.json"], .file (.text resetting.program.toJson.compact))] }

def hallMade : FileTree := hall.insert ["core", "long-lost-archive"] .directory

/-- A store below the library, which is named by a long path. -/
def hallSetup (n : Nat) : Setup :=
  { store := some "core/long-lost-archive/store", coreDir := some (detour (n + 1)) }

def inHall : Interpreter :=
  .start {} (some (.file (.ofPath "core/long-lost-archive/store"))) {} 0 0

theorem makeDirectories_hall :
    hall.makeDirectories (Files.Path.directory "core/long-lost-archive/store") = (.ok (), hallMade) :=
  rfl

theorem filesBelow_hall {n : Nat} (h : n < 2045) : hall.filesBelow (detour (n + 1)) = .ok [] := by
  have hnames : hall.entriesBelow ["core"] (· == .directory) = [[]] := by decide
  have hfiles : hall.entriesBelow ["core"] (· != .directory) = [] := by decide
  have hreach : Files.isFollowable (Files.Path.join (detour (n + 1)) ("/".intercalate [])) = true := by
    rw [show "/".intercalate [] = "" from rfl, join_detour n rfl, String.append_empty,
      isFollowable_detour _ (by decide), show "/".utf8ByteSize = 1 from rfl]
    omega
  unfold FileTree.filesBelow
  rw [locate?_detour _ h rfl (by decide)]
  dsimp only
  rw [hnames, hfiles, List.map_singleton, List.all_cons, hreach]
  rfl

/-- With the directory of the store, the library cannot be searched any more. -/
theorem filesBelow_of_made {n : Nat} (h : n < 2045) (hlong : 2038 ≤ n) {u : FileTree}
    (hhere : u.here = []) (hcore : u.isDirectoryAt ["core"] = true)
    (hmade : u.isDirectoryAt ["core", "long-lost-archive"] = true) (places : List Files.Place) :
    u.filesBelow (detour (n + 1)) ≠ .ok places := by
  intro hplaces
  obtain ⟨dir, hdir, -, hreach⟩ := FileTree.filesBelow_cases hplaces
  obtain rfl : ["core"] = dir :=
    Option.some.inj ((locate?_detour _ h hhere hcore).symm.trans hdir)
  have hentry : u.entries.lookup ["core", "long-lost-archive"] = some .directory := by
    have hfound := FileTree.find?_eq_directory hmade
    rwa [FileTree.find?, FileTree.isAbove, hhere] at hfound
  obtain ⟨before, after, hentries, -⟩ := List.lookup_eq_some_iff.mp hentry
  have hmem : (["core", "long-lost-archive"], Files.Entry.directory) ∈ u.entries := by
    rw [hentries]
    simp
  have hreach := hreach ["long-lost-archive"] (List.mem_filterMap.mpr ⟨_, hmem, rfl⟩)
  rw [show "/".intercalate ["long-lost-archive"] = "long-lost-archive" from rfl,
    join_detour n (by decide), String.append_assoc, isFollowable_detour _ (by decide),
    show ("/" ++ "long-lost-archive").utf8ByteSize = 18 from rfl] at hreach
  omega

theorem openInterpreter_hall {n : Nat} (h : n < 2045) :
    ((openInterpreter (hallSetup n) 0 0 : StateM FileTree _).run hall).1 = .ok inHall := by
  have hdir : hall.lookup? (detour (n + 1)) = some .directory := by
    rw [FileTree.lookup?, locate?_detour _ h rfl (by decide)]
    rfl
  have hread : ((readLibrary (detour (n + 1)) : StateM FileTree _).run hall).1 = .ok {} := by
    rw [run_readLibrary_of_filesBelow hdir (filesBelow_hall h),
      show libraryFiles [] = [] by simp [libraryFiles]]
    rfl
  have hsurroundings : Surroundings (hallSetup n) {} (some {}) hall := .of_library rfl rfl hread
  exact run_openInterpreter hsurroundings rfl rfl 0 0

theorem settled_hall {n : Nat} (h : n < 2045) :
    Settled "core/long-lost-archive/store" (IsInput (hallSetup n) ["one.json", "two.json"] hall) []
      hall := by
  have hstaging : hallMade.locate? (FileMedium.stagingPath "core/long-lost-archive/store") =
      some ["core", "long-lost-archive", "store.json.tmp"] := by
    decide +kernel
  have hplace : hallMade.locate? "core/long-lost-archive/store" =
      some ["core", "long-lost-archive", "store"] := by
    decide +kernel
  have hinput : ∀ name, isLibraryFile ["long-lost-archive", name] = false →
      ¬ IsInput (hallSetup n) ["one.json", "two.json"] hall ["core", "long-lost-archive", name] := by
    rintro name hname hr
    generalize hp : ["core", "long-lost-archive", name] = r at hr
    rcases hr with ⟨hconfig, -⟩ | ⟨hpath, hr⟩ | ⟨hdir, hcore, hlibrary⟩
    · cases hconfig
    · rcases List.mem_pair.mp hpath with rfl | rfl
      · obtain rfl : ["one.json"] = r := Option.some.inj hr
        simp at hp
      · obtain rfl : ["two.json"] = r := Option.some.inj hr
        simp at hp
    · obtain rfl := Option.some.inj hdir
      obtain rfl := Option.some.inj ((locate?_detour _ h rfl (by decide)).symm.trans hcore)
      obtain rfl := (List.cons.inj hp).2
      rw [hname] at hlibrary
      cases hlibrary
  exact .of_ready makeDirectories_hall
    ⟨rfl, ⟨_, hstaging, by decide +kernel⟩, ⟨_, hplace, by decide +kernel⟩⟩
    (.of_names (by decide +kernel) (by decide +kernel)) hstaging hplace
    (hinput _ (by decide)) (hinput _ (by decide)) nofun

/-- What is saved in the hall puts the library out of reach. -/
theorem openInterpreter_of_saved {n : Nat} (h : n < 2045) (hlong : 2038 ≤ n) {i : Image} {u : FileTree}
    (hsave : (FileMedium.writeImage "core/long-lost-archive/store" i : StateM FileTree _).run hall =
      (.ok (), u)) (now : Nat) (entropy : UInt64) :
    ∃ fault, ((openInterpreter (hallSetup n) now entropy : StateM FileTree _).run u).1 =
      .error fault := by
  obtain ⟨t, v, hmake, hwrite, hrename⟩ := FileMedium.writeImage_cases hsave
  obtain rfl : hallMade = t := (Prod.mk.inj (makeDirectories_hall.symm.trans hmake)).2
  have hgrows : FileTree.Grows (fun _ => False) hallMade u :=
    (FileTree.Grows.write hwrite fun _ _ _ h => h).trans
      (FileTree.Grows.rename hrename (fun _ _ _ h => h) fun _ _ _ h => h)
  cases hopen : ((openInterpreter (hallSetup n) now entropy : StateM FileTree _).run u).1 with
  | error fault => exact ⟨fault, rfl⟩
  | ok j =>
    obtain ⟨library, store, hsurroundings, -, -⟩ := openInterpreter_cases rfl hopen
    obtain ⟨bindings, -, hread⟩ := hsurroundings.stocked _ rfl
    obtain ⟨-, places, hplaces, -⟩ := readLibrary_cases hread
    exact absurd hplaces (filesBelow_of_made h hlong hgrows.here
      (hgrows.directories _ (by decide +kernel)) (hgrows.directories _ (by decide +kernel)) places)

theorem writable_setting : setting.program.toJson.Writable := by
  have hone : Json.Integral 1 := by constructor <;> decide
  simp [setting, Node.toJson, hone]

theorem writable_resetting : resetting.program.toJson.Writable := by
  have htwo : Json.Integral 2 := by constructor <;> decide
  simp [resetting, Node.toJson, htwo]

/-- The first run puts the library out of reach of the second, and its command is lost. -/
theorem differs_hall {n : Nat} (h : n < 2045) (hlong : 2038 ≤ n) :
    Differs (hallSetup n) "core/long-lost-archive/store" hall inHall [setting, resetting]
      [⟨0, "one.json", ⟨"ann", "guild"⟩⟩, ⟨0, "two.json", ⟨"bob", "guild"⟩⟩] := by
  have hsettled := settled_hall h
  have hopen := openInterpreter_hall h
  have hruns : Invocation.Runs hall ⟨0, "one.json", ⟨"ann", "guild"⟩⟩ setting :=
    ⟨rfl, readProgram_of_readText writable_setting (by decide) rfl⟩
  have hruns' : Invocation.Runs hall ⟨0, "two.json", ⟨"bob", "guild"⟩⟩ resetting :=
    ⟨rfl, readProgram_of_readText writable_resetting (by decide) rfl⟩
  obtain ⟨replies, r, u, hserve, -, hfile⟩ :=
    run_serve_lines (fun n => (n, n + 1000)) 0 0 rfl hsettled.named hsettled.accepts hopen
      [setting.toJson.compact, resetting.toJson.compact]
  have hlines : [setting.toJson.compact, resetting.toJson.compact].map LineCommand.ofText? =
      [setting, resetting].map some := by
    rw [List.map_cons, List.map_singleton, ofText?_setting,
      ofText?_line writable_resetting (by decide)]
    rfl
  rw [(turns_eq hlines).2] at hfile
  obtain ⟨-, text, htext, hread⟩ := readProgram_cases hruns.2
  obtain ⟨v, hsave, -, -, -, hsaved⟩ :=
    hsettled.save (inHall.execute setting.program setting.identity).2.store.image
  have hfirst := run_exec (fun n => (n, n + 1)) 0 hopen (hread hall htext) rfl hsave
  obtain ⟨fault, hfault⟩ := openInterpreter_of_saved h hlong hsave 1 0
  have hsecond := run_exec_of_error (fun n => (n, n + 1)) 1 "two.json" ⟨"bob", "guild"⟩ hfault
  refine ⟨rfl, hopen, .cons hruns (.cons hruns' .nil), hsettled, ⟨rfl, rfl, trivial⟩,
    by decide +kernel, _, _, _, u, v, hserve, run_mapM_cons hfirst (run_mapM_cons hsecond rfl), ?_⟩
  rw [hfile, hsaved]
  decide +kernel

/-- A session refuses a line that is too deep where the program by itself is not, and a run fails to
open a library that the directory of the store has put out of reach. -/
theorem session_and_single_runs_can_differ :
    Differs { store := some "store.json" } "store.json" deepTree fresh [deep]
        [⟨0, "deep.json", ⟨"ann", "guild"⟩⟩] ∧
      Differs (hallSetup 2039) "core/long-lost-archive/store" hall inHall [setting, resetting]
        [⟨0, "one.json", ⟨"ann", "guild"⟩⟩, ⟨0, "two.json", ⟨"bob", "guild"⟩⟩] :=
  ⟨differs_deep, differs_hall (by decide) (by decide)⟩

end Command

end DiceScript
