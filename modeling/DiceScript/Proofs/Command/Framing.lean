import DiceScript.Proofs.Command.BadLines
import DiceScript.Proofs.Json.OneLine

/-!
# Lines that cannot be forged

What a command prints is read line by line: a tag says what the rest of its line is. A program chooses
strings, names and what it prints, and a disk the wording of its complaints, but all of that is written
as JSON and stays on its line. So the lines that a reader finds are those that were meant, and the
texts on them are those that were told.

- `Tagged`, `Decodes` — a payload on its line, and what a reader gets from it.
- `TellsOutcome`, `TellsFault`, `TellsNames`, `TellsSession` — the blocks of lines, for a reader.
- `splitOn_printed` — a reader finds the lines that were printed.
- `TellsCommand` — the block for what a request comes to on a disk.
- `printed_lines_not_forged` — whole commands.
-/

namespace DiceScript.Command

open Files (Disk FileTree)
open Text (OneLine)

/-! ## Payloads -/

/-- A line is a tag and a payload that stays on the line and is as it should be. -/
def Tagged (tag : String) (P : String → Prop) (line : String) : Prop :=
  ∃ payload, line = tag ++ payload ∧ OneLine payload.toList ∧ P payload

def Decodes (j : Json) (payload : String) : Prop := Json.parse? payload = some j

theorem decodes_compact {j : Json} (h : j.Writable) : Decodes j j.compact := Json.parse?_compact h

/-- A line with a document. -/
theorem tagged_compact {j : Json} {P : String → Prop} (tag : String) (h : P j.compact) :
    Tagged tag P (tag ++ j.compact) :=
  ⟨j.compact, rfl, Json.oneLine_compact j, h⟩

/-- A line with a text, whatever the text is. -/
theorem tagged_quote (tag text : String) :
    Tagged tag (Decodes (.str text)) (tag ++ Json.quote text) := by
  rw [← Json.compact_str]
  exact tagged_compact tag (decodes_compact (Json.writable_str text))

/-! ## Blocks -/

def TellsActions : List String → List String → Prop :=
  List.Forall₂ fun action => Tagged "ACTION_JSON:" (Decodes (.str action))

/-- Lines that tell of an outcome: its value, its display and its actions. -/
def TellsOutcome (o : Outcome) (lines : List String) : Prop :=
  ∃ value display actions, lines = "RESULT:OK" :: value :: display :: actions ∧
    Tagged "VALUE_JSON:" (· = o.value.toJson.compact) value ∧
    Tagged "DISPLAY_JSON:" (Decodes (.str o.value.display)) display ∧
    TellsActions o.actions actions

/-- Lines that tell of a fault: its kind, its message, a count if it has one, and its actions. -/
def TellsFault (f : Fault) (lines : List String) : Prop :=
  ∃ kind message count actions, lines = "RESULT:ERROR" :: kind :: message :: (count ++ actions) ∧
    Tagged "ERROR_KIND:" (· = f.code) kind ∧
    Tagged "ERROR_MSG_JSON:" (Decodes (.str f.message)) message ∧
    List.Forall₂ (fun n => Tagged "ITERATIONS:" (· = toString n.toNat)) f.iterations.toList count ∧
    TellsActions f.actions actions

def TellsNames (listed : List (Tier × List String)) (lines : List String) : Prop :=
  ∃ tiers, lines = "RESULT:OK" :: tiers ∧
    List.Forall₂ (fun tier => Tagged ("TIER:" ++ tier.1.name ++ "|")
      (Decodes (.arr (tier.2.map .str)))) listed tiers

/-- Lines that tell of a session: one for each reply, and a fault if the session ended in one. -/
def TellsSession (replies : List Reply) (ending : Option Fault) (lines : List String) : Prop :=
  ∃ told last, lines = told ++ last ∧
    List.Forall₂ (fun r => Tagged "" (· = r.toJson.compact)) replies told ∧
    match ending with
    | none => last = []
    | some f => TellsFault f last

section Blocks

theorem tellsActions_actionLines (actions : List String) :
    TellsActions actions (Report.actionLines actions) :=
  List.forall₂_map_right_iff.mpr (List.forall₂_same.mpr fun action _ => tagged_quote _ action)

theorem oneLine_code (f : Fault) : OneLine f.code.toList := by
  rcases f with ⟨step, message⟩ | fault | failure
  · cases step <;> simp [Fault.code, HostStep.code]
  · simp [Fault.code, StorageFault.failure, FailureKind.code]
  · obtain ⟨kind, message, iterations, actions⟩ := failure
    cases kind <;> simp [Fault.code, FailureKind.code]

theorem tellsOutcome_lines (o : Outcome) (kept : Bool) :
    TellsOutcome o (Report.outcome o kept).lines :=
  ⟨_, _, _, rfl, tagged_compact _ rfl, tagged_quote _ _, tellsActions_actionLines _⟩

theorem tellsFault_faultLines (f : Fault) : TellsFault f (Report.faultLines f) := by
  refine ⟨_, _, f.iterations.toList.map fun n => "ITERATIONS:" ++ toString n.toNat, _, ?_,
    ⟨f.code, rfl, oneLine_code f, rfl⟩, tagged_quote _ _, ?_, tellsActions_actionLines _⟩
  · unfold Report.faultLines
    cases f.iterations <;> rfl
  · refine List.forall₂_map_right_iff.mpr (List.forall₂_same.mpr fun n _ => ?_)
    exact ⟨_, rfl, by simp, rfl⟩

theorem tellsNames_lines (listed : List (Tier × List String)) :
    TellsNames listed (Report.names listed).lines := by
  refine ⟨_, rfl, List.forall₂_map_right_iff.mpr (List.forall₂_same.mpr fun tier _ => ?_)⟩
  have hnames : (Json.arr (tier.2.map .str)).Writable := by simp
  exact tagged_compact _ (decodes_compact hnames)

theorem tellsSession_lines (replies : List Reply) (ending : Option Fault) :
    TellsSession replies ending (Report.session replies ending).lines := by
  refine ⟨_, _, rfl, List.forall₂_map_right_iff.mpr (List.forall₂_same.mpr fun r _ => ?_), ?_⟩
  · exact ⟨_, (String.empty_append).symm, Json.oneLine_compact _, rfl⟩
  · cases ending with
    | none => rfl
    | some f => exact tellsFault_faultLines f

end Blocks

/-! ## Finding the lines -/

section Printed

/-- What a report prints: its lines, each with its end. -/
def Report.printed (r : Report) : String := String.join (r.lines.map (· ++ "\n"))

theorem oneLine_faultLines (f : Fault) : ∀ line ∈ Report.faultLines f, OneLine line.toList := by
  unfold Report.faultLines Report.actionLines
  have hcode := oneLine_code f
  cases f.iterations <;> simp [hcode]

/-- No line of a report breaks. -/
theorem oneLine_lines (r : Report) : ∀ line ∈ r.lines, OneLine line.toList := by
  cases r with
  | outcome o kept => simp [Report.lines, Report.outcomeLines, Report.actionLines]
  | names listed =>
    have hname : ∀ tier : Tier, OneLine tier.name.toList := by
      intro tier
      cases tier <;> simp [Tier.name]
    intro line hline
    rcases List.mem_cons.mp hline with rfl | htier
    · simp
    · obtain ⟨tier, -, rfl⟩ := List.mem_map.mp htier
      simp [Report.tierLine, hname]
  | session replies ending =>
    intro line hline
    rcases List.mem_append.mp hline with hreply | hlast
    · obtain ⟨r, -, rfl⟩ := List.mem_map.mp hreply
      exact Json.oneLine_compact _
    · cases ending with
      | none => cases hlast
      | some f => exact oneLine_faultLines f line hlast
  | fault f => exact oneLine_faultLines f
  | help => simp [Report.lines, Report.helpLines]
  | usage => exact nofun

/-- Lines that do not break are found again where they end. -/
theorem splitOn_lines {lines : List (List Char)} (h : ∀ line ∈ lines, '\n' ∉ line) :
    (lines.flatMap (· ++ ['\n'])).splitOn '\n' = lines ++ [[]] := by
  induction lines with
  | nil => rfl
  | cons line lines ih =>
    obtain ⟨hline, hlines⟩ := List.forall_mem_cons.mp h
    have hfirst : ∀ c ∈ line, (c == '\n') = false := by
      rintro c hc
      apply beq_false_of_ne
      rintro rfl
      exact hline hc
    rw [List.flatMap_cons, List.append_assoc, List.singleton_append, List.splitOn,
      List.splitOnP_append_cons_of_forall_mem hfirst '\n' rfl, List.cons_append, ← ih hlines]
    rfl

/-- A reader who takes what was printed apart at line breaks finds the lines of the report, and nothing
after the last one. -/
theorem splitOn_printed (r : Report) :
    r.printed.toList.splitOn '\n' = r.lines.map String.toList ++ [[]] := by
  have hlines : ∀ line ∈ r.lines.map String.toList, '\n' ∉ line := by
    intro line hline
    obtain ⟨text, htext, rfl⟩ := List.mem_map.mp hline
    exact (oneLine_lines r text htext).not_mem
  rw [← splitOn_lines hlines, Report.printed, String.toList_join]
  simp [List.flatMap_map]

end Printed

/-! ## Commands -/

section Commands

variable {σ : Type} [Disk (StateM σ)] (clock : StateM σ Nat) (entropy : UInt64)

def Request.setup : Request → Setup
  | .exec _ _ setup => setup
  | .view _ _ setup => setup
  | .serve setup => setup

/-- Lines tell what a program comes to, once it was read or not. -/
def TellsRun (i : Interpreter) (identity : Identity) (lines : List String) : Except Fault Node → Prop
  | .error fault => TellsFault fault lines
  | .ok node =>
    match (i.execute node identity).1 with
    | .ok o => TellsOutcome o lines
    | .error failure => TellsFault (.program failure) lines

/-- Lines tell what an interpreter makes of a request on a disk `s`: the program that is read there is
run, the names in the tiers are listed, or the lines of the input are answered up to one that is no
text, which a session ends in saying. -/
def TellsRequest (input : List (Option String)) (i : Interpreter) (s : σ) (lines : List String) :
    Request → Prop
  | .exec program identity _ =>
    TellsRun i identity lines ((readProgram program : StateM σ _).run s).1
  | .view identity tiers _ => TellsNames (tiers.map fun tier => (tier, i.keys tier identity)) lines
  | .serve _ =>
    let served := ((serveLines clock i input).run s).1
    served.1.map Reply.answer = (turns i (texts input)).map Prod.fst ∧
      (none ∈ input → served.2 = some unreadableLine) ∧ TellsSession served.1 served.2 lines

/-- Lines tell what a request comes to on a disk `s`: why no interpreter could be opened there, or what
the one that was opened makes of it. -/
def TellsCommand (input : List (Option String)) (request : Request) (s : σ) (lines : List String) :
    Prop :=
  let opened := (do openInterpreter request.setup (← clock) entropy : StateM σ _).run s
  match opened.1 with
  | .error fault => TellsFault fault lines
  | .ok i => TellsRequest clock input i opened.2 lines request

variable {input : List (Option String)}

/-- What is printed by a command that opens an interpreter first tells of it, if what follows does. -/
theorem tellsCommand_of_next {request : Request} {next : Interpreter → StateM σ Report}
    (h : ∀ i t, TellsRequest clock input i t ((next i).run t).1.lines request) (s : σ) :
    let command : StateM σ Report := do
      match ← openInterpreter request.setup (← clock) entropy with
      | .error fault => return .fault fault
      | .ok i => next i
    TellsCommand clock entropy input request s (command.run s).1.lines := by
  intro command
  unfold TellsCommand
  have hrun : command.run s =
      let opened := (do openInterpreter request.setup (← clock) entropy : StateM σ _).run s
      StateT.run (match opened.1 with
        | .error fault => pure (.fault fault)
        | .ok i => next i) opened.2 := rfl
  rw [hrun]
  generalize (do openInterpreter request.setup (← clock) entropy : StateM σ _).run s = opened
  obtain ⟨fault | i, t⟩ := opened
  · exact tellsFault_faultLines fault
  · exact h i t

theorem tellsCommand_exec (program : String) (identity : Identity) (setup : Setup) (s : σ) :
    TellsCommand clock entropy input (.exec program identity setup) s
      ((exec clock entropy program identity setup).run s).1.lines := by
  refine tellsCommand_of_next clock entropy (fun i t => ?_) s
  dsimp only [TellsRequest]
  rcases hread : (readProgram program : StateM σ _).run t with ⟨read, u⟩
  rw [run_bind_of_run hread]
  cases read with
  | error fault => exact tellsFault_faultLines fault
  | ok node =>
    dsimp only [TellsRun]
    generalize i.execute node identity = executed
    obtain ⟨failure | o, j⟩ := executed
    · exact tellsFault_faultLines (.program failure)
    · exact tellsOutcome_lines o _

theorem tellsCommand_view (identity : Identity) (tiers : List Tier) (setup : Setup) (s : σ) :
    TellsCommand clock entropy input (.view identity tiers setup) s
      ((view clock entropy identity tiers setup).run s).1.lines := by
  refine tellsCommand_of_next clock entropy (fun i t => ?_) s
  exact tellsNames_lines _

theorem tellsCommand_serve (setup : Setup) (s : σ) :
    TellsCommand clock entropy input (.serve setup) s
      ((serve clock entropy setup input).run s).1.lines := by
  refine tellsCommand_of_next clock entropy (fun i t => ?_) s
  obtain ⟨hanswers, hending⟩ := yields_serveLines clock i input t
  exact ⟨hanswers, hending, tellsSession_lines _ _⟩

/-- **No text forges a line.** On any disk and by any clock, a command line that is understood prints
lines that a reader finds again at the line breaks, whatever strings and names there are. What they
tell is what the request comes to on that disk: the fault of opening an interpreter or of reading a
program; the outcome of the program or its failure; the names in each of the tiers that were asked for,
in order; or the replies to the lines of the input, and then the fault that the session ended in, if it
did. In each of these blocks the payloads stay on their lines, and the texts, messages, actions and
names are read from them as they were. -/
theorem printed_lines_not_forged (s : σ) (args : List String) (input : List (Option String))
    {request : Request} (h : parse args = .ok request) :
    let report := ((run clock entropy args input).run s).1
    report.printed.toList.splitOn '\n' = report.lines.map String.toList ++ [[]] ∧
      TellsCommand clock entropy input request s report.lines := by
  intro report
  refine ⟨splitOn_printed _, ?_⟩
  show TellsCommand clock entropy input request s ((run clock entropy args input).run s).1.lines
  rw [run, runWith, h]
  cases request with
  | exec program identity setup => exact tellsCommand_exec clock entropy program identity setup s
  | view identity tiers setup => exact tellsCommand_view clock entropy identity tiers setup s
  | serve setup => exact tellsCommand_serve clock entropy setup s

end Commands

def forging : Node := .print (.string "\nRESULT:ERROR")

def forgery : FileTree := { entries := [(["forge.json"], .file (.text forging.toJson.compact))] }

theorem readProgram_forgery :
    (readProgram "forge.json" : StateM FileTree _).run forgery = (.ok forging, forgery) := by
  have hread : ((readProgram "forge.json" : StateM FileTree _).run forgery).1 = .ok forging :=
    readProgram_of_readText (by simp [forging, Node.toJson]) (by decide) rfl
  obtain ⟨-, text, htext, hrun⟩ := readProgram_cases hread
  exact hrun forgery htext

/-- What the program prints is told as an action of its outcome, on one line. -/
theorem printed_lines_not_forged_action :
    let args := ["exec", "--program", "forge.json", "--user=ann", "--server=guild"]
    let report := ((run (pure 0 : StateM FileTree Nat) 0 args []).run forgery).1
    parse args = .ok (.exec "forge.json" ⟨"ann", "guild"⟩ {}) ∧
      report.printed.toList.splitOn '\n' = report.lines.map String.toList ++ [[]] ∧
      TellsOutcome ⟨.string "\nRESULT:ERROR", ["\nRESULT:ERROR"]⟩ report.lines := by
  intro args
  have hargs : parse args = .ok (.exec "forge.json" ⟨"ann", "guild"⟩ {}) := by decide +kernel
  have hopen : (do openInterpreter {} (← (pure 0 : StateM FileTree Nat)) 0 :
      StateM FileTree _).run forgery = (.ok (.start {} none {} 0 0), forgery) := rfl
  have htold := printed_lines_not_forged (pure 0 : StateM FileTree Nat) 0 forgery args [] hargs
  unfold TellsCommand at htold
  dsimp only [Request.setup] at htold
  rw [hopen] at htold
  dsimp only [TellsRequest] at htold
  rw [readProgram_forgery] at htold
  -- What is printed is not looked at, so only the program has to be run.
  generalize ((run (pure 0 : StateM FileTree Nat) 0 args []).run forgery).1 = report at htold ⊢
  exact ⟨hargs, htold⟩

end DiceScript.Command
