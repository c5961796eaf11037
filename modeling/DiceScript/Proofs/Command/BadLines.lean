import DiceScript.Proofs.Command.Agreement

/-!
# Lines that are no commands

Every line that is not blank has a reply. What keeps the store between the lines, on whatever disk and
by whatever clock, is told in the replies and not seen by the programs. And a line that is no command
reaches neither the store nor the dice: it is reported to the schedule alone. So the commands among
the lines come to what they come to without the rest.

- `yields_serveLine`, `yields_answerLines`, `yields_serveLines` — of a line, of lines and of a session.
- `turns_filterMap` — only commands count.
- `bad_lines_do_no_harm` — whole sessions, one by one and in pairs.
-/

namespace DiceScript.Command

open Files (Disk)

/-! ## Replies -/

section Replies

variable {σ : Type} [Disk (StateM σ)] {i j : Interpreter}

/-- A reply tells what its line comes to, whatever becomes of the store. -/
theorem yields_serveLine (h : i.RunsAs j) (now : Nat) (line : String) :
    Yields (fun r => r.1.toList.map Reply.answer = (turns i [line]).map Prod.fst ∧
      (afterTurns i [line]).RunsAs r.2) (serveLine j now line : StateM σ _) := by
  unfold serveLine
  by_cases hblank : Text.isBlank line = true
  · rw [if_pos hblank, afterTurns_blank hblank, turns, if_pos hblank]
    exact .pure ⟨rfl, h⟩
  · rw [if_neg hblank, afterTurns_answer hblank, turns, if_neg hblank]
    obtain ⟨hgiven, hruns⟩ := runsAs_answer h line
    refine .bind (Interpreter.yields_afterCommand hruns now) fun kept hkept => ?_
    exact .pure ⟨congrArg (fun given => [given]) hgiven, hkept⟩

theorem turns_cons (i : Interpreter) (line : String) (rest : List String) :
    turns i (line :: rest) = turns i [line] ++ turns (afterTurns i [line]) rest ∧
      afterTurns i (line :: rest) = afterTurns (afterTurns i [line]) rest := by
  by_cases hblank : Text.isBlank line = true
  · simp only [afterTurns_blank hblank, turns, if_pos hblank]
    exact ⟨rfl, rfl⟩
  · simp only [afterTurns_answer hblank, turns, if_neg hblank]
    exact ⟨rfl, rfl⟩

/-- Lines are answered as `turns` tells, and every reply is counted. -/
theorem yields_answerLines (clock : StateM σ Nat) (lines : List String) :
    ∀ {i j : Interpreter} (summary : Summary), i.RunsAs j →
      Yields (fun a => a.replies.map Reply.answer = (turns i lines).map Prod.fst ∧
        (afterTurns i lines).RunsAs a.interpreter ∧
        a.ending = .ok (a.replies.foldl Summary.add summary))
        (answerLines clock j summary (lines.map some)) := by
  induction lines with
  | nil =>
    intro i j summary h
    exact .pure ⟨rfl, h, rfl⟩
  | cons line lines ih =>
    intro i j summary h
    obtain ⟨hturns, hafter⟩ := turns_cons i line lines
    refine .bind (.trivially clock) fun now _ => ?_
    refine .bind (yields_serveLine h now line) fun served hserved => ?_
    obtain ⟨reply, k⟩ := served
    obtain ⟨hanswer, hruns⟩ := hserved
    refine .bind (ih _ hruns) fun later hlater => ?_
    obtain ⟨hanswers, hlast, hending⟩ := hlater
    refine .pure ⟨?_, hafter ▸ hlast, ?_⟩
    · rw [hturns, List.map_append, List.map_append, hanswer, hanswers]
    · rw [hending, List.foldl_append]

/-- A session answers the lines of its input up to one that is no text, and if there is one, ends in
saying so. -/
theorem yields_serveLines (clock : StateM σ Nat) (i : Interpreter) (input : List (Option String)) :
    Yields (fun served => served.1.map Reply.answer = (turns i (texts input)).map Prod.fst ∧
      (none ∈ input → served.2 = some unreadableLine)) (serveLines clock i input) := by
  have hinput := texts_cases input
  generalize texts input = lines at hinput ⊢
  have hlines := yields_answerLines clock lines {} (.refl i)
  rcases hinput with ⟨hmem, rfl⟩ | ⟨-, rest, rfl⟩
  · refine .bind hlines fun a ha => ?_
    obtain ⟨hanswers, -, hending⟩ := ha
    rw [Answered.conclude, hending]
    exact .bind (.trivially _) fun fault _ => .pure ⟨hanswers, fun h => absurd h hmem⟩
  · rw [serveLines, answerLines_append, bind_assoc]
    refine .bind hlines fun a ha => ?_
    obtain ⟨hanswers, -, hending⟩ := ha
    rw [Answered.more, hending]
    refine .pure ⟨?_, fun _ => rfl⟩
    simpa using hanswers

theorem foldl_add (replies : List Reply) (summary : Summary) :
    replies.foldl Summary.add summary =
      ⟨summary.handled + replies.length, summary.failed + replies.countP (!·.isOk)⟩ := by
  induction replies generalizing summary with
  | nil => rfl
  | cons r replies ih =>
    rw [List.foldl_cons, ih, List.length_cons, List.countP_cons, Summary.add]
    cases r.isOk <;> simp <;> omega

theorem length_turns (i : Interpreter) (lines : List String) :
    (turns i lines).length = lines.countP (!Text.isBlank ·) := by
  induction lines generalizing i with
  | nil => rfl
  | cons line lines ih =>
    rw [turns, List.countP_cons]
    cases Text.isBlank line <;> simp [ih]

end Replies

/-! ## Only commands count -/

section Commands

variable {α β : Type} {i : Interpreter}

/-- Of what answers the lines that are not blank, in order, what answers a command. -/
def toCommands (lines : List String) (answers : List α) : List α :=
  (((lines.filter (!Text.isBlank ·)).zip answers).filter
    fun x => (LineCommand.ofText? x.1).isSome).map Prod.snd

theorem toCommands_map (f : α → β) (lines : List String) (answers : List α) :
    toCommands lines (answers.map f) = (toCommands lines answers).map f := by
  simp [toCommands, List.zip_map_right, List.filter_map, Function.comp_def]

/-- A line that is no command leaves the interpreter as it is. -/
theorem answer_of_none {line : String} (h : LineCommand.ofText? line = none) :
    answer i line = (.invalid "the line is not a command", i) := by
  rw [answer, h]

/-- The commands among lines come to what they come to by themselves, and nothing else is left. -/
theorem turns_filterMap (i : Interpreter) (lines : List String) :
    (toCommands lines (turns i lines)).map Prod.fst =
        (outcomes i (lines.filterMap LineCommand.ofText?)).map (Answer.ofResult ·.1) ∧
      afterTurns i lines = afterAll i (lines.filterMap LineCommand.ofText?) := by
  induction lines generalizing i with
  | nil => exact ⟨rfl, rfl⟩
  | cons line lines ih =>
    cases hline : LineCommand.ofText? line with
    | some c =>
      have hblank := isBlank_eq_false hline
      obtain ⟨hanswers, hlast⟩ := ih (i.execute c.program c.identity).2
      rw [afterTurns_answer (by simp [hblank]), answer_eq hline, hlast,
        List.filterMap_cons_some hline, outcomes, List.map_cons, ← hanswers]
      refine ⟨?_, rfl⟩
      simp [toCommands, turns, hblank, hline, answer_eq hline]
    | none =>
      rw [List.filterMap_cons_none hline]
      by_cases hblank : Text.isBlank line = true
      · obtain ⟨hanswers, hlast⟩ := ih i
        rw [afterTurns_blank hblank, hlast, ← hanswers]
        refine ⟨?_, rfl⟩
        simp [toCommands, turns, hblank]
      · obtain ⟨hanswers, hlast⟩ := ih i
        rw [afterTurns_answer hblank, answer_of_none hline, hlast, ← hanswers]
        refine ⟨?_, rfl⟩
        simp [toCommands, turns, hblank, hline, answer_of_none hline]

end Commands

/-! ## Sessions -/

section Sessions

variable {σ τ : Type} [Disk (StateM σ)] [Disk (StateM τ)]

/-- What a run over lines leaves to the commands among them. -/
theorem run_answerLines (i : Interpreter) (clock : StateM σ Nat) (s : σ) (lines : List String) :
    let a := ((answerLines clock i {} (lines.map some)).run s).1
    (toCommands lines a.replies).map Reply.answer =
        (outcomes i (lines.filterMap LineCommand.ofText?)).map (Answer.ofResult ·.1) ∧
      a.interpreter.store = (afterAll i (lines.filterMap LineCommand.ofText?)).store := by
  intro a
  obtain ⟨hanswers, hruns, -⟩ := yields_answerLines clock lines {} (.refl i) s
  obtain ⟨hcommands, hlast⟩ := turns_filterMap i lines
  constructor
  · rw [← toCommands_map, hanswers, toCommands_map, hcommands]
  · rw [hruns.store, hlast]

/-- **A session answers every line, and lines that are no commands do no harm.** On any disk, which may
fail at any time, and by any clock, the lines of a session that are not blank have one reply each, in
their order, and the session tells how many replies it gave and how many of them tell of a failure.
Of two sessions whose lines hold the same commands, blank lines and lines that are no commands apart,
each on a disk and by a clock of its own, the commands are answered alike and the same store is left;
only what the replies tell of keeping the store may differ. -/
theorem bad_lines_do_no_harm (i : Interpreter) (clock : StateM σ Nat) (s : σ) (clock' : StateM τ Nat)
    (t : τ) {lines lines' : List String}
    (h : lines.filterMap LineCommand.ofText? = lines'.filterMap LineCommand.ofText?) :
    let a := ((answerLines clock i {} (lines.map some)).run s).1
    let b := ((answerLines clock' i {} (lines'.map some)).run t).1
    (a.replies.map Reply.answer = (turns i lines).map Prod.fst ∧
      a.replies.length = lines.countP (!Text.isBlank ·) ∧
      a.ending = .ok ⟨a.replies.length, a.replies.countP (!·.isOk)⟩) ∧
    (toCommands lines a.replies).map Reply.answer =
      (toCommands lines' b.replies).map Reply.answer ∧
    a.interpreter.store = b.interpreter.store := by
  intro a b
  obtain ⟨hanswers, -, hending⟩ := yields_answerLines clock lines {} (.refl i) s
  obtain ⟨hcommands, hstore⟩ := run_answerLines i clock s lines
  obtain ⟨hcommands', hstore'⟩ := run_answerLines i clock' t lines'
  refine ⟨⟨hanswers, ?_, ?_⟩, ?_, ?_⟩
  · have hlength := congrArg List.length hanswers
    rwa [List.length_map, List.length_map, length_turns] at hlength
  · rw [foldl_add] at hending
    simpa using hending
  · rw [hcommands, hcommands', h]
  · rw [hstore, hstore', h]

end Sessions

/-- A blank line and a line that is no command are put before a command: there are two replies, and the
command has the same answer, an hour and a half apart. -/
theorem bad_lines_do_no_harm_setting :
    let lines := ["  ", "\x7b", setting.toJson.compact]
    let lines' := [setting.toJson.compact]
    let a := ((answerLines (pure 0 : StateM Files.FileTree Nat) fresh {} (lines.map some)).run {}).1
    let b := ((answerLines (pure 5400000 : StateM Files.FileTree Nat) fresh {}
      (lines'.map some)).run {}).1
    lines.filterMap LineCommand.ofText? = [setting] ∧ a.replies.length = 2 ∧
      (toCommands lines a.replies).map Reply.answer = (toCommands lines' b.replies).map Reply.answer ∧
      a.interpreter.store = b.interpreter.store := by
  intro lines lines'
  have hspaces : LineCommand.ofText? "  " = none := rfl
  have hopen : LineCommand.ofText? "\x7b" = none := rfl
  have hlines : lines.filterMap LineCommand.ofText? = [setting] := by
    simp [lines, hspaces, hopen, ofText?_setting]
  have hlines' : lines'.filterMap LineCommand.ofText? = [setting] := by
    simp [lines', ofText?_setting]
  obtain ⟨⟨-, hlength, -⟩, hanswers, hstore⟩ :=
    bad_lines_do_no_harm fresh (pure 0 : StateM Files.FileTree Nat) {}
      (pure 5400000 : StateM Files.FileTree Nat) {} (hlines.trans hlines'.symm)
  refine ⟨hlines, ?_, hanswers, hstore⟩
  have hblank : Text.isBlank "  " = true := rfl
  have hopen' : Text.isBlank "\x7b" = false := rfl
  rw [hlength]
  simp [lines, isBlank_setting, hblank, hopen']

end DiceScript.Command
