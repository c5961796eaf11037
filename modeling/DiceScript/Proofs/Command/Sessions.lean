import DiceScript.Command.Run
import DiceScript.Proofs.Codec.Texts
import DiceScript.Proofs.Command.Carried
import DiceScript.Proofs.Persistence.Keeping

/-!
# What is left of a session

A session answers lines in turn. What the lines come to can be told without any file: `turns` gives
the answer to each and the interpreter after it. A session over a path that takes images gives these
answers whatever the clock says, and saves the store when its input ends. A line that is no text ends
it, too, but then nothing is saved, and the file holds what the schedule last put there.

- `turns` — what lines come to.
- `held` — what a file holds after replies.
- `answered_as_read` — a session whose lines are answered as they come.
- `serveLines_texts` — a session as far as its input is text.
- `serve_saves_unless_cut_short` — whole sessions, on any input.
- `answered_command_not_saved` — a command that was answered and is lost.
-/

namespace DiceScript.Command

open Files (FileTree Entry)

/-! ## Opening -/

/-- An action only reads the tree, and what it yields has a property. -/
def Reads {α : Type} (P : α → Prop) (x : StateM FileTree α) : Prop :=
  ∀ t, (x.run t).2 = t ∧ P (x.run t).1

namespace Reads

variable {α β : Type} {P : α → Prop} {Q : β → Prop}

theorem pure {a : α} (h : P a) : Reads P (Pure.pure a) :=
  fun _ => ⟨rfl, h⟩

theorem bind {x : StateM FileTree α} {f : α → StateM FileTree β} (h : Reads P x)
    (hnext : ∀ a, P a → Reads Q (f a)) : Reads Q (x >>= f) := by
  intro t
  obtain ⟨ht, ha⟩ := h t
  have hf := hnext _ ha t
  rw [StateT.run_bind]
  show (((f (x.run t).1).run (x.run t).2).2 = t) ∧ Q ((f (x.run t).1).run (x.run t).2).1
  rw [ht]
  exact hf

theorem get {f : FileTree → α} : Reads (fun _ => True) (do return f (← MonadState.get)) :=
  fun _ => ⟨rfl, trivial⟩

end Reads

theorem reads_readOptionsFile (config : Option String) :
    Reads (fun _ => True) (readOptionsFile config) := by
  cases config with
  | none => exact .pure trivial
  | some path =>
    refine .bind .get fun text _ => ?_
    cases text with
    | error why => exact .pure trivial
    | ok text =>
      dsimp only
      split <;> exact .pure trivial

theorem reads_load (d : Medium) : Reads (fun _ => True) (d.load : StateM FileTree _) := by
  cases d with
  | memory d => exact .pure trivial
  | file d =>
    refine .bind .get fun present _ => ?_
    cases present with
    | false => exact .pure trivial
    | true =>
      refine .bind .get fun text _ => ?_
      cases text <;> exact .pure trivial

theorem reads_openStore (store : Option String) :
    Reads (fun r => ∀ s d, r = .ok (s, d) → d = store.map fun path => .file (.ofPath path))
      (openStore store) := by
  cases store with
  | none =>
    refine .pure fun s d h => ?_
    obtain ⟨-, rfl⟩ := Prod.mk.inj (Except.ok.inj h)
    rfl
  | some path =>
    have hopen : Reads (fun _ => True) (Interpreter.openStore (.file (.ofPath path))) := by
      refine .bind (reads_load _) fun image _ => ?_
      rcases image with fault | _ | image <;> exact .pure trivial
    refine .bind hopen fun r _ => ?_
    cases r with
    | error fault => exact .pure fun _ _ h => nomatch h
    | ok store =>
      refine .pure fun s d h => ?_
      obtain ⟨-, rfl⟩ := Prod.mk.inj (Except.ok.inj h)
      rfl

theorem reads_readLibraryFiles (dir : String) (places : List (List String)) (library : Bindings) :
    Reads (fun _ => True) (readLibraryFiles dir library places) := by
  induction places generalizing library with
  | nil => exact .pure trivial
  | cons place places ih =>
    refine .bind .get fun text _ => ?_
    cases text with
    | error why => exact .pure trivial
    | ok text =>
      dsimp only
      split
      · exact .pure trivial
      · exact ih _

theorem reads_readLibrary (dir : String) : Reads (fun _ => True) (readLibrary dir) := by
  refine .bind .get fun present _ => ?_
  cases present with
  | false => exact .pure trivial
  | true =>
    refine .bind .get fun directory _ => ?_
    cases directory with
    | false => exact .pure trivial
    | true =>
      refine .bind .get fun places _ => ?_
      cases places with
      | error why => exact .pure trivial
      | ok places => exact reads_readLibraryFiles dir _ _

/-- Opening changes no file, and an interpreter that was opened keeps its store where it is from. -/
theorem reads_openInterpreter (setup : Setup) (now : Nat) (entropy : UInt64) :
    Reads (fun r => ∀ i, r = .ok i → i.medium = setup.store.map fun path => .file (.ofPath path))
      (openInterpreter setup now entropy) := by
  refine .bind (reads_readOptionsFile _) fun options _ => ?_
  cases options with
  | error fault => exact .pure fun _ h => nomatch h
  | ok options =>
    refine .bind (reads_openStore _) fun store hstore => ?_
    rcases store with fault | ⟨store, medium⟩
    · exact .pure fun _ h => nomatch h
    · have hmedium := hstore store medium rfl
      dsimp only
      split
      · refine .pure fun i h => ?_
        obtain rfl := Except.ok.inj h
        exact hmedium
      · refine .bind (reads_readLibrary _) fun library _ => ?_
        cases library with
        | error fault => exact .pure fun _ h => nomatch h
        | ok library =>
          refine .pure fun i h => ?_
          obtain rfl := Except.ok.inj h
          exact hmedium

/-! ## Lines -/

/-- The answer to each line that has one, and the interpreter after it. -/
def turns (i : Interpreter) : List String → List (Answer × Interpreter)
  | [] => []
  | line :: rest =>
    if Text.isBlank line then turns i rest else answer i line :: turns (answer i line).2 rest

def afterTurns (i : Interpreter) (lines : List String) : Interpreter :=
  ((turns i lines).getLast?.map Prod.snd).getD i

/-- What the file of a store holds after replies with the stores at the time: each that tells of
keeping the store puts it there. -/
def held (before : Option Entry) : List (Reply × Store) → Option Entry
  | [] => before
  | (reply, store) :: rest => held (if reply.persisted.isSome then some store.file else before) rest

/-- The lines that come before one that is no text. -/
def texts : List (Option String) → List String
  | some line :: rest => line :: texts rest
  | _ => []

theorem texts_cases (input : List (Option String)) :
    none ∉ input ∧ input = (texts input).map some ∨
      none ∈ input ∧ ∃ rest, input = (texts input).map some ++ none :: rest := by
  induction input with
  | nil => exact .inl ⟨List.not_mem_nil, rfl⟩
  | cons line input ih =>
    cases line with
    | none => exact .inr ⟨List.mem_cons_self, input, rfl⟩
    | some line =>
      rcases ih with ⟨hmem, heq⟩ | ⟨hmem, rest, heq⟩
      · refine .inl ⟨by simpa using hmem, ?_⟩
        rw [texts, List.map_cons, ← heq]
      · refine .inr ⟨List.mem_cons_of_mem _ hmem, rest, ?_⟩
        rw [texts, List.map_cons, List.cons_append, ← heq]

section Turns

variable {i j : Interpreter} {path : String} {t : FileTree}

theorem afterTurns_blank {line : String} (h : Text.isBlank line = true) (rest : List String) :
    afterTurns i (line :: rest) = afterTurns i rest := by
  rw [afterTurns, turns, if_pos h]
  rfl

theorem afterTurns_answer {line : String} (h : ¬ Text.isBlank line = true) (rest : List String) :
    afterTurns i (line :: rest) = afterTurns (answer i line).2 rest := by
  rw [afterTurns, turns, if_neg h, List.getLast?_cons, afterTurns]
  cases (turns (answer i line).2 rest).getLast? <;> rfl

def Answer.ofResult : Except Failure Outcome → Answer
  | .ok o => .success o
  | .error f => .failure f

theorem answer_eq {line : String} {c : LineCommand} (h : LineCommand.ofText? line = some c) :
    answer i line = (.ofResult (i.execute c.program c.identity).1,
      (i.execute c.program c.identity).2) := by
  rw [answer, h]
  dsimp only
  generalize i.execute c.program c.identity = r
  obtain ⟨result, j⟩ := r
  cases result <;> rfl

/-- An interpreter answers a line as one that runs programs alike does. -/
theorem runsAs_answer (h : i.RunsAs j) (line : String) :
    (answer j line).1 = (answer i line).1 ∧ (answer i line).2.RunsAs (answer j line).2 := by
  cases hline : LineCommand.ofText? line with
  | none => simpa [answer, hline] using h
  | some c =>
    obtain ⟨hresult, hruns⟩ := h.execute c.program c.identity
    rw [answer_eq hline, answer_eq hline, hresult]
    exact ⟨rfl, hruns⟩

theorem medium_answer (i : Interpreter) (line : String) : (answer i line).2.medium = i.medium := by
  cases hline : LineCommand.ofText? line with
  | none => simp [answer, hline]
  | some c =>
    rw [answer_eq hline]
    rfl

theorem serving_answer (h : Interpreter.Serving path i j t) (line : String) :
    (answer j line).1 = (answer i line).1 ∧
      Interpreter.Serving path (answer i line).2 (answer j line).2 t := by
  obtain ⟨hgiven, hruns⟩ := runsAs_answer h.runs line
  obtain ⟨made, hmedium⟩ := h.medium
  exact ⟨hgiven, hruns, ⟨made, (medium_answer j line).trans hmedium⟩, h.accepts, h.named⟩

/-- A blank line does nothing; any other is answered, and its reply tells whether the store was put in
its file. -/
theorem run_serveLine (h : Interpreter.Serving path i j t) (now : Nat) (line : String) :
    Text.isBlank line = true ∧ (serveLine j now line : StateM FileTree _).run t = ((none, j), t) ∨
      ¬ Text.isBlank line = true ∧ ∃ reply k u,
        (serveLine j now line : StateM FileTree _).run t = ((some reply, k), u) ∧
        reply.answer = (answer i line).1 ∧ Interpreter.Serving path (answer i line).2 k u ∧
        u.lookup? path =
          if reply.persisted.isSome then some (answer i line).2.store.file else t.lookup? path := by
  unfold serveLine
  by_cases hblank : Text.isBlank line = true
  · rw [if_pos hblank]
    exact .inl ⟨hblank, rfl⟩
  · rw [if_neg hblank]
    obtain ⟨hgiven, hserving⟩ := serving_answer h line
    obtain ⟨kept, k, u, hrun, hk, hfile⟩ := hserving.afterCommand now
    dsimp only
    rw [StateT.run_bind, hrun]
    refine .inr ⟨hblank, _, k, u, rfl, hgiven, hk, ?_⟩
    rcases hfile with ⟨rfl, rfl⟩ | ⟨hkept, hfile⟩
    · rfl
    · rw [hfile]
      rcases kept with fault | _ | action
      · rfl
      · exact absurd rfl hkept
      · rfl

end Turns

/-! ## Answering and saving -/

section Answering

variable {m : Type → Type} [Monad m] [LawfulMonad m] [Files.Disk m]

theorem conclude_append (replies : List Reply) (a : Answered) :
    (Answered.conclude { a with replies := replies ++ a.replies } : m _) = do
      let (later, fault) ← a.conclude
      return (replies ++ later, fault) := by
  obtain ⟨later, i, ending⟩ := a
  cases ending <;> simp [Answered.conclude]

theorem splitLines_append (line first rest : List UInt8) :
    splitLines line (first ++ 10 :: rest) = splitLines line (first ++ [10]) ++ splitLines [] rest := by
  induction first generalizing line with
  | nil => rfl
  | cons b first ih =>
    by_cases hb : b = 10
    · subst hb
      simp only [List.cons_append, splitLines.eq_def _ (10 :: _), ih]
    · simp [splitLines, ih]

/-- An input can be cut after any of its lines. -/
theorem inputLines_append (line rest : ByteArray) :
    inputLines (line.push 10 ++ rest) = inputLines (line.push 10) ++ inputLines rest := by
  simp only [inputLines, ByteArray.toList_data_append, ByteArray.data_push, Array.toList_push,
    List.append_assoc]
  rw [List.singleton_append, splitLines_append, List.map_append]

theorem inputLines_foldr (lines : List ByteArray) (last : ByteArray) :
    inputLines (lines.foldr (fun line rest => line.push 10 ++ rest) last) =
      (lines.map fun line => inputLines (line.push 10)).flatten ++ inputLines last := by
  induction lines with
  | nil => rfl
  | cons line lines ih =>
    rw [List.foldr_cons, inputLines_append, ih]
    simp

/-- Replies that were given before stay in front. -/
theorem more_append (clock : m Nat) (replies : List Reply) (a : Answered)
    (lines : List (Option String)) :
    Answered.more clock { a with replies := replies ++ a.replies } lines = do
      let b ← a.more clock lines
      return { b with replies := replies ++ b.replies } := by
  obtain ⟨given, i, ending⟩ := a
  cases ending <;> simp [Answered.more]

/-- Lines that come later are answered as if they had come at once. -/
theorem answerLines_append (clock : m Nat) (lines later : List (Option String)) :
    ∀ (i : Interpreter) (summary : Summary),
      answerLines clock i summary (lines ++ later) =
        answerLines clock i summary lines >>= (·.more clock later) := by
  induction lines with
  | nil =>
    intro i summary
    simp [answerLines, Answered.more]
  | cons line lines ih =>
    intro i summary
    cases line with
    | none => simp [answerLines, Answered.more]
    | some line =>
      simp only [List.cons_append, answerLines, bind_assoc, pure_bind, ih, more_append]

/-- However an input is cut into pieces, going on with one after another comes to what all its lines
come to at once. -/
theorem foldlM_more (clock : m Nat) (i : Interpreter) (pieces : List (List (Option String))) :
    pieces.foldlM (Answered.more clock) (.start i) = answerLines clock i {} pieces.flatten := by
  induction pieces using List.reverseRecOn with
  | nil => simp [answerLines, Answered.start]
  | append_singleton pieces piece ih =>
    rw [List.foldlM_append, ih, List.flatten_append, List.flatten_singleton, answerLines_append]
    simp

/-- **A session can be answered as its input comes.** To read up to the end of a line, to go on with
what was read and then to read on comes to what answering the lines of the whole input at once does. -/
theorem answered_as_read (clock : m Nat) (i : Interpreter) (lines : List ByteArray)
    (last : ByteArray) :
    (lines.map (·.push 10) ++ [last]).foldlM (fun a read => a.more clock (inputLines read))
        (Answered.start i) =
      answerLines clock i {}
        (inputLines (lines.foldr (fun line rest => line.push 10 ++ rest) last)) := by
  have hpieces := foldlM_more clock i ((lines.map (·.push 10) ++ [last]).map inputLines)
  rw [List.foldlM_map] at hpieces
  rw [hpieces, inputLines_foldr]
  simp [Function.comp_def]

/-- The count of the replies is not seen in what a session comes to. -/
theorem answerLines_conclude (clock : m Nat) (input : List (Option String)) :
    ∀ (i : Interpreter) (summary summary' : Summary),
      answerLines clock i summary input >>= Answered.conclude =
        answerLines clock i summary' input >>= Answered.conclude := by
  induction input with
  | nil =>
    intro i summary summary'
    simp [answerLines, Answered.conclude]
  | cons line rest ih =>
    intro i summary summary'
    cases line with
    | none => simp [answerLines]
    | some line =>
      simp only [answerLines, bind_assoc, pure_bind, conclude_append]
      refine bind_congr fun now => bind_congr fun served => ?_
      simp only [← bind_assoc]
      rw [ih]

theorem serveLines_nil (clock : m Nat) (i : Interpreter) :
    serveLines clock i [] = do return ([], ← endSession i) := by
  simp [serveLines, answerLines, Answered.conclude]

/-- A line is answered, and then the rest of the session follows. -/
theorem serveLines_cons (clock : m Nat) (i : Interpreter) (line : String)
    (rest : List (Option String)) :
    serveLines clock i (some line :: rest) = do
      let (reply, i) ← serveLine i (← clock) line
      let (replies, fault) ← serveLines clock i rest
      return (reply.toList ++ replies, fault) := by
  show answerLines clock i {} (some line :: rest) >>= Answered.conclude = _
  simp only [answerLines, bind_assoc, pure_bind, conclude_append]
  refine bind_congr fun now => bind_congr fun served => ?_
  simp only [← bind_assoc]
  rw [answerLines_conclude clock rest served.2 _ {}]
  rfl

end Answering

/-! ## Sessions -/

section Sessions

variable {σ : Type} {i j : Interpreter} {path : String} {t : FileTree}

/-- A clock with a state of its own beside the tree. -/
def clockOf (tick : σ → Nat × σ) : StateT σ (StateM FileTree) Nat := modifyGet tick

theorem run_clockOf_bind {α : Type} (tick : σ → Nat × σ) (f : Nat → StateT σ (StateM FileTree) α)
    (s : σ) (t : FileTree) :
    ((clockOf tick >>= f).run s).run t = ((f (tick s).1).run (tick s).2).run t := rfl

theorem run_carried {α : Type} {x : StateT σ (StateM FileTree) α} {y : StateM FileTree α}
    (h : Files.Carried x y) (s : σ) (t : FileTree) :
    (x.run s).run t = (((y.run t).1, s), (y.run t).2) := by
  rw [h s]
  rfl

theorem run_serveLines_cons (tick : σ → Nat × σ) (j : Interpreter) (line : String)
    (more : List (Option String)) (s : σ) (t : FileTree) :
    ((serveLines (clockOf tick) j (some line :: more)).run s).run t =
      let r := (serveLine j (tick s).1 line : StateM FileTree _).run t
      let rest := ((serveLines (clockOf tick) r.1.2 more).run (tick s).2).run r.2
      (((r.1.1.toList ++ rest.1.1.1, rest.1.1.2), rest.1.2), rest.2) := by
  rw [serveLines_cons, run_clockOf_bind, StateT.run_bind, StateT.run_bind,
    run_carried (carried_serveLine j (tick s).1 line)]
  generalize (serveLine j (tick s).1 line : StateM FileTree _).run t = r
  rfl

/-- A session as far as its input is text, whatever comes after it. -/
theorem serveLines_texts (tick : σ → Nat × σ) (lines : List String) (rest : List (Option String)) :
    ∀ {i j : Interpreter} {t : FileTree} (s : σ), Interpreter.Serving path i j t →
      ∃ replies k s' u, Interpreter.Serving path (afterTurns i lines) k u ∧
        replies.map Reply.answer = (turns i lines).map Prod.fst ∧
        u.lookup? path =
          held (t.lookup? path) (replies.zip ((turns i lines).map fun turn => turn.2.store)) ∧
        ((serveLines (clockOf tick) j (lines.map some ++ rest)).run s).run t =
          let r := ((serveLines (clockOf tick) k rest).run s').run u
          (((replies ++ r.1.1.1, r.1.1.2), r.1.2), r.2) := by
  induction lines with
  | nil =>
    intro i j t s h
    exact ⟨[], j, s, t, h, rfl, rfl, rfl⟩
  | cons line lines ih =>
    intro i j t s h
    rw [List.map_cons, List.cons_append, run_serveLines_cons, turns]
    rcases run_serveLine h (tick s).1 line with
      ⟨hblank, hrun⟩ | ⟨hblank, reply, j', t', hrun, hgiven, hj', hheld⟩
    · obtain ⟨replies, k, s', u, hk, hanswers, hfile, hsession⟩ := ih (tick s).2 h
      rw [hrun, if_pos hblank, afterTurns_blank hblank]
      refine ⟨replies, k, s', u, hk, hanswers, hfile, ?_⟩
      dsimp only
      rw [hsession]
      rfl
    · obtain ⟨replies, k, s', u, hk, hanswers, hfile, hsession⟩ := ih (tick s).2 hj'
      rw [hrun, if_neg hblank, afterTurns_answer hblank]
      refine ⟨reply :: replies, k, s', u, hk, ?_, ?_, ?_⟩
      · rw [List.map_cons, List.map_cons, hanswers, hgiven]
      · rw [hfile, hheld]
        rfl
      · dsimp only
        rw [hsession]
        rfl

theorem run_endSession (h : Interpreter.Serving path i j t) :
    ∃ u, (endSession j : StateM FileTree _).run t = (none, u) ∧
      u.lookup? path = some i.store.file := by
  obtain ⟨made, hmedium⟩ := h.medium
  obtain ⟨k, u, hflush, hfile⟩ := h.flush
  unfold endSession
  have hdurable : j.isDurable = true := by simp [Interpreter.isDurable, hmedium]
  rw [if_pos hdurable, StateT.run_bind, hflush]
  exact ⟨u, rfl, hfile⟩

theorem run_serve (tick : σ → Nat × σ) (s : σ) (entropy : UInt64) (setup : Setup)
    (input : List (Option String))
    (hopen : ((openInterpreter setup (tick s).1 entropy : StateM FileTree _).run t).1 = .ok i) :
    ((serve (clockOf tick) entropy setup input).run s).run t =
      let r := ((serveLines (clockOf tick) i input).run (tick s).2).run t
      ((.session r.1.1.1 r.1.1.2, r.1.2), r.2) := by
  have hreads := (reads_openInterpreter setup (tick s).1 entropy t).1
  rw [serve, serveWith, run_clockOf_bind, StateT.run_bind, StateT.run_bind,
    run_carried (carried_openInterpreter setup (tick s).1 entropy), hopen, hreads]
  show ((serveLines (clockOf tick) i input >>= _ : StateT σ (StateM FileTree) _).run (tick s).2).run t
    = _
  rw [StateT.run_bind, StateT.run_bind]
  rfl

/-- **A session that is not cut short leaves its store in its file.** Whatever the clock says, over a
path that takes images and with options, a store and a library that can be read, a session answers the
lines of its input as `turns` tells, up to one that is no text. If there is none, the file holds the
store after the last line. If there is one, the session fails and the file holds the store after the
last line whose reply told of keeping it, or what it held before. -/
theorem serve_saves_unless_cut_short (tick : σ → Nat × σ) (s : σ) (entropy : UInt64) (setup : Setup)
    (hstore : setup.store = some path) (hnamed : t.WellNamed) (haccepts : FileMedium.Accepts path t)
    (hopen : ((openInterpreter setup (tick s).1 entropy : StateM FileTree _).run t).1 = .ok i)
    (input : ByteArray) :
    let lines := texts (inputLines input)
    ∃ replies fault s' u,
      ((serve (clockOf tick) entropy setup (inputLines input)).run s).run t =
        ((.session replies fault, s'), u) ∧
      replies.map Reply.answer = (turns i lines).map Prod.fst ∧
      (none ∉ inputLines input ∧ fault = none ∧
          u.lookup? path = some (afterTurns i lines).store.file ∨
        none ∈ inputLines input ∧ fault = some unreadableLine ∧
          u.lookup? path =
            held (t.lookup? path) (replies.zip ((turns i lines).map fun turn => turn.2.store))) := by
  intro lines
  have hmedium := (reads_openInterpreter setup (tick s).1 entropy t).2 i hopen
  rw [hstore] at hmedium
  have hserving : Interpreter.Serving path i i t := ⟨.refl i, ⟨0, hmedium⟩, haccepts, hnamed⟩
  rw [run_serve tick s entropy setup _ hopen]
  rcases texts_cases (inputLines input) with ⟨hmem, heq⟩ | ⟨hmem, rest, heq⟩
  · obtain ⟨replies, k, s', u, hk, hanswers, -, hsession⟩ :=
      serveLines_texts tick lines [] (tick s).2 hserving
    obtain ⟨v, hend, hfile⟩ := run_endSession hk
    have hlast : ((serveLines (clockOf tick) k []).run s').run u = ((([], none), s'), v) := by
      rw [serveLines_nil, StateT.run_bind, StateT.run_bind, run_carried (carried_endSession k), hend]
      rfl
    have hall : ((serveLines (clockOf tick) i (inputLines input)).run (tick s).2).run t =
        (((replies ++ [], none), s'), v) := by
      rw [heq, ← List.append_nil (List.map some _), hsession, hlast]
    rw [hall, List.append_nil]
    exact ⟨replies, none, s', v, rfl, hanswers, .inl ⟨hmem, rfl, hfile⟩⟩
  · obtain ⟨replies, k, s', u, -, hanswers, hfile, hsession⟩ :=
      serveLines_texts tick lines (none :: rest) (tick s).2 hserving
    have hcut : ((serveLines (clockOf tick) k (none :: rest)).run s').run u =
        ((([], some unreadableLine), s'), u) := rfl
    have hall : ((serveLines (clockOf tick) i (inputLines input)).run (tick s).2).run t =
        (((replies ++ [], some unreadableLine), s'), u) := by
      rw [heq, hsession, hcut]
    rw [hall, List.append_nil]
    exact ⟨replies, some unreadableLine, s', u, rfl, hanswers, .inr ⟨hmem, rfl, hfile⟩⟩

end Sessions

/-! ## A command that is lost -/

def LineCommand.toJson (c : LineCommand) : Json :=
  .obj [("user", .str c.identity.user), ("server", .str c.identity.server),
    ("program", c.program.toJson)]

/-- The line of a command asks for that command, up to the reader's bound. -/
theorem LineCommand.ofText?_compact {c : LineCommand} (h : c.toJson.Writable) :
    ofText? c.toJson.compact = if c.toJson.depth ≤ 127 then some c else none := by
  have hfields : c.toJson = .obj (["user", "server", "program"].zip
      [.str c.identity.user, .str c.identity.server, c.program.toJson]) := rfl
  have hadmits : (c.toJson.depth ≤ 127) = (Json.Scope.top.admits c.toJson = true) := by
    rw [h.admits_top, decide_eq_true_eq]
  unfold ofText?
  rw [Json.parse?_compact h]
  simp only [hadmits]
  rw [hfields, Json.admits_obj, Option.bind_eq_bind, Option.bind_some,
    Json.toFields?_zip (by decide) rfl]
  cases Json.Scope.top.enter? with
  | none => rfl
  | some inner =>
    simp only [Option.map_some, List.map_cons, List.map_nil, Json.required, Option.bind_eq_bind,
      Option.bind_some, Json.toText?, Node.faithful_toJson inner c.program, Json.bind_admitted]
    simp

def setting : LineCommand := ⟨⟨"ann", "guild"⟩, .qualifiedAssign .global "x" (.integer 1)⟩

def fresh : Interpreter := .start {} (some (.file (.ofPath "store.json"))) {} 0 0

theorem openInterpreter_fresh :
    ((openInterpreter { store := some "store.json" } 0 0 : StateM FileTree _).run {}).1 = .ok fresh :=
  rfl

theorem serving_fresh : Interpreter.Serving "store.json" fresh fresh {} := by
  refine ⟨.refl _, ⟨0, rfl⟩, fun i => ?_, ⟨by simp, by simp⟩⟩
  unfold FileMedium.writeImage
  -- The text is not looked at, so the tree can be computed for any.
  generalize i.toJson.pretty = text
  exact ⟨_, rfl⟩

theorem ofText?_setting : LineCommand.ofText? setting.toJson.compact = some setting := by
  have hone : Json.Integral 1 := by constructor <;> decide
  rw [LineCommand.ofText?_compact, if_pos (by decide)]
  simp [setting, LineCommand.toJson, Node.toJson, hone]

theorem answer_setting :
    answer fresh setting.toJson.compact =
      (.success ⟨.integer 1, []⟩, (fresh.execute setting.program setting.identity).2) := by
  rw [answer, ofText?_setting]
  rfl

theorem isBlank_setting : Text.isBlank setting.toJson.compact = false := by
  rw [Text.isBlank, Json.compact, String.toList_ofList]
  rfl

theorem afterTurns_setting :
    afterTurns fresh [setting.toJson.compact] = (fresh.execute setting.program setting.identity).2 := by
  rw [afterTurns_answer (by simp [isBlank_setting]), answer_setting]
  rfl

/-- On a clock that goes on by a second at each look, the line is answered and the store is saved when
the input ends. -/
theorem serve_saves_unless_cut_short_setting :
    let input := setting.toJson.compact.toUTF8 ++ ⟨#[10]⟩
    let i := afterTurns fresh (texts (inputLines input))
    FileMedium.Accepts "store.json" {} ∧ none ∉ inputLines input ∧ i.store.keys .global = ["x"] ∧
      ∃ replies s u,
        ((serve (clockOf fun n => (n, n + 1000)) 0 { store := some "store.json" }
          (inputLines input)).run 0).run {} = ((.session replies none, s), u) ∧
        u.lookup? "store.json" = some i.store.file := by
  intro input i
  have hinput : inputLines input = [some setting.toJson.compact] := by decide +kernel
  have hi : i = (fresh.execute setting.program setting.identity).2 := by
    rw [show i = afterTurns fresh (texts (inputLines input)) from rfl, hinput]
    exact afterTurns_setting
  have hmem : none ∉ inputLines input := by simp [hinput]
  refine ⟨serving_fresh.accepts, hmem, by rw [hi]; rfl, ?_⟩
  obtain ⟨replies, fault, s, u, hrun, -, hfile⟩ :=
    serve_saves_unless_cut_short (fun n => (n, n + 1000)) 0 0 { store := some "store.json" } rfl
      serving_fresh.named serving_fresh.accepts openInterpreter_fresh input
  rcases hfile with ⟨-, rfl, hfile⟩ | ⟨hmem', -⟩
  · exact ⟨replies, s, u, hrun, hfile⟩
  · exact absurd hmem' hmem

/-- A line that is no text comes after the same line: the command was answered, and there is no file. -/
theorem answered_command_not_saved :
    let input := setting.toJson.compact.toUTF8 ++ ⟨#[10, 255, 10]⟩
    let i := afterTurns fresh (texts (inputLines input))
    FileMedium.Accepts "store.json" {} ∧ i.store.keys .global = ["x"] ∧
      ∃ reply u,
        ((serve (clockOf fun n => (n, n + 1000)) 0 { store := some "store.json" }
          (inputLines input)).run 0).run {} = ((.session [reply] (some unreadableLine), 2000), u) ∧
        reply.isOk = true ∧ u.lookup? "store.json" = none := by
  intro input i
  have hinput : inputLines input = [some setting.toJson.compact, none] := by decide +kernel
  have hi : i = (fresh.execute setting.program setting.identity).2 := by
    rw [show i = afterTurns fresh (texts (inputLines input)) from rfl, hinput]
    exact afterTurns_setting
  obtain ⟨k, hline⟩ : ∃ k, (serveLine fresh 1000 setting.toJson.compact : StateM FileTree _).run {} =
      ((some ⟨.success ⟨.integer 1, []⟩, none⟩, k), {}) := by
    rw [serveLine, if_neg (by simp [isBlank_setting]), answer_setting]
    exact ⟨_, rfl⟩
  refine ⟨serving_fresh.accepts, by rw [hi]; rfl, ?_⟩
  rw [hinput, run_serve _ _ _ _ _ openInterpreter_fresh, run_serveLines_cons, hline]
  exact ⟨_, {}, rfl, rfl, rfl⟩

end DiceScript.Command
