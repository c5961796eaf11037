import DiceScript.Proofs.Codec.Finite
import DiceScript.Proofs.Codec.Texts
import DiceScript.Proofs.Persistence.Keeping

/-!
# Reopening a saved store

Runs store finite values only, so the image of a store that they lead to loses nothing when it is
written, and the file it is moved to holds all of it. What is left is the bound of the reader: it
opens at most 127 arrays and objects at once, and the writer knows no such bound. A loop can build a
list of any depth, so a store can be saved that cannot be opened again.

- `Node.Accepted` — the programs that can be run: those that some text was read as.
- `Interpreter.openStore_of_save` — what is opened after a save.
- `reopen_exactly_when_shallow` — for the stores that runs lead to.
- `saved_store_not_reopened` — a loop that builds a store which is lost.
-/

namespace DiceScript

open Files (FileTree Disk)

/-- A program that some text was read as. -/
def Node.Accepted (program : Node) : Prop :=
  ∃ text, (Json.parse? text).bind (Node.ofJson? .top) = some program

theorem Node.Accepted.finiteFloats {program : Node} (h : program.Accepted) :
    program.FiniteFloats := by
  obtain ⟨text, htext⟩ := h
  obtain ⟨j, hj, hprogram⟩ := Option.bind_eq_some_iff.mp htext
  exact Node.ensures_finiteFloats .top j program (Json.inRange_of_parse? hj) hprogram

/-- Runs of accepted programs store finite values only. -/
theorem Store.Holds.reaches {s t : Store} (hs : s.Holds Value.FinitePart)
    (h : s.Reaches Node.Accepted t) : t.Holds Value.FinitePart :=
  h.keeps (fun i _ identity hp hi =>
    (lasting_finitePart.holds_execute i identity hp.finiteFloats hi).1) hs

/-- A program is accepted if its document loses nothing and is within the reader's bound. -/
theorem Node.accepted_of_writable {program : Node} (h : program.toJson.Writable)
    (hdepth : program.toJson.depth ≤ 127) : program.Accepted := by
  refine ⟨program.toJson.compact, ?_⟩
  rw [Node.faithful_toJson.read_text h (Json.parse?_compact h), if_pos hdepth]

/-! ## Texts of images -/

namespace FileMedium

/-- What is decoded from a text is finite. -/
theorem holds_of_decode {text : String} {i : Image} (h : decode text = .ok i) :
    i.store.Holds Value.FinitePart := by
  unfold decode at h
  split at h
  · cases h
  · rename_i image himage
    obtain ⟨j, hj, himage⟩ := Option.bind_eq_some_iff.mp himage
    have hholds := Image.ensures_holds .top j image (Json.inRange_of_parse? hj) himage
    split at h
    · obtain rfl := Except.ok.inj h
      exact hholds
    · cases h

/-- The text of an image is decoded exactly when the reader's bound admits it. -/
theorem decode_pretty {s : Store} (h : s.Holds Value.FinitePart) :
    (s.image.toJson.depth ≤ 127 → decode s.image.toJson.pretty = .ok s.image) ∧
    (127 < s.image.toJson.depth →
      ∃ why, decode s.image.toJson.pretty = .error (.failed .decode why)) := by
  have hwritable : s.image.toJson.Writable := Image.writable_toJson h
  unfold decode
  rw [Image.faithful_toJson.read_text hwritable (Json.parse?_pretty hwritable)]
  constructor
  · intro hdepth
    rw [if_pos hdepth]
    rfl
  · intro hdepth
    rw [if_neg (by omega)]
    exact ⟨_, rfl⟩

/-- Loading the image of a file leaves the tree as it is. -/
theorem run_load (d : FileMedium) (t : FileTree) :
    (d.load : StateM FileTree _).run t =
      (match t.lookup? d.path with
      | none => .ok none
      | some _ =>
        match t.readText d.path with
        | .error why => .error (.failed .read why)
        | .ok text => (decode text).map some, t) := by
  have hpresent : (Disk.isPresent d.path : StateM FileTree _).run t =
      ((t.lookup? d.path).isSome, t) := rfl
  unfold load
  rw [StateT.run_bind, hpresent]
  cases t.lookup? d.path with
  | none => rfl
  | some entry =>
    show StateT.run (match t.readText d.path with
      | .error why => pure (.error (.failed .read why))
      | .ok text => pure ((decode text).map some) : StateM FileTree _) t = _
    cases t.readText d.path <;> rfl

end FileMedium

/-! ## Opening and saving -/

namespace Interpreter

variable {d : FileMedium} {t : FileTree}

theorem openStore_eq :
    ((openStore (.file d) : StateM FileTree _).run t).1 =
      match ((d.load : StateM FileTree _).run t).1 with
      | .error fault => .error fault
      | .ok none => .ok {}
      | .ok (some image) => image.restore := by
  unfold openStore
  rw [StateT.run_bind]
  show (StateT.run (match ((d.load : StateM FileTree _).run t).1 with
    | .error fault => pure (.error fault)
    | .ok none => pure (.ok {})
    | .ok (some image) => pure image.restore : StateM FileTree _) _).1 = _
  split <;> rfl

/-- What is opened from a file is finite, whoever wrote the file. -/
theorem holds_of_openStore {s : Store}
    (h : ((openStore (.file d) : StateM FileTree _).run t).1 = .ok s) :
    s.Holds Value.FinitePart := by
  rw [openStore_eq, FileMedium.run_load] at h
  dsimp only at h
  split at h
  · cases h
  · obtain rfl := Except.ok.inj h
    exact Store.holds_empty
  · rename_i image hload
    have hdecode : ∃ text, FileMedium.decode text = .ok image := by
      split at hload
      · cases hload
      · split at hload
        · cases hload
        · rename_i text _
          cases hd : FileMedium.decode text with
          | error fault =>
            rw [hd] at hload
            cases hload
          | ok i =>
            rw [hd] at hload
            obtain rfl := Option.some.inj (Except.ok.inj hload)
            exact ⟨text, hd⟩
    obtain ⟨text, htext⟩ := hdecode
    unfold Image.restore at h
    split at h
    · obtain rfl := Except.ok.inj h
      exact FileMedium.holds_of_decode htext
    · cases h

/-- What is opened after a save: the store that was saved if the reader's bound admits its image,
and nothing otherwise. -/
theorem openStore_of_save {i i' : Interpreter} (hi : i.store.Holds Value.FinitePart)
    (hmedium : i.medium = some (.file d)) {d' : FileMedium} (hpath : d'.path = d.path)
    {t' : FileTree} (hsave : (i.save : StateM FileTree _).run t = ((.ok (), i'), t')) :
    (i.store.image.toJson.depth ≤ 127 →
      ((openStore (.file d') : StateM FileTree _).run t').1 = .ok i.store) ∧
    (127 < i.store.image.toJson.depth →
      ∃ why, ((openStore (.file d') : StateM FileTree _).run t').1 = .error (.failed .decode why)) := by
  rw [run_save hmedium] at hsave
  obtain ⟨hresult, ht⟩ := Prod.mk.inj hsave
  have hlookup := FileMedium.lookup?_writeImage (Prod.ext (Prod.mk.inj hresult).1 ht)
  have htext : t'.readText d.path = .ok i.store.image.toJson.pretty := by
    rw [FileTree.readText, hlookup]
  rw [openStore_eq, FileMedium.run_load, hpath, hlookup, htext]
  dsimp only
  obtain ⟨hshallow, hdeep⟩ := FileMedium.decode_pretty hi
  constructor
  · intro hdepth
    rw [hshallow hdepth]
    rfl
  · intro hdepth
    obtain ⟨why, hwhy⟩ := hdeep hdepth
    rw [hwhy]
    exact ⟨why, rfl⟩

end Interpreter

/-- **A saved store can be opened again exactly when the reader's bound admits its image.** From an
empty store or one that was opened from a file, any sequence of programs that were accepted, run for
anyone under any options, whether they fail or not, leads to a store that is opened again as it was
saved if at most 127 arrays and objects of its image are open at once; and if more are, it is saved all
the same and then refused as corrupt. -/
theorem reopen_exactly_when_shallow {s₀ : Store}
    (hstart : s₀ = {} ∨ ∃ (d₀ : FileMedium) (t₀ : FileTree),
      ((Interpreter.openStore (.file d₀) : StateM FileTree _).run t₀).1 = .ok s₀)
    {i i' : Interpreter} (hruns : s₀.Reaches Node.Accepted i.store)
    {d d' : FileMedium} (hmedium : i.medium = some (.file d)) (hpath : d'.path = d.path)
    {t t' : FileTree} (hsave : (i.save : StateM FileTree _).run t = ((.ok (), i'), t')) :
    (i.store.image.toJson.depth ≤ 127 →
      ((Interpreter.openStore (.file d') : StateM FileTree _).run t').1 = .ok i.store) ∧
    (127 < i.store.image.toJson.depth →
      ∃ why, ((Interpreter.openStore (.file d') : StateM FileTree _).run t').1 =
        .error (.failed .decode why)) := by
  have hs₀ : s₀.Holds Value.FinitePart := by
    rcases hstart with rfl | ⟨d₀, t₀, hopen⟩
    · exact Store.holds_empty
    · exact Interpreter.holds_of_openStore hopen
  exact Interpreter.openStore_of_save (hs₀.reaches hruns) hmedium hpath hsave

/-! ## A store that is lost -/

/-- A loop that puts a list into a list again and again, and stores it globally. -/
def Node.nestingLoop (count : Int64) : Node :=
  .block [.assign "i" (.integer 0), .qualifiedAssign .global "x" (.list []),
    .whileLoop (.binary .lt (.identifier "i") (.integer count))
      [.assign "i" (.binary .add (.identifier "i") (.integer 1)),
        .qualifiedAssign .global "x" (.list [.qualifiedIdentifier .global "x"])]]

theorem Node.accepted_nestingLoop (count : Int64) : (Node.nestingLoop count).Accepted := by
  refine Node.accepted_of_writable ?_ ?_
  · have hzero : Json.Integral 0 := by constructor <;> decide
    have hone : Json.Integral 1 := by constructor <;> decide
    simp [nestingLoop, toJson, itemsJson, hzero, hone]
  · show (8 : Nat) ≤ 127
    decide

namespace Interpreter

def afterNesting (count : Int64) : Interpreter :=
  ((start {} (some (.file (.ofPath "store.json"))) {} 0 0).execute
    (.nestingLoop count) ⟨"ann", "guild"⟩).2

theorem reaches_afterNesting (count : Int64) :
    ({} : Store).Reaches Node.Accepted (afterNesting count).store :=
  .execute _ _ .refl (Node.accepted_nestingLoop count)

theorem medium_afterNesting (count : Int64) :
    (afterNesting count).medium = some (.file (.ofPath "store.json")) := rfl

/-- Where there is no file yet, a store can be saved. -/
theorem save_fresh {i : Interpreter} (hmedium : i.medium = some (.file (.ofPath "store.json"))) :
    ∃ t, (i.save : StateM FileTree _).run {} = ((.ok (), i), t) := by
  rw [run_save hmedium]
  unfold FileMedium.writeImage
  -- The text is not looked at, so the tree can be computed for any.
  generalize i.store.image.toJson.pretty = text
  exact ⟨_, rfl⟩

end Interpreter

/-- The loop with 61 turns leaves 62 lists in one another, which are opened again as they were
saved. -/
theorem reopen_exactly_when_shallow_nested :
    let i := Interpreter.afterNesting 61
    ({} : Store).Reaches Node.Accepted i.store ∧ i.store.image.toJson.depth = 126 ∧
      ∃ i' t, (i.save : StateM FileTree _).run {} = ((.ok (), i'), t) ∧
        ((Interpreter.openStore (.file (.ofPath "store.json")) : StateM FileTree _).run t).1 =
          .ok i.store := by
  intro i
  have hruns := Interpreter.reaches_afterNesting 61
  have hmedium := Interpreter.medium_afterNesting 61
  have hdepth : i.store.image.toJson.depth = 126 := by decide +kernel
  obtain ⟨t, hsave⟩ := Interpreter.save_fresh hmedium
  refine ⟨hruns, hdepth, i, t, hsave, ?_⟩
  exact (reopen_exactly_when_shallow (.inl rfl) hruns hmedium rfl hsave).1 (hdepth.trans_le (by decide))

/-- One turn more, and the store is saved but cannot be opened again. -/
theorem saved_store_not_reopened :
    let i := Interpreter.afterNesting 62
    ({} : Store).Reaches Node.Accepted i.store ∧ i.store.image.toJson.depth = 128 ∧
      ∃ i' t why, (i.save : StateM FileTree _).run {} = ((.ok (), i'), t) ∧
        ((Interpreter.openStore (.file (.ofPath "store.json")) : StateM FileTree _).run t).1 =
          .error (.failed .decode why) := by
  intro i
  have hruns := Interpreter.reaches_afterNesting 62
  have hmedium := Interpreter.medium_afterNesting 62
  have hdepth : i.store.image.toJson.depth = 128 := by decide +kernel
  obtain ⟨t, hsave⟩ := Interpreter.save_fresh hmedium
  have hi : i.store.Holds Value.FinitePart := Store.holds_empty.reaches hruns
  obtain ⟨why, hwhy⟩ := (Interpreter.openStore_of_save hi hmedium rfl hsave).2 (by omega)
  exact ⟨hruns, hdepth, i, t, why, hsave, hwhy⟩

end DiceScript
