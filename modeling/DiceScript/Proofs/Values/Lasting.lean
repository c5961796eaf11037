import DiceScript.Proofs.Operator.Results
import DiceScript.Proofs.Session

/-!
# Lasting properties of values

A property of values is lasting when every way to come by a value ensures it, as long as the floats
of all programs are finite. If everything that a store binds has such a property in every part, then
so it is after every run, and the value of the run has it, too, unless there is none.

- `Node.FiniteFloats` — the floats of a program are finite.
- `Value.Lasting` — what has to be shown of a property.
- `Value.Lasting.invariant` — it is an invariant of runs.
- `Store.Holds`, `Value.Lasting.holds_of_reaches` — so everything in a store keeps it.
-/

namespace DiceScript

/-- Every float in a program is finite, in the bodies of its definitions as well. -/
def Node.FiniteFloats : Node → Prop :=
  Node.All fun
    | .float x => x.isFinite
    | _ => True

/-- Everything that a store binds has `p` in every part. -/
def Store.Holds (p : Value → Prop) (s : Store) : Prop :=
  ∀ ns name v, s.get? ns name = some v → v.All p

theorem Store.holds_empty {p : Value → Prop} : ({} : Store).Holds p := by
  intro ns name v h
  cases ns <;> cases h

namespace Store.Holds

variable {p : Value → Prop} {s s' : Store} {ns : Namespace} {name : String} {v : Value}

theorem put (h : s.Holds p) (hv : v.All p) (hs : s.put ns name v = .ok s') : s'.Holds p := by
  intro ns' name' u hu
  rw [get?_put hs] at hu
  split at hu
  · rwa [← Option.some.inj hu]
  · exact h ns' name' u hu

theorem drop (h : s.Holds p) (hs : s.drop ns name = .ok (v, s')) : s'.Holds p := by
  intro ns' name' u hu
  rw [get?_drop hs] at hu
  split at hu
  · cases hu
  · exact h ns' name' u hu

end Store.Holds

structure Machine.Holds (p : Value → Prop) (m : Machine) : Prop where
  store : m.store.Holds p
  frames : ∀ frame ∈ m.frames, ∀ name v, frame.get? name = some v → v.All p

namespace Machine.Holds

variable {p : Value → Prop} {m : Machine} {name : String} {v : Value}

theorem start {s : Store} (h : s.Holds p) (dice : Dice.Stream) : (Machine.start s dice).Holds p := by
  refine ⟨h, fun frame hf name v hv => ?_⟩
  rw [List.mem_singleton.mp hf] at hv
  cases hv

theorem withStore (h : m.Holds p) {s : Store} (hs : s.Holds p) : ({ m with store := s }).Holds p :=
  ⟨hs, h.frames⟩

theorem bind (h : m.Holds p) (hv : v.All p) : (m.bind name v).Holds p := by
  refine ⟨h.store, fun frame hf name' u hu => ?_⟩
  rcases List.mem_cons.mp hf with rfl | hf
  · have hu : (m.frame.insert name v).get? name' = some u := hu
    rw [Dict.get?_insert] at hu
    split at hu
    · rwa [← Option.some.inj hu]
    · exact h.frames m.frame (by simp [Machine.frames]) name' u hu
  · exact h.frames frame (List.mem_cons_of_mem _ hf) name' u hu

theorem unbind (h : m.Holds p) : (m.unbind name).Holds p := by
  refine ⟨h.store, fun frame hf name' u hu => ?_⟩
  rcases List.mem_cons.mp hf with rfl | hf
  · have hu : (m.frame.erase name).get? name' = some u := hu
    rw [Dict.get?_erase] at hu
    split at hu
    · cases hu
    · exact h.frames m.frame (by simp [Machine.frames]) name' u hu
  · exact h.frames frame (List.mem_cons_of_mem _ hf) name' u hu

theorem push (h : m.Holds p) {frame : Bindings}
    (hframe : ∀ name v, frame.get? name = some v → v.All p) : (m.push frame).Holds p := by
  refine ⟨h.store, fun frame' hf => ?_⟩
  rcases List.mem_cons.mp hf with rfl | hf
  · exact hframe
  · exact h.frames frame' hf

theorem pop (h : m.Holds p) : m.pop.Holds p := by
  unfold Machine.pop
  split
  · rename_i frame outer houter
    refine ⟨h.store, fun frame' hf => h.frames frame' ?_⟩
    rw [Machine.frames, houter]
    exact List.mem_cons_of_mem _ hf
  · exact h

theorem local? (h : m.Holds p) (hv : m.local? name = some v) : v.All p := by
  obtain ⟨frame, hf, hget⟩ := List.exists_of_findSome?_eq_some hv
  exact h.frames frame hf name v hget

end Machine.Holds

/-- A property of values that is not lost, whatever is computed, as long as the floats of programs
are finite. -/
structure Value.Lasting (p : Value → Prop) : Prop where
  integer : ∀ n, p (.integer n)
  float : ∀ x, p (.float x) ↔ x.isFinite
  string : ∀ s, p (.string s)
  boolean : ∀ b, p (.boolean b)
  list : ∀ items, p (.list items)
  function : ∀ {f : Function}, f.params.Nodup → (∀ n ∈ f.body, n.FiniteFloats) → p (.function f)
  body : ∀ {f}, p (.function f) → ∀ n ∈ f.body, n.FiniteFloats

namespace Value.Lasting

variable {p : Value → Prop}

theorem computed (h : Lasting p) {v : Value} (hv : Operator.Computed v) : p v := by
  cases v with
  | integer n => exact h.integer n
  | float x => exact (h.float x).mpr hv
  | boolean b => exact h.boolean b
  | string s => exact h.string s
  | list items => exact h.list items
  | function f => exact absurd hv id
  | undefined => exact absurd hv id

/-- Names of which none occurs twice, none of them among those seen. -/
theorem nodup_of_firstRepeated? {seen params : List String}
    (h : Run.firstRepeated? seen params = none) :
    params.Nodup ∧ ∀ s ∈ params, s ∉ seen := by
  induction params generalizing seen with
  | nil => simp
  | cons s rest ih =>
    unfold Run.firstRepeated? at h
    split at h
    · cases h
    · rename_i hs
      obtain ⟨hrest, hnew⟩ := ih h
      refine ⟨List.nodup_cons.mpr ⟨fun hmem => hnew s hmem (by simp), hrest⟩, fun t ht => ?_⟩
      rcases List.mem_cons.mp ht with rfl | ht
      · exact hs
      · exact fun hseen => hnew t ht (List.mem_cons_of_mem _ hseen)

/-- A lasting property of all that is bound is an invariant of runs. A run may yield `undefined`, but
it stores and binds nothing of the kind. -/
theorem invariant (h : Lasting p) (c : Context) :
    Run.Invariant c (Machine.Holds p) (fun v => v.isUndefined = false → v.All p)
      Node.FiniteFloats where
  parts hn := hn.parts
  upkeep _ _ _ hm := ⟨hm.store, hm.frames⟩
  bind hm hv hdef := hm.bind (hv hdef)
  unbind hm := hm.unbind
  push hm hframe := hm.push fun name v hv => (hframe name v hv).1 (hframe name v hv).2
  pop hm := hm.pop
  assign _ hm hv hdef hs := hm.withStore (hm.store.put (hv hdef) hs)
  delete _ hm hs := hm.withStore (hm.store.drop hs)
  define hf hm _ hs := hm.withStore (hm.store.put (hf rfl) hs)
  frame hm hv _ := hm.local? hv
  tier {m} tier name hm hdef := by
    unfold Context.qualified Store.get at hdef ⊢
    cases hv : m.store.get? (Namespace.resolve tier c.identity) name with
    | none =>
      -- A name without a binding yields `undefined`, of which nothing is asked.
      rw [hv] at hdef
      cases hdef
    | some v => exact hm.store _ _ _ hv
  undefined hdef := by cases hdef
  integer n _ := all_integer.mpr (h.integer n)
  float hn _ := all_float.mpr ((h.float _).mpr hn.self)
  string s _ := all_string.mpr (h.string s)
  boolean b _ := all_boolean.mpr (h.boolean b)
  list hitems _ := all_list.mpr ⟨h.list _, fun v hv => (hitems v hv).1 (hitems v hv).2⟩
  binary hl hr hldef hrdef hv _ :=
    Operator.all_binary (fun _ => h.computed) h.string h.list (hl hldef) (hr hrdef) hv
  unary {op u v} hu hudef hv _ := by
    refine Operator.all_of_computed (Operator.computes_unary ?_ hv) fun _ => h.computed
    rintro x rfl
    exact (h.float x).mp (hu hudef).self
  function hn hparams _ :=
    all_function.mpr (h.function (nodup_of_firstRepeated? hparams).1 hn.parts)
  body hf := h.body (hf rfl).self

/-- A run keeps a lasting property of a store, and its value has the property unless there is none. -/
theorem holds_execute (h : Lasting p) (i : Interpreter) {program : Node} (identity : Identity)
    (hp : program.FiniteFloats) (hs : i.store.Holds p) :
    (i.execute program identity).2.store.Holds p ∧
      ∀ outcome, (i.execute program identity).1 = .ok outcome →
        outcome.value.isUndefined = false → outcome.value.All p := by
  have hkeeps := (h.invariant ⟨i.options, identity⟩).keeps_program program hp
  obtain ⟨⟨m, hm, hstore⟩, hvalue⟩ := i.execute_keeps hkeeps (.start hs i.dice)
  rw [hstore]
  exact ⟨hm.store, hvalue⟩

/-- So does a sequence of runs. -/
theorem holds_of_reaches (h : Lasting p) {s t : Store} (ht : s.Reaches Node.FiniteFloats t)
    (hs : s.Holds p) : t.Holds p :=
  ht.keeps (fun i _ identity hp hi => (h.holds_execute i identity hp hi).1) hs

end Value.Lasting

end DiceScript
