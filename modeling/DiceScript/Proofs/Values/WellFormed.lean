import DiceScript.Proofs.Values.Lasting

/-!
# Well-formed values

What a medium can keep and every program can work with: a value whose floats are finite, with nothing
undefined in its lists, and whose functions do not name a parameter twice. Operators check their
float results and every stored operand is checked for being there, so runs keep all stored values
well formed. It follows that a name is listed exactly when reading it gives a value.

- `Value.WellFormed` — the property, in every part of a value.
- `lasting_wellFormedPart` — no way to come by a value breaks it.
- `runs_keep_values_wellFormed` — so it holds in every store that runs lead to.
-/

namespace DiceScript

def Value.WellFormedPart : Value → Prop
  | .float x => x.isFinite
  | .function f => f.params.Nodup ∧ ∀ n ∈ f.body, n.FiniteFloats
  | .undefined => False
  | _ => True

/-- Every float is finite, also in the bodies of functions, nothing is undefined at any depth, and
the parameters of each function are distinct. -/
def Value.WellFormed : Value → Prop := Value.All Value.WellFormedPart

theorem lasting_wellFormedPart : Value.Lasting Value.WellFormedPart where
  integer _ := trivial
  float _ := Iff.rfl
  string _ := trivial
  boolean _ := trivial
  list _ := trivial
  function hparams hbody := ⟨hparams, hbody⟩
  body hf := hf.2

/-- A name is listed exactly when reading it gives a value, if no name is bound to `undefined`. -/
theorem Store.mem_keys_iff_get_ne {s : Store} {ns : Namespace}
    (h : ∀ name v, s.get? ns name = some v → v.WellFormed) (name : String) :
    name ∈ s.keys ns ↔ s.get ns name ≠ .undefined := by
  rw [Store.mem_keys_iff, Store.get]
  cases hv : s.get? ns name with
  | none => simp
  | some v =>
    -- A name that is bound to `undefined` would be listed and yet read as if it were not bound.
    have hne : v ≠ .undefined := by
      rintro rfl
      exact (h name _ hv).self
    simpa using hne

/-- **Well-formed values stay well formed.** If everything that a store binds is well formed, then
after any sequence of runs, by anyone, whether they fail or not, everything bound is well formed, as
long as the float literals of the programs are finite; what a run of such a program then returns is
well formed unless it is `undefined`; and the names that a namespace lists are those that have a
value in it. -/
theorem runs_keep_values_wellFormed {s t : Store}
    (hs : ∀ ns name v, s.get? ns name = some v → v.WellFormed)
    (ht : s.Reaches Node.FiniteFloats t) :
    (∀ ns name v, t.get? ns name = some v → v.WellFormed) ∧
    (∀ (i : Interpreter) (program : Node) (identity : Identity) (outcome : Outcome),
      i.store = t → program.FiniteFloats → (i.execute program identity).1 = .ok outcome →
        outcome.value = .undefined ∨ outcome.value.WellFormed) ∧
    ∀ ns name, name ∈ t.keys ns ↔ t.get ns name ≠ .undefined := by
  have hholds : t.Holds Value.WellFormedPart := lasting_wellFormedPart.holds_of_reaches ht hs
  refine ⟨hholds, ?_, fun ns name => Store.mem_keys_iff_get_ne (hholds ns) name⟩
  rintro i program identity outcome rfl hp hok
  have hvalue := (lasting_wellFormedPart.holds_execute i identity hp hholds).2 outcome hok
  cases hdef : outcome.value.isUndefined with
  | false => exact .inr (hvalue hdef)
  | true =>
    left
    cases hv : outcome.value with
    | undefined => rfl
    | _ =>
      rw [hv] at hdef
      cases hdef

/-- A program that stores the opposite of a float in a list, run on a store without bindings. -/
theorem runs_keep_values_wellFormed_negated :
    let i := Interpreter.start {} none {} 0 0
    let program := Node.qualifiedAssign .global "x" (.list [.unary .neg (.float 1.5)])
    let t := (i.execute program ⟨"ann", "guild"⟩).2.store
    (∀ ns name v, i.store.get? ns name = some v → v.WellFormed) ∧
      i.store.Reaches Node.FiniteFloats t ∧
      (∀ ns name v, t.get? ns name = some v → v.WellFormed) ∧
      t.get? .global "x" = some (.list [.float (-1.5)]) := by
  intro i program t
  have hempty : ∀ ns name v, i.store.get? ns name = some v → v.WellFormed := Store.holds_empty
  have hprogram : program.FiniteFloats := by
    have hx : Float.isFinite 1.5 = true := by decide
    refine .intro trivial ?_
    simp only [program, Node.parts, List.mem_singleton, forall_eq]
    refine .intro trivial ?_
    simp only [Node.parts, List.mem_singleton, forall_eq]
    refine .intro trivial ?_
    simp only [Node.parts, List.mem_singleton, forall_eq]
    exact .intro hx (by simp [Node.parts])
  have hreach : i.store.Reaches Node.FiniteFloats t := .execute i _ .refl hprogram
  exact ⟨hempty, hreach, (runs_keep_values_wellFormed hempty hreach).1, rfl⟩

end DiceScript
