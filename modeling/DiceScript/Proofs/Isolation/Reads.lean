import DiceScript.Interpreter
import DiceScript.Proofs.Eval.Lockstep

/-!
# Who can see what

What someone's program yields, logs and writes depends on the core tier, the global tier, the shared
tier of its server and the personal tier of its user there, and on nothing else in the store. Two
stores that bind the same in these four namespaces cannot be told apart by any run, and they bind the
same there afterwards.

- `Store.SameView` — two stores that bind the same in what an identity sees.
- `sameView_indistinct` — no step of a run sees through it.
- `run_sees_own_namespaces` — hence no run does.
-/

namespace DiceScript

namespace Store

/-- Two stores that bind the same in each of the four namespaces that someone sees. -/
def SameView (i : Identity) (s t : Store) : Prop :=
  ∀ tier name, s.get? (Namespace.resolve tier i) name = t.get? (Namespace.resolve tier i) name

variable {i : Identity} {s t s' t' : Store} {tier : Tier} {name : String}

theorem SameView.put {v : Value} (h : s.SameView i t)
    (hs : s.put (Namespace.resolve tier i) name v = .ok s')
    (ht : t.put (Namespace.resolve tier i) name v = .ok t') : s'.SameView i t' := by
  intro tier' name'
  rw [get?_put hs, get?_put ht, h tier' name']

theorem SameView.drop {v w : Value} (h : s.SameView i t)
    (hs : s.drop (Namespace.resolve tier i) name = .ok (v, s'))
    (ht : t.drop (Namespace.resolve tier i) name = .ok (w, t')) : s'.SameView i t' := by
  intro tier' name'
  rw [get?_drop hs, get?_drop ht, h tier' name']

end Store

/-- Two machines that differ at most in what their user does not see of the store. -/
def Machine.SameView (i : Identity) (m n : Machine) : Prop :=
  m.store.SameView i n.store ∧ n = { m with store := n.store }

theorem sameView_indistinct (c : Context) : Run.Indistinct c (Machine.SameView c.identity) where
  frames h := by
    rw [h.2]
    rfl
  tier tier name h := by
    show (Store.get? _ _ _).getD _ = (Store.get? _ _ _).getD _
    rw [h.1 tier name]
  iterations h := by rw [h.2]
  dice h := by rw [h.2]
  record action h := ⟨h.1, by rw [h.2]; rfl⟩
  count h := ⟨h.1, by rw [h.2]⟩
  draw dice h := ⟨h.1, by rw [h.2]⟩
  bind name v h := ⟨h.1, by rw [h.2]; rfl⟩
  unbind name h := ⟨h.1, by rw [h.2]; rfl⟩
  push frame h := ⟨h.1, by rw [h.2]; rfl⟩
  pop {m n} h := by
    obtain ⟨store, frame, outer, log, iterations, dice⟩ := m
    obtain ⟨hs, hn⟩ := h
    rw [hn]
    cases outer with
    | nil => exact ⟨hs, rfl⟩
    | cons frame' outer' => exact ⟨hs, rfl⟩
  put h hs ht := ⟨h.1.put hs ht, by rw [h.2]⟩
  drop h hs ht := ⟨h.1.drop hs ht, by rw [h.2]⟩

/-- **Runs see the namespaces of their user only.** On two stores that bind the same in the core tier,
the global tier, and the shared and personal tiers of the user, a program run by that user with the
same options and dice has the same outcome — the same value or the same failure, and the same
actions — and leaves two stores that again bind the same there. -/
theorem run_sees_own_namespaces (options : Options) (dice : Dice.Stream) (program : Node)
    (identity : Identity) {s t : Store} (h : s.SameView identity t) :
    (Interpreter.run options dice s program identity).1 =
        (Interpreter.run options dice t program identity).1 ∧
      (Interpreter.run options dice s program identity).2.SameView identity
        (Interpreter.run options dice t program identity).2 := by
  have hlock := (sameView_indistinct ⟨options, identity⟩).lockstep_program program
  have hend := hlock (Machine.start s dice) (Machine.start t dice) ⟨h, rfl⟩
  -- The two runs end in the same way, so the mixed cases do not arise.
  unfold Interpreter.run
  cases hm : Run.program ⟨options, identity⟩ program (Machine.start s dice) with
  | ok a m =>
    cases hn : Run.program ⟨options, identity⟩ program (Machine.start t dice) with
    | ok b n =>
      rw [hm, hn] at hend
      obtain ⟨rfl, hstore, hrest⟩ := hend
      refine ⟨?_, hstore⟩
      rw [hrest]
    | error b n =>
      rw [hm, hn] at hend
      exact hend.elim
  | error a m =>
    cases hn : Run.program ⟨options, identity⟩ program (Machine.start t dice) with
    | ok b n =>
      rw [hm, hn] at hend
      exact hend.elim
    | error b n =>
      rw [hm, hn] at hend
      obtain ⟨rfl, hstore, hrest⟩ := hend
      refine ⟨?_, hstore⟩
      rw [hrest]

/-- What one user keeps does not show in a program that another user runs on the same server. -/
theorem run_sees_own_namespaces_personal :
    let s : Store := { personal := Dict.ofList [("guild", Dict.ofList [("bob",
      Dict.ofList [("x", .integer 1)])])] }
    let ann : Identity := ⟨"ann", "guild"⟩
    let program : Node := .qualifiedIdentifier .personal "x"
    s.SameView ann {} ∧
      (Interpreter.run {} (.ofSeed 0) s program ann).1 =
        (Interpreter.run {} (.ofSeed 0) {} program ann).1 := by
  intro s ann program
  have hview : s.SameView ann {} := by
    intro tier name
    cases tier with
    | core => rfl
    | global => rfl
    | shared => rfl
    | personal => rfl
  exact ⟨hview, (run_sees_own_namespaces {} (.ofSeed 0) program ann hview).1⟩

end DiceScript
