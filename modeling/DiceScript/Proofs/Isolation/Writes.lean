import DiceScript.Proofs.Session

/-!
# Who can write where

A program that someone runs writes to the global tier, to the shared tier of the server it is run on
and to the personal tier of its user there. Everything else is as it was before, and so the core tier
is what it was made when the library was installed, whoever runs what.

- `Namespace.Foreign` — the namespaces that an identity cannot write to.
- `foreign_invariant` — no step of a run touches them.
- `execute_writes_own_namespaces` — hence no run and no sequence of runs does.
-/

namespace DiceScript

/-- A namespace that programs of someone leave alone: the core tier, the shared tier of another
server, the personal tier of another user or on another server. -/
def Namespace.Foreign (i : Identity) : Namespace → Prop
  | .core => True
  | .global => False
  | .shared server => server ≠ i.server
  | .personal server user => ¬ (server = i.server ∧ user = i.user)

/-- What a tier other than the core tier resolves to is not foreign. -/
theorem Namespace.not_foreign_resolve {i : Identity} {tier : Tier} (h : tier ≠ .core) :
    ¬ Namespace.Foreign i (Namespace.resolve tier i) := by
  cases tier with
  | core => exact absurd rfl h
  | global => exact id
  | shared => exact fun hne => hne rfl
  | personal => exact fun hne => hne ⟨rfl, rfl⟩

namespace Store

/-- A write that goes through leaves foreign namespaces as they are. -/
theorem bindings?_put_of_foreign {s s' : Store} {i : Identity} {tier : Tier} {name : String}
    {v : Value} (h : s.put (Namespace.resolve tier i) name v = .ok s') {ns : Namespace}
    (hf : ns.Foreign i) : s'.bindings? ns = s.bindings? ns := by
  have htier : tier ≠ .core := by
    rintro rfl
    cases h
  have hne : ns ≠ Namespace.resolve tier i := by
    rintro rfl
    exact Namespace.not_foreign_resolve htier hf
  rw [bindings?_put h, if_neg hne]

/-- A removal that goes through leaves foreign namespaces as they are. -/
theorem bindings?_drop_of_foreign {s s' : Store} {i : Identity} {tier : Tier} {name : String}
    {v : Value} (h : s.drop (Namespace.resolve tier i) name = .ok (v, s')) {ns : Namespace}
    (hf : ns.Foreign i) : s'.bindings? ns = s.bindings? ns := by
  have htier : tier ≠ .core := by
    rintro rfl
    cases h
  have hne : ns ≠ Namespace.resolve tier i := by
    rintro rfl
    exact Namespace.not_foreign_resolve htier hf
  exact bindings?_drop_of_ne h hne

def SameForeign (i : Identity) (s t : Store) : Prop :=
  ∀ ns : Namespace, ns.Foreign i → t.bindings? ns = s.bindings? ns

end Store

/-- What is foreign to the user of a run stays as it was in a store `s`. Nothing is asked of values
and programs: the stored functions of others write where their caller may write. -/
theorem foreign_invariant (c : Context) (s : Store) :
    Run.Invariant c (fun m => s.SameForeign c.identity m.store) (fun _ => True) fun _ => True :=
  .ofStore (fun hm hs ns hf => (Store.bindings?_put_of_foreign hs hf).trans (hm ns hf))
    fun hm hs ns hf => (Store.bindings?_drop_of_foreign hs hf).trans (hm ns hf)

/-- A run leaves foreign namespaces as they were. -/
theorem Interpreter.sameForeign_run (options : Options) (dice : Dice.Stream) (store : Store)
    (program : Node) (identity : Identity) :
    store.SameForeign identity (run options dice store program identity).2 := by
  have hkeeps := (foreign_invariant ⟨options, identity⟩ store).keeps_program program trivial
  obtain ⟨⟨m, hm, hstore⟩, -⟩ := run_keeps hkeeps fun ns _ => rfl
  rw [hstore]
  exact hm

theorem Interpreter.sameForeign_execute (i : Interpreter) (program : Node) (identity : Identity) :
    i.store.SameForeign identity (i.execute program identity).2.store :=
  sameForeign_run i.options i.dice i.store program identity

/-- A run leaves the core tier as it was. -/
theorem Interpreter.core_execute (i : Interpreter) (program : Node) (identity : Identity) :
    (i.execute program identity).2.store.core = i.store.core :=
  Option.some.inj (i.sameForeign_execute program identity .core trivial)

/-- **Runs write to the namespaces of their user only.** However a run ends, it leaves the core tier,
the shared tiers of other servers and the personal tiers of other users, or of the same user on other
servers, exactly as they were. A sequence of runs by anyone leaves the core tier as it was. -/
theorem execute_writes_own_namespaces (i : Interpreter) (program : Node) (identity : Identity) :
    (i.execute program identity).2.store.core = i.store.core ∧
    (∀ server, server ≠ identity.server →
      (i.execute program identity).2.store.bindings? (.shared server) =
        i.store.bindings? (.shared server)) ∧
    (∀ server user, ¬ (server = identity.server ∧ user = identity.user) →
      (i.execute program identity).2.store.bindings? (.personal server user) =
        i.store.bindings? (.personal server user)) ∧
    ∀ t, i.store.Reaches (fun _ => True) t → t.core = i.store.core := by
  refine ⟨i.core_execute program identity, ?_, ?_, ?_⟩
  · intro server hne
    exact i.sameForeign_execute program identity (.shared server) hne
  · intro server user hne
    exact i.sameForeign_execute program identity (.personal server user) hne
  · intro t ht
    exact ht.keeps (P := fun s => s.core = i.store.core)
      (fun j p u _ hj => (j.core_execute p u).trans hj) rfl

/-- A write to the shared tier of one server is not seen in that of another. -/
theorem execute_writes_own_namespaces_shared :
    let i := Interpreter.start {} none {} 0 0
    let j := (i.execute (.qualifiedAssign .shared "x" (.integer 1)) ⟨"ann", "guild"⟩).2
    "elsewhere" ≠ "guild" ∧
      j.store.bindings? (.shared "elsewhere") = i.store.bindings? (.shared "elsewhere") ∧
      j.store.get? (.shared "guild") "x" = some (.integer 1) := by
  intro i j
  have hne : "elsewhere" ≠ "guild" := by decide
  exact ⟨hne, (execute_writes_own_namespaces i _ _).2.1 "elsewhere" hne, rfl⟩

end DiceScript
