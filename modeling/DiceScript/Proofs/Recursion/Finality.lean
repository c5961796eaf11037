import DiceScript.Proofs.Recursion.Conforming
import DiceScript.Proofs.Values.Lasting

/-!
# Defined functions are final

Where a definition may not replace a function, nothing else that a run does by itself can: programs
write to the store by definitions, by assignments to a name in a tier and by removals of such a name,
and without the latter two only definitions are left. They may be made anywhere, in the bodies of
functions that were stored long ago, in loops and in calls by others, and each of them looks first at
the place that it writes to. So a function that is bound at some point of some run is bound there at
every later point.

- `Node.Unqualified`, `Value.Unqualified` — programs and functions that write no name in a tier, but by
  definitions.
- `Store.KeepsFunctions` — a store in which the functions of an earlier one are bound as they were.
- `Run.relates_keepsFunctions` — a run leads to such stores.
- `defined_functions_are_final` — so do runs in turn.
-/

namespace DiceScript

/-! ## Programs that only define -/

/-- No statement in a program binds or removes a name in a tier, unless it defines a function. The
bodies of definitions count as parts of the program. -/
def Node.Unqualified : Node → Prop :=
  Node.All fun
    | .qualifiedAssign .. => False
    | .delete (some _) _ => False
    | _ => True

/-- A part of a value that is no function, or a function with such a body. -/
def Value.Unqualified : Value → Prop
  | .function f => ∀ n ∈ f.body, n.Unqualified
  | _ => True

/-- Signs and negations yield no function. -/
theorem Operator.all_unary {op : UnaryOp} {u v : Value} (h : unary op u = .ok v) :
    v.All Value.Unqualified := by
  unfold unary at h
  split at h
  · obtain rfl := Except.ok.inj h
    exact Value.all_boolean.mpr trivial
  · split at h
    · obtain rfl := Except.ok.inj h
      exact Value.all_integer.mpr trivial
    · cases h
  · obtain rfl := Except.ok.inj h
    exact Value.all_float.mpr trivial
  · obtain rfl := Except.ok.inj h
    exact Value.all_integer.mpr trivial
  · obtain rfl := Except.ok.inj h
    exact Value.all_float.mpr trivial
  · cases h

/-! ## Stores that keep functions -/

namespace Store

/-- What is bound to a function in the first store is bound to it in the second. -/
def KeepsFunctions (s s' : Store) : Prop :=
  ∀ ns name f, s.get? ns name = some (.function f) → s'.get? ns name = some (.function f)

theorem KeepsFunctions.refl (s : Store) : s.KeepsFunctions s := fun _ _ _ h => h

theorem KeepsFunctions.trans {s s' s'' : Store} (h : s.KeepsFunctions s')
    (h' : s'.KeepsFunctions s'') : s.KeepsFunctions s'' :=
  fun ns name f hf => h' ns name f (h ns name f hf)

/-- A write where there is no function keeps all functions. -/
theorem KeepsFunctions.put {s s' s'' : Store} {ns : Namespace} {name : String} {v : Value}
    (h : s.KeepsFunctions s') (hfree : ∀ f, s'.get? ns name ≠ some (.function f))
    (hput : s'.put ns name v = .ok s'') : s.KeepsFunctions s'' := by
  intro ns' name' f hf
  have hold := h ns' name' f hf
  rw [get?_put hput]
  split
  · rename_i hplace
    obtain ⟨rfl, rfl⟩ := hplace
    exact absurd hold (hfree f)
  · exact hold

end Store

open Store (KeepsFunctions)

/-! ## Runs -/

/-- A definition that does not replace a function writes where there is none. -/
theorem Run.no_function_of_redefines {c : Context} (hforbid : c.options.redefinition = .forbid)
    {m : Machine} {f : Function} (h : redefines c m f = false) (g : Function) :
    m.store.get? (Namespace.resolve f.tier c.identity) f.name ≠ some (.function g) := by
  intro hg
  have hqualified : c.qualified m f.tier f.name = .function g := by
    rw [Context.qualified, Store.get, hg]
    rfl
  simp [redefines, hforbid, hqualified, Value.toFunction?] at h

/-- Where functions may not be replaced, unqualified programs keep the functions of every store that a
run started from. -/
theorem Run.relates_keepsFunctions {c : Context} (hforbid : c.options.redefinition = .forbid) :
    Run.Relates c (Machine.Holds Value.Unqualified) KeepsFunctions
      (fun v => v.All Value.Unqualified) Node.Unqualified where
  refl := KeepsFunctions.refl
  invariant s :=
    { parts := fun hn => hn.parts
      upkeep := fun _ _ _ hm => ⟨⟨hm.1.store, hm.1.frames⟩, hm.2⟩
      bind := fun hm hv _ => ⟨hm.1.bind hv, hm.2⟩
      unbind := fun hm => ⟨hm.1.unbind, hm.2⟩
      push := fun hm hframe => ⟨hm.1.push fun name v hv => (hframe name v hv).1, hm.2⟩
      pop := fun {m} hm => by
        refine ⟨hm.1.pop, ?_⟩
        unfold Machine.pop
        split <;> exact hm.2
      assign := fun hn _ _ _ _ => absurd hn.self id
      delete := fun hn _ _ => absurd hn.self id
      define := fun hf hm hfree hput => ⟨hm.1.withStore (hm.1.store.put hf hput),
        hm.2.put (no_function_of_redefines hforbid hfree) hput⟩
      frame := fun hm hv => hm.1.local? hv
      tier := fun {m} tier name hm => by
        unfold Context.qualified Store.get
        cases hv : m.store.get? (Namespace.resolve tier c.identity) name with
        | none => exact Value.all_undefined.mpr trivial
        | some v => exact hm.1.store _ _ _ hv
      undefined := Value.all_undefined.mpr trivial
      integer := fun _ => Value.all_integer.mpr trivial
      float := fun _ => Value.all_float.mpr trivial
      string := fun _ => Value.all_string.mpr trivial
      boolean := fun _ => Value.all_boolean.mpr trivial
      list := fun hitems => Value.all_list.mpr ⟨trivial, fun v hv => (hitems v hv).1⟩
      binary := fun hl hr _ _ hv => by
        refine Operator.all_binary (fun u hu => ?_) (fun _ => trivial) (fun _ => trivial) hl hr hv
        cases u with
        | function f => exact absurd hu id
        | _ => trivial
      unary := fun _ _ hv => Operator.all_unary hv
      function := fun hn _ => Value.all_function.mpr hn.parts
      body := fun hf => Value.all_function.mp hf }

/-! ## Definitions that fail -/

/-- A definition that is refused leaves everything as it was. -/
theorem Run.eq_of_define_error {c : Context} {f : Function} {m n : Machine} {cause : Cause}
    (h : define c f m = .error cause n) : n = m := by
  unfold define at h
  by_cases hcore : f.tier = .core
  · rw [if_pos hcore] at h
    cases h
    rfl
  · rw [if_neg hcore] at h
    cases hparams : firstRepeated? [] f.params with
    | some p =>
      rw [hparams] at h
      cases h
      rfl
    | none =>
      rw [hparams] at h
      change (if redefines c m f then throw (.alreadyDefined f.name f.tier)
        else do putQualified c f.tier f.name (.function f); return .function f : Run Value) m = _ at h
      by_cases hredefines : redefines c m f = true
      · rw [if_pos hredefines] at h
        cases h
        rfl
      · rw [if_neg hredefines] at h
        change EStateM.bind (EStateM.bind (ofExcept (m.store.put
          (Namespace.resolve f.tier c.identity) f.name (.function f))) _) _ m = _ at h
        cases hput : m.store.put (Namespace.resolve f.tier c.identity) f.name (.function f) with
        | ok s =>
          rw [hput] at h
          cases h
        | error cause' =>
          rw [hput] at h
          cases h
          rfl

namespace Recursion

variable {i : Interpreter}

/-- A run that fails as a definition does has come to a definition that was refused, and leaves the
store that the statements before this definition made. -/
theorem store_of_definition_error (i : Interpreter) (program : Node) (identity : Identity)
    {failure : Failure} (h : (i.execute program identity).1 = .error failure)
    (hkind : failure.kind = .definitionError) :
    ∃ f n cause before,
      ComesTo ⟨i.options, identity⟩ (Run.define ⟨i.options, identity⟩ f) n
        (plan ⟨i.options, identity⟩ 0 (.evaluate program)) (Machine.start i.store i.dice) before ∧
      Run.define ⟨i.options, identity⟩ f n = .error cause n ∧
      Passes i [(program, identity)] (before ++ [n.store]) ∧
      n.store = before.getLastD i.store ∧ (i.execute program identity).2.store = n.store := by
  obtain ⟨cause, m, hrun, hcause⟩ := execute_error h
  obtain ⟨stores, hhistory⟩ := exists_history i program identity
  rw [hrun] at hhistory
  -- Nothing needs to be known of the state for this, so an invariant that says nothing will do.
  have hrelates : Run.Relates ⟨i.options, identity⟩ (fun _ => True) (fun _ _ => True)
      (fun _ => True) fun _ => True :=
    ⟨fun _ => trivial, fun _ => by
      simpa using Run.Invariant.ofStore (P := fun _ => True) (fun _ _ => trivial)
        fun _ _ => trivial⟩
  obtain ⟨f, n, n', before, hcomes, hdefine, rfl⟩ := hhistory.exists_define hrelates
    (hcause.trans hkind) (Plan.conforms_plan hrelates trivial) trivial
  obtain rfl := Run.eq_of_define_error hdefine
  refine ⟨f, n', cause, before, hcomes, hdefine, ?_, hcomes.store, ?_⟩
  · simpa using Passes.run hhistory (.nil _)
  · rw [hhistory.execute_store, List.getLastD_concat]

/-- As programs run in turn, each store keeps the functions of the one before it. -/
theorem Passes.isChain_keepsFunctions {commands : List (Node × Identity)} {stores : List Store}
    (h : Passes i commands stores) (hforbid : i.options.redefinition = .forbid)
    (hstore : i.store.Holds Value.Unqualified) (hprograms : ∀ x ∈ commands, x.1.Unqualified) :
    (i.store :: stores).IsChain KeepsFunctions := by
  induction h with
  | nil i => exact .singleton _
  | @run i program identity rest r stores more hrun _ ih =>
    obtain ⟨hprogram, hrest⟩ := List.forall_mem_cons.mp hprograms
    have hrelates := Run.relates_keepsFunctions (c := ⟨i.options, identity⟩) hforbid
    obtain ⟨hends, hchain⟩ := hrun.conforms hrelates (Plan.conforms_plan hrelates hprogram)
      (.start hstore i.dice)
    have hlast := hrun.execute_store
    have hleft : (Run.left r).store = stores.getLastD i.store := hrun.left_store
    have hmade : (i.execute program identity).2.store.Holds Value.Unqualified := by
      rw [hlast, ← hleft]
      cases r with
      | ok v m => exact hends.1.store
      | error cause m => exact hends.store
    have hmore := ih hforbid hmade hrest
    rw [hlast] at hmore
    exact isChain_append hchain hmore

end Recursion

open Recursion

/-- **A defined function is final.** Where functions may not be redefined, let programs run in turn, as
anyone, on a store, and let neither the programs nor the bodies of functions in the store bind or
remove names in tiers other than by definitions. Whatever is bound to a function at some point is bound
to the same function at every later point, whether runs fail or not; and a run that fails as a
definition does leaves the store that was made before the definition that failed. -/
theorem defined_functions_are_final (hforbid : i.options.redefinition = .forbid)
    {commands : List (Node × Identity)} (hstore : i.store.Holds Value.Unqualified)
    (hprograms : ∀ x ∈ commands, x.1.Unqualified) :
    (∃ stores, (∀ stores', Passes i commands stores' ↔ stores' = stores) ∧
      (afterAll i commands).store = stores.getLastD i.store ∧
      (i.store :: stores).Pairwise KeepsFunctions) ∧
    ∀ (j : Interpreter) (program : Node) (identity : Identity) (failure : Failure),
      (j.execute program identity).1 = .error failure → failure.kind = .definitionError →
      ∃ f n cause before,
        ComesTo ⟨j.options, identity⟩ (Run.define ⟨j.options, identity⟩ f) n
          (plan ⟨j.options, identity⟩ 0 (.evaluate program)) (Machine.start j.store j.dice) before ∧
        Run.define ⟨j.options, identity⟩ f n = .error cause n ∧
        Passes j [(program, identity)] (before ++ [n.store]) ∧
        n.store = before.getLastD j.store ∧ (j.execute program identity).2.store = n.store := by
  refine ⟨?_, fun j program identity failure => store_of_definition_error j program identity⟩
  obtain ⟨stores, hpasses⟩ := exists_passes i commands
  refine ⟨stores, fun stores' => ⟨fun h => h.unique hpasses, ?_⟩, hpasses.afterAll_store, ?_⟩
  · rintro rfl
    exact hpasses
  · have hchain := hpasses.isChain_keepsFunctions hforbid hstore hprograms
    have : Trans KeepsFunctions KeepsFunctions KeepsFunctions := ⟨KeepsFunctions.trans⟩
    exact hchain.pairwise

/-- Someone defines a function. Someone else defines another one, tries to replace the first and fails:
both functions are there, the first one as it was. -/
theorem defined_functions_are_final_forbidden :
    let i : Interpreter := .start {} none { redefinition := .forbid } 0 0
    let ann : Identity := ⟨"ann", "guild"⟩
    let bob : Identity := ⟨"bob", "guild"⟩
    let first : Node := .define "f" [] [.integer 1] (some .global)
    let second : Node := .block [.define "g" [] [.integer 2] (some .global),
      .define "f" [] [.integer 3] (some .global)]
    let j := (i.execute first ann).2
    i.options.redefinition = .forbid ∧ i.store.Holds Value.Unqualified ∧
      (∀ x ∈ [(first, ann), (second, bob)], x.1.Unqualified) ∧
      (∃ stores, Passes i [(first, ann), (second, bob)] stores ∧
        (i.store :: stores).Pairwise KeepsFunctions) ∧
      (∃ failure, (j.execute second bob).1 = .error failure ∧ failure.kind = .definitionError) ∧
      (j.execute second bob).2.store.keys .global = ["f", "g"] ∧
      (j.execute second bob).2.store.get? .global "f" =
        some (.function ⟨"f", [], [.integer 1], .global⟩) := by
  intro i ann bob first second j
  have hstore : i.store.Holds Value.Unqualified := Store.holds_empty
  have hnode : ∀ n : Int64, (Node.integer n).Unqualified := fun n =>
    .intro trivial (by simp [Node.parts])
  have hdefine : ∀ name n, (Node.define name [] [.integer n] (some .global)).Unqualified :=
    fun name n => .intro trivial (List.forall_mem_singleton.mpr (hnode n))
  have hsecond : second.Unqualified := .intro trivial
    (List.forall_mem_cons.mpr ⟨hdefine _ _, List.forall_mem_singleton.mpr (hdefine _ _)⟩)
  have hprograms : ∀ x ∈ [(first, ann), (second, bob)], x.1.Unqualified :=
    List.forall_mem_cons.mpr ⟨hdefine _ _, List.forall_mem_singleton.mpr hsecond⟩
  obtain ⟨⟨stores, hpasses, -, hkeeps⟩, -⟩ := defined_functions_are_final (i := i) rfl hstore hprograms
  exact ⟨rfl, hstore, hprograms, ⟨stores, (hpasses stores).mpr rfl, hkeeps⟩, ⟨_, rfl, rfl⟩, rfl, rfl⟩

end DiceScript
