import DiceScript.Proofs.Isolation.Reads
import DiceScript.Proofs.Isolation.Writes
import DiceScript.Proofs.Store.Hollow

/-!
# Runs that do not meet

Two runs of which neither changes what the other sees can be made in either order: each has the same
outcome, and the store is the same in the end. What the store binds follows from what runs read and
write. That it is the same store takes more, since each run may tidy away hollow entries that the
other has yet to come across: both runs of one program, on stores that look the same to it, tidy on
the way to the same namespaces.

- `Store.Tidied` — the hollow entries on the way to some namespaces are gone.
- `run_on_sameView` — two runs of a program on stores that look the same to it.
- `runs_commute_of_sameView` — runs that leave alone what the other sees commute.
- `independent_runs_commute` — so do runs on different servers, or by different users of one server
  that leave its shared tier as it was, if both leave the global tier as it was.
-/

namespace DiceScript

/-! ## Tidying -/

namespace Store

/-- The hollow entries of `s` are those of `s₀` that are not on the way to a touched namespace. -/
def Tidied (touched : Namespace → Prop) (s₀ s : Store) : Prop :=
  ∀ slot, s.Hollow slot ↔ s₀.Hollow slot ∧ ∀ ns, touched ns → ¬ slot.LeadsTo ns

theorem tidied_refl (s : Store) : Tidied (fun _ => False) s s :=
  fun _ => ⟨fun h => ⟨h, fun _ hns => hns.elim⟩, And.left⟩

theorem Tidied.change {touched : Namespace → Prop} {s₀ s s' : Store} {ns : Namespace}
    (h : Tidied touched s₀ s) (hs : ChangesAt ns s s') :
    Tidied (fun ns' => touched ns' ∨ ns' = ns) s₀ s' := by
  intro slot
  rw [hs.hollow, h slot]
  constructor
  · rintro ⟨⟨hollow, htouched⟩, hns⟩
    refine ⟨hollow, fun ns' hns' => ?_⟩
    rcases hns' with hns' | rfl
    · exact htouched ns' hns'
    · exact hns
  · rintro ⟨hollow, htouched⟩
    exact ⟨⟨hollow, fun ns' hns' => htouched ns' (.inl hns')⟩, htouched ns (.inr rfl)⟩

def TidiedAlike (s₀ t₀ s t : Store) : Prop :=
  ∃ touched, Tidied touched s₀ s ∧ Tidied touched t₀ t

theorem TidiedAlike.change {s₀ t₀ s t s' t' : Store} {ns : Namespace} (h : TidiedAlike s₀ t₀ s t)
    (hs : ChangesAt ns s s') (ht : ChangesAt ns t t') : TidiedAlike s₀ t₀ s' t' := by
  obtain ⟨touched, hs₀, ht₀⟩ := h
  exact ⟨_, hs₀.change hs, ht₀.change ht⟩

end Store

/-! ## Two runs of one program -/

theorem Machine.store_pop (m : Machine) : m.pop.store = m.store := by
  unfold Machine.pop
  split <;> rfl

/-- A relation that no step sees through, together with one of stores that goes along with writes and
removals. -/
theorem Run.Indistinct.andStores {c : Context} {R : Machine → Machine → Prop}
    (h : Run.Indistinct c R) {Q : Store → Store → Prop}
    (hQ : ∀ {s t s' t' ns}, Q s t → Store.ChangesAt ns s s' → Store.ChangesAt ns t t' → Q s' t') :
    Run.Indistinct c fun m n => R m n ∧ Q m.store n.store where
  frames hr := h.frames hr.1
  tier tier name hr := h.tier tier name hr.1
  iterations hr := h.iterations hr.1
  dice hr := h.dice hr.1
  record action hr := ⟨h.record action hr.1, hr.2⟩
  count hr := ⟨h.count hr.1, hr.2⟩
  draw dice hr := ⟨h.draw dice hr.1, hr.2⟩
  bind name v hr := ⟨h.bind name v hr.1, hr.2⟩
  unbind name hr := ⟨h.unbind name hr.1, hr.2⟩
  push frame hr := ⟨h.push frame hr.1, hr.2⟩
  pop hr := ⟨h.pop hr.1, by simpa [Machine.store_pop] using hr.2⟩
  put hr hs ht := ⟨h.put hr.1 hs ht, hQ hr.2 (Store.changesAt_put hs) (Store.changesAt_put ht)⟩
  drop hr hs ht := ⟨h.drop hr.1 hs ht, hQ hr.2 (Store.changesAt_drop hs) (Store.changesAt_drop ht)⟩

namespace Interpreter

/-- Two runs in lockstep have the same outcome and leave the stores of related machines. -/
theorem run_lockstep {R : Machine → Machine → Prop} {options : Options} {identity : Identity}
    {program : Node} (h : Run.Lockstep R (Run.program ⟨options, identity⟩ program))
    (hlog : ∀ {m n}, R m n → m.log = n.log) (dice : Dice.Stream) {s t : Store}
    (hstart : R (Machine.start s dice) (Machine.start t dice)) :
    (run options dice s program identity).1 = (run options dice t program identity).1 ∧
      ∃ m n, R m n ∧ (run options dice s program identity).2 = m.store ∧
        (run options dice t program identity).2 = n.store := by
  have hend := h _ _ hstart
  unfold run
  cases hm : Run.program ⟨options, identity⟩ program (Machine.start s dice) with
  | ok a m =>
    cases hn : Run.program ⟨options, identity⟩ program (Machine.start t dice) with
    | ok b n =>
      rw [hm, hn] at hend
      obtain ⟨rfl, hr⟩ := hend
      exact ⟨by simp [hlog hr], m, n, hr, rfl, rfl⟩
    | error b n =>
      rw [hm, hn] at hend
      exact hend.elim
  | error a m =>
    cases hn : Run.program ⟨options, identity⟩ program (Machine.start t dice) with
    | ok b n =>
      rw [hm, hn] at hend
      exact hend.elim
    | error b n =>
      rw [hm, hn] at hend
      obtain ⟨rfl, hr⟩ := hend
      exact ⟨by simp [hlog hr], m, n, hr, rfl, rfl⟩

/-- On two stores that look the same to its user a program has the same outcome, leaves stores that
look the same, and tidies both alike. -/
theorem run_on_sameView (options : Options) (dice : Dice.Stream) (program : Node)
    {identity : Identity} {s t : Store} (h : s.SameView identity t) :
    (run options dice s program identity).1 = (run options dice t program identity).1 ∧
      (run options dice s program identity).2.SameView identity
        (run options dice t program identity).2 ∧
      Store.TidiedAlike s t (run options dice s program identity).2
        (run options dice t program identity).2 := by
  have hindistinct := (sameView_indistinct ⟨options, identity⟩).andStores
    (Q := Store.TidiedAlike s t) fun hQ hs ht => hQ.change hs ht
  obtain ⟨hsame, m, n, ⟨⟨hview, -⟩, htidied⟩, hs, ht⟩ :=
    run_lockstep (hindistinct.lockstep_program program) (fun hr => by rw [hr.1.2]) dice
      ⟨⟨h, rfl⟩, _, s.tidied_refl, t.tidied_refl⟩
  rw [hs, ht]
  exact ⟨hsame, hview, htidied⟩

end Interpreter

/-! ## Two programs -/

/-- A namespace that someone's programs do not leave alone is one of the four that they see. -/
theorem Namespace.foreign_or_resolve (i : Identity) (ns : Namespace) :
    ns.Foreign i ∨ ∃ tier, ns = Namespace.resolve tier i := by
  cases ns with
  | core => exact .inl trivial
  | global => exact .inr ⟨.global, rfl⟩
  | shared server =>
    by_cases h : server = i.server
    · exact .inr ⟨.shared, h ▸ rfl⟩
    · exact .inl h
  | personal server user =>
    by_cases h : server = i.server ∧ user = i.user
    · obtain ⟨rfl, rfl⟩ := h
      exact .inr ⟨.personal, rfl⟩
    · exact .inl h

theorem Store.SameForeign.get? {i : Identity} {s t : Store} (h : s.SameForeign i t)
    (ns : Namespace) (hf : ns.Foreign i) (name : String) : t.get? ns name = s.get? ns name := by
  rw [Store.get?, Store.get?, h ns hf]

namespace Interpreter

section Commuting

variable (options options' : Options) (dice dice' : Dice.Stream) (p q : Node) {i j : Identity}
  {s : Store}

/-- Two runs commute when neither changes what the other sees. -/
theorem runs_commute_of_sameView (hp : s.SameView j (run options dice s p i).2)
    (hq : s.SameView i (run options' dice' s q j).2) :
    (run options dice (run options' dice' s q j).2 p i).1 = (run options dice s p i).1 ∧
      (run options' dice' (run options dice s p i).2 q j).1 = (run options' dice' s q j).1 ∧
      (run options' dice' (run options dice s p i).2 q j).2 =
        (run options dice (run options' dice' s q j).2 p i).2 := by
  obtain ⟨houtcome, hview, touched, htidied, htidied'⟩ := run_on_sameView options dice p hq
  obtain ⟨houtcome', hview', touched', hsecond, hsecond'⟩ := run_on_sameView options' dice' q hp
  have hforeign := sameForeign_run options dice s p i
  have hforeign' := sameForeign_run options' dice' s q j
  have hafter := sameForeign_run options dice (run options' dice' s q j).2 p i
  have hafter' := sameForeign_run options' dice' (run options dice s p i).2 q j
  generalize (run options dice s p i).2 = first at *
  generalize (run options' dice' s q j).2 = second at *
  refine ⟨houtcome.symm, houtcome'.symm, Store.ext_hollow (fun ns name => ?_) fun slot => ?_⟩
  · -- A namespace is seen by both users, by one of them or by none.
    rcases Namespace.foreign_or_resolve i ns with hi | ⟨tier, rfl⟩
    · rcases Namespace.foreign_or_resolve j ns with hj | ⟨tier, rfl⟩
      · rw [hafter'.get? _ hj, hforeign.get? _ hi, hafter.get? _ hi, hforeign'.get? _ hj]
      · rw [← hview' tier name, hafter.get? _ hi]
    · rcases Namespace.foreign_or_resolve j (Namespace.resolve tier i) with hj | ⟨tier', htier⟩
      · rw [hafter'.get? _ hj, hview tier name]
      · rw [← hview tier name, htier, ← hview' tier' name, ← hp tier' name, ← htier, ← hq tier name]
  · rw [hsecond' slot, htidied slot, htidied' slot, hsecond slot]
    exact and_right_comm

end Commuting

/-- What someone's run leaves looks to another user as it did before, if the tiers that the two share
are as they were. -/
theorem sameView_of_apart {i j : Identity} {s t : Store} (hforeign : s.SameForeign i t)
    (hglobal : t.global = s.global)
    (hshared : j.server = i.server →
      ∀ name, t.get? (.shared i.server) name = s.get? (.shared i.server) name)
    (hpersonal : ¬ (j.server = i.server ∧ j.user = i.user)) : s.SameView j t := by
  intro tier name
  cases tier with
  | core => exact (hforeign.get? .core trivial name).symm
  | global => simp [Namespace.resolve, Store.get?, Store.bindings?, hglobal]
  | shared =>
    by_cases hserver : j.server = i.server
    · rw [Namespace.resolve, hserver, hshared hserver name]
    · exact (hforeign.get? (.shared j.server) hserver name).symm
  | personal => exact (hforeign.get? (.personal j.server j.user) hpersonal name).symm

/-- **Independent runs commute.** Let two programs be run from the same store, each with its own
options and dice, on different servers, or by different users of one server where neither changes the
shared tier; and let neither change the global tier. Then it does not matter which of them is run
first: either has the outcome it has when it is run alone, and the image of the store is the same in
the end. -/
theorem independent_runs_commute (options options' : Options) (dice dice' : Dice.Stream)
    (p q : Node) (i j : Identity) (s : Store)
    (hp : (run options dice s p i).2.global = s.global)
    (hq : (run options' dice' s q j).2.global = s.global)
    (hapart : i.server ≠ j.server ∨ i.server = j.server ∧ i.user ≠ j.user ∧
      (∀ name, (run options dice s p i).2.get? (.shared i.server) name =
        s.get? (.shared i.server) name) ∧
      ∀ name, (run options' dice' s q j).2.get? (.shared j.server) name =
        s.get? (.shared j.server) name) :
    (run options dice (run options' dice' s q j).2 p i).1 = (run options dice s p i).1 ∧
      (run options' dice' (run options dice s p i).2 q j).1 = (run options' dice' s q j).1 ∧
      (run options' dice' (run options dice s p i).2 q j).2.image =
        (run options dice (run options' dice' s q j).2 p i).2.image := by
  have hforeign := sameForeign_run options dice s p i
  have hforeign' := sameForeign_run options' dice' s q j
  obtain ⟨hviewp, hviewq⟩ : s.SameView j (run options dice s p i).2 ∧
      s.SameView i (run options' dice' s q j).2 := by
    rcases hapart with hserver | ⟨-, huser, hsharedp, hsharedq⟩
    · exact ⟨sameView_of_apart hforeign hp (absurd · hserver.symm) fun h => hserver h.1.symm,
        sameView_of_apart hforeign' hq (absurd · hserver) fun h => hserver h.1⟩
    · exact ⟨sameView_of_apart hforeign hp (fun _ => hsharedp) fun h => huser h.2.symm,
        sameView_of_apart hforeign' hq (fun _ => hsharedq) fun h => huser h.2⟩
  obtain ⟨hfirst, hsecond, hstore⟩ :=
    runs_commute_of_sameView options options' dice dice' p q hviewp hviewq
  exact ⟨hfirst, hsecond, by rw [hstore]⟩

/-- Two users of one server, one of whom has an entry that binds nothing. -/
theorem independent_runs_commute_guild :
    let s : Store := { personal := Dict.ofList [("guild", Dict.ofList [("bob", {})])] }
    let keep : Node := .qualifiedAssign .personal "x" (.integer 1)
    let forget : Node := .delete (some .personal) "y"
    let ann : Identity := ⟨"ann", "guild"⟩
    let bob : Identity := ⟨"bob", "guild"⟩
    ann.server = bob.server ∧ ann.user ≠ bob.user ∧ s.Hollow (.personal "guild" "bob") ∧
      (run {} (.ofSeed 0) s keep ann).2.global = s.global ∧
      (run {} (.ofSeed 1) s forget bob).2.global = s.global ∧
      (run {} (.ofSeed 1) (run {} (.ofSeed 0) s keep ann).2 forget bob).2.image =
        (run {} (.ofSeed 0) (run {} (.ofSeed 1) s forget bob).2 keep ann).2.image := by
  intro s keep forget ann bob
  have huser : ann.user ≠ bob.user := by decide
  exact ⟨rfl, huser, ⟨{}, rfl, rfl⟩, rfl, rfl,
    (independent_runs_commute {} {} (.ofSeed 0) (.ofSeed 1) keep forget ann bob s rfl rfl
      (.inr ⟨rfl, huser, fun _ => rfl, fun _ => rfl⟩)).2.2⟩

end Interpreter

end DiceScript
