import DiceScript.Proofs.Number.Order
import DiceScript.Proofs.Parts

/-!
# Sameness of programs and functions

Functions are compared with the trees of their bodies, and a float there is compared as a number. So
this is an equivalence only among trees whose floats are numbers, and equality of the trees themselves
only where there are no floats, since the two zeros are the same.

- `Node.Floats`, `Value.Floats` — a property of every float, in the bodies of functions as well.
- `Node.sameAs_self`, `Node.sameAs_symm` — sameness of trees whose floats are numbers.
- `Node.eq_of_sameAs` — sameness of trees without floats.
-/

namespace DiceScript

/-! ## Floats in programs and values -/

def Node.Floats (p : Float → Prop) : Node → Prop :=
  Node.All fun
    | .float x => p x
    | _ => True

def Value.FloatsPart (p : Float → Prop) : Value → Prop
  | .float x => p x
  | .function f => ∀ n ∈ f.body, n.Floats p
  | _ => True

def Value.Floats (p : Float → Prop) (v : Value) : Prop := v.All (FloatsPart p)

/-! ## Programs -/

namespace Node

variable {a b : Node} {as bs : List Node} {c d : Option Node}

theorem sameItems_self (h : ∀ n ∈ as, n.sameAs n = true) : sameItems as as = true := by
  induction as with
  | nil => rfl
  | cons n rest ih => simp_all [sameItems]

theorem sameItems_symm (h : ∀ n ∈ as, ∀ {m}, n.sameAs m = true → m.sameAs n = true)
    (hs : sameItems as bs = true) : sameItems bs as = true := by
  induction as generalizing bs with
  | nil => cases bs <;> simp_all [sameItems]
  | cons n rest ih => cases bs <;> simp_all [sameItems]

theorem eq_of_sameItems (h : ∀ n ∈ as, ∀ {m}, n.sameAs m = true → n = m)
    (hs : sameItems as bs = true) : as = bs := by
  induction as generalizing bs with
  | nil => cases bs <;> simp_all [sameItems]
  | cons n rest ih =>
    cases bs with
    | nil => simp [sameItems] at hs
    | cons m more =>
      simp only [sameItems, Bool.and_eq_true, List.forall_mem_cons] at hs h
      rw [h.1 hs.1, ih h.2 hs.2]

theorem sameOption_symm (h : ∀ n ∈ c.toList, ∀ {m}, n.sameAs m = true → m.sameAs n = true)
    (hs : sameOption c d = true) : sameOption d c = true := by
  cases c <;> cases d <;> simp_all [sameOption]

theorem eq_of_sameOption (h : ∀ n ∈ c.toList, ∀ {m}, n.sameAs m = true → n = m)
    (hs : sameOption c d = true) : c = d := by
  cases c with
  | none => cases d <;> simp_all [sameOption]
  | some n =>
    cases d with
    | none => simp [sameOption] at hs
    | some m => rw [h n (by simp) hs]

/-- A tree is the same as itself when its floats are numbers. -/
theorem sameAs_self (h : a.Floats fun x => x.isNaN = false) : a.sameAs a = true := by
  induction h with
  | @intro n hp _ ih =>
    cases n with
    | float x => exact Number.beq_self hp
    | dice count sides form => cases count <;> simp_all [sameAs, sameOption, parts]
    | _ => simp_all [sameAs, sameItems_self, parts]

theorem sameAs_symm (h : a.Floats fun x => x.isNaN = false) (hs : a.sameAs b = true) :
    b.sameAs a = true := by
  induction h generalizing b with
  | @intro n hp _ ih =>
    unfold sameAs at hs
    -- One case per kind: the fields are equal the other way round, and so are the nodes in them.
    split at hs
    all_goals try simp only [Bool.and_eq_true, beq_iff_eq] at hs
    all_goals try simp only [parts, List.forall_mem_cons, List.forall_mem_append] at ih
    · simp [sameAs, hs]
    · rw [sameAs, Number.beq_comm, hs]
    · simp [sameAs, hs]
    · simp [sameAs, hs]
    · rw [sameAs, sameItems_symm ih hs]
    · simp [sameAs, hs]
    · simp [sameAs, hs]
    · rw [sameAs, ih.1 hs]
    · simp [sameAs, hs.1.1, ih.1 hs.1.2, ih.2.1 hs.2]
    · simp [sameAs, hs.1, ih.1 hs.2]
    · simp [sameAs, sameOption_symm ih.1 hs.1.1, ih.2.1 hs.1.2, hs.2]
    · rw [sameAs, sameItems_symm ih hs]
    · simp [sameAs, hs.1, ih.1 hs.2]
    · simp [sameAs, hs.1.1, hs.1.2, ih.1 hs.2]
    · simp [sameAs, hs]
    · rw [sameAs, ih.1 hs]
    · simp [sameAs, ih.1 hs.1.1, sameItems_symm ih.2.1 hs.1.2, sameItems_symm ih.2.2 hs.2]
    · simp [sameAs, ih.1 hs.1, sameItems_symm ih.2 hs.2]
    · simp [sameAs, sameItems_symm ih.2 hs.1, ih.1 hs.2]
    · simp [sameAs, hs.1.1.1, hs.1.1.2, sameItems_symm ih hs.1.2, hs.2]
    · simp [sameAs, hs.1.1, hs.1.2, sameItems_symm ih hs.2]
    · cases hs

/-- Trees without floats are the same only if they are equal. -/
theorem eq_of_sameAs (h : a.Floats fun _ => False) (hs : a.sameAs b = true) : a = b := by
  induction h generalizing b with
  | @intro n hp _ ih =>
    unfold sameAs at hs
    split at hs
    all_goals try simp only [Bool.and_eq_true, beq_iff_eq] at hs
    all_goals try simp only [parts, List.forall_mem_cons, List.forall_mem_append] at ih
    · rw [hs]
    · exact hp.elim
    · rw [hs]
    · rw [hs]
    · rw [eq_of_sameItems ih hs]
    · rw [hs]
    · rw [hs.1, hs.2]
    · rw [ih.1 hs]
    · rw [hs.1.1, ih.1 hs.1.2, ih.2.1 hs.2]
    · rw [hs.1, ih.1 hs.2]
    · rw [eq_of_sameOption ih.1 hs.1.1, ih.2.1 hs.1.2, hs.2]
    · rw [eq_of_sameItems ih hs]
    · rw [hs.1, ih.1 hs.2]
    · rw [hs.1.1, hs.1.2, ih.1 hs.2]
    · rw [hs.1, hs.2]
    · rw [ih.1 hs]
    · rw [ih.1 hs.1.1, eq_of_sameItems ih.2.1 hs.1.2, eq_of_sameItems ih.2.2 hs.2]
    · rw [ih.1 hs.1, eq_of_sameItems ih.2 hs.2]
    · rw [eq_of_sameItems ih.2 hs.1, ih.1 hs.2]
    · rw [hs.1.1.1, hs.1.1.2, eq_of_sameItems ih hs.1.2, hs.2]
    · rw [hs.1.1, hs.1.2, eq_of_sameItems ih hs.2]
    · cases hs

end Node

/-! ## Functions -/

namespace Function

variable {f g : Function}

theorem sameAs_self (h : ∀ n ∈ f.body, n.Floats fun x => x.isNaN = false) :
    f.sameAs f = true := by
  simp [sameAs, Node.sameItems_self fun n hn => Node.sameAs_self (h n hn)]

theorem sameAs_symm (h : ∀ n ∈ f.body, n.Floats fun x => x.isNaN = false)
    (hs : f.sameAs g = true) : g.sameAs f = true := by
  simp only [sameAs, Bool.and_eq_true, beq_iff_eq] at hs ⊢
  obtain ⟨⟨⟨hname, hparams⟩, hbody⟩, htier⟩ := hs
  have hbody' := Node.sameItems_symm (fun n hn _ hm => Node.sameAs_symm (h n hn) hm) hbody
  exact ⟨⟨⟨hname.symm, hparams.symm⟩, hbody'⟩, htier.symm⟩

theorem eq_of_sameAs (h : ∀ n ∈ f.body, n.Floats fun _ => False) (hs : f.sameAs g = true) :
    f = g := by
  obtain ⟨name, params, body, tier⟩ := f
  obtain ⟨name', params', body', tier'⟩ := g
  simp only [sameAs, Bool.and_eq_true, beq_iff_eq] at hs
  obtain ⟨⟨⟨rfl, rfl⟩, hbody⟩, rfl⟩ := hs
  have hsame : body = body' :=
    Node.eq_of_sameItems (fun n hn _ hm => Node.eq_of_sameAs (h n hn) hm) hbody
  rw [hsame]

end Function

end DiceScript
