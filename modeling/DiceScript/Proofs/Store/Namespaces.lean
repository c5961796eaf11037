import DiceScript.Store.Basic

/-!
# What the store operations do to namespaces

A store is read through `bindings?`: one set of bindings per namespace. `put` and `drop` are told by
what they do to this view: they change the namespace they are given and no other. The nesting of the
personal tier and the pruning of empty entries are dealt with here once, and nowhere else.

- `bindings?_put`, `bindings?_drop_of_ne` — one namespace changes, the others stay.
- `get?_put`, `get?_drop` — the same told name by name.
-/

namespace DiceScript

/-! ## What maps bind -/

namespace Dict

variable {α : Type}

theorem get?_of_isEmpty {d : Dict α} (h : d.isEmpty = true) (k : String) : d.get? k = none := by
  obtain ⟨entries, sorted⟩ := d
  have hnil : entries = [] := List.isEmpty_iff.mp h
  subst hnil
  rfl

/-- A name is listed exactly when it is bound. -/
theorem mem_keys_iff {d : Dict α} {k : String} : k ∈ d.keys ↔ (d.get? k).isSome = true := by
  obtain ⟨entries, sorted⟩ := d
  show k ∈ entries.map (·.1) ↔ (entries.lookup k).isSome = true
  clear sorted
  induction entries with
  | nil => simp
  | cons e rest ih =>
    obtain ⟨k', v⟩ := e
    rw [List.map_cons, List.mem_cons, ih, Assoc.lookup_cons_ite]
    by_cases h : k = k' <;> simp [h]

/-- Since names stand in order, a binding is found whatever stands in front of it. -/
theorem get?_of_mem {d : Dict α} {k : String} {v : α} (h : (k, v) ∈ d.entries) :
    d.get? k = some v := by
  obtain ⟨entries, sorted⟩ := d
  show entries.lookup k = some v
  induction entries with
  | nil => cases h
  | cons e rest ih =>
    obtain ⟨hfirst, hrest⟩ := List.pairwise_cons.mp sorted
    rw [Assoc.lookup_cons_ite]
    rcases List.mem_cons.mp h with rfl | hmem
    · rw [if_pos rfl]
    · have hne : k ≠ e.1 := fun hk => String.lt_irrefl k (hk ▸ hfirst (k, v) hmem)
      rw [if_neg hne]
      exact ih hrest hmem

/-- Adding bindings binds nothing else. -/
theorem mem_of_get?_insertMany {l : List (String × α)} {d : Dict α} {k : String} {v : α}
    (h : (d.insertMany l).get? k = some v) : (k, v) ∈ l ∨ d.get? k = some v := by
  induction l generalizing d with
  | nil => exact Or.inr h
  | cons e rest ih =>
    obtain ⟨k', v'⟩ := e
    rcases ih h with hmem | hget
    · exact Or.inl (List.mem_cons_of_mem _ hmem)
    · rw [Dict.get?_insert] at hget
      split at hget
      · rename_i hk
        subst hk
        obtain rfl := Option.some.inj hget
        exact Or.inl List.mem_cons_self
      · exact Or.inr hget

theorem mem_of_get?_ofList {l : List (String × α)} {k : String} {v : α}
    (h : (ofList l).get? k = some v) : (k, v) ∈ l := by
  rcases mem_of_get?_insertMany h with hmem | hget
  · exact hmem
  · cases hget

end Dict

namespace Store

/-! ## Writing -/

/-- A write is refused in the core tier only. -/
theorem put_isOk (s : Store) {ns : Namespace} (h : ns ≠ .core) (name : String) (v : Value) :
    ∃ s', s.put ns name v = .ok s' := by
  cases ns with
  | core => exact absurd rfl h
  | global => exact ⟨_, rfl⟩
  | shared server => exact ⟨_, rfl⟩
  | personal server user => exact ⟨_, rfl⟩

/-- A write adds the name to the namespace it is given, and no other namespace changes. -/
theorem bindings?_put {s s' : Store} {ns : Namespace} {name : String} {v : Value}
    (h : s.put ns name v = .ok s') (ns' : Namespace) :
    s'.bindings? ns' =
      if ns' = ns then some (((s.bindings? ns).getD {}).insert name v) else s.bindings? ns' := by
  cases ns with
  | core => cases h
  | global =>
    obtain rfl := Except.ok.inj h
    cases ns' <;> simp [bindings?]
  | shared server =>
    obtain rfl := Except.ok.inj h
    cases ns' with
    | shared server' => by_cases hs : server' = server <;> simp [bindings?, hs]
    | _ => simp [bindings?]
  | personal server user =>
    obtain rfl := Except.ok.inj h
    cases ns' with
    | personal server' user' =>
      by_cases hs : server' = server
      · subst hs
        -- A server without an entry is as good as one with no users.
        cases hu : s.personal.get? server' with
        | none => by_cases hv : user' = user <;> simp [bindings?, Dict.get?_empty, hv, hu]
        | some users => by_cases hv : user' = user <;> simp [bindings?, hv, hu]
      · simp [bindings?, hs]
    | _ => simp [bindings?]

theorem get?_put {s s' : Store} {ns : Namespace} {name : String} {v : Value}
    (h : s.put ns name v = .ok s') (ns' : Namespace) (name' : String) :
    s'.get? ns' name' = if ns' = ns ∧ name' = name then some v else s.get? ns' name' := by
  rw [get?, bindings?_put h]
  by_cases hns : ns' = ns
  · subst hns
    cases hb : s.bindings? ns' with
    | none => by_cases hn : name' = name <;> simp [get?, Dict.get?_empty, hb, hn]
    | some b => by_cases hn : name' = name <;> simp [get?, hb, hn]
  · simp [get?, hns]

/-! ## Removing -/

theorem get?_prune {α : Type} (d : Dict (Dict α)) (key : String) (rest : Dict α) (key' : String) :
    (prune d key rest).get? key' =
      if key' = key then (if rest.isEmpty then none else some rest) else d.get? key' := by
  unfold prune
  split
  · simp
  · simp

/-- An entry that is gone and an entry without names bind the same: nothing. -/
theorem bind_get?_prune {α : Type} (rest : Dict α) (k : String) :
    (if rest.isEmpty then none else some rest).bind (·.get? k) = rest.get? k := by
  split
  · rename_i h
    rw [Dict.get?_of_isEmpty h]
    rfl
  · rfl

/-- A removal is refused in the core tier only. -/
theorem drop_isOk (s : Store) {ns : Namespace} (h : ns ≠ .core) (name : String) :
    ∃ s', s.drop ns name = .ok (s.get ns name, s') := by
  cases ns with
  | core => exact absurd rfl h
  | global => exact ⟨_, rfl⟩
  | shared server =>
    cases hs : s.shared.get? server with
    | none => exact ⟨s, by simp [drop, hs, get, get?, bindings?]⟩
    | some old => exact ⟨_, by simp [drop, hs]; rfl⟩
  | personal server user =>
    cases hs : s.personal.get? server with
    | none => exact ⟨s, by simp [drop, hs, get, get?, bindings?]⟩
    | some users => exact ⟨_, by simp [drop, hs]; rfl⟩

/-- What a removal from the shared tier leaves: everything as it was when the server has no entry,
else the entry without the name. -/
theorem drop_shared_cases {s s' : Store} {server name : String} {v : Value}
    (h : s.drop (.shared server) name = .ok (v, s')) :
    (s.shared.get? server = none ∧ s' = s) ∨
      ∃ old, s.shared.get? server = some old ∧
        s' = { s with shared := prune s.shared server (old.erase name) } := by
  simp only [drop] at h
  split at h
  · rename_i hs
    exact .inl ⟨hs, (Prod.mk.inj (Except.ok.inj h)).2.symm⟩
  · rename_i old hs
    exact .inr ⟨old, hs, (Prod.mk.inj (Except.ok.inj h)).2.symm⟩

/-- The users of a server after one of them has lost a name. -/
def usersWithout (users : Dict Bindings) (user name : String) : Dict Bindings :=
  match users.get? user with
  | none => users
  | some old => prune users user (old.erase name)

/-- What a removal from the personal tier leaves. -/
theorem drop_personal_cases {s s' : Store} {server user name : String} {v : Value}
    (h : s.drop (.personal server user) name = .ok (v, s')) :
    (s.personal.get? server = none ∧ s' = s) ∨
      ∃ users, s.personal.get? server = some users ∧
        s' = { s with personal := prune s.personal server (usersWithout users user name) } := by
  simp only [drop] at h
  split at h
  · rename_i hs
    exact .inl ⟨hs, (Prod.mk.inj (Except.ok.inj h)).2.symm⟩
  · rename_i users hs
    exact .inr ⟨users, hs, (Prod.mk.inj (Except.ok.inj h)).2.symm⟩

theorem get?_usersWithout_of_ne (users : Dict Bindings) {user user' : String} (name : String)
    (h : user' ≠ user) : (usersWithout users user name).get? user' = users.get? user' := by
  unfold usersWithout
  split
  · rfl
  · rw [get?_prune, if_neg h]

theorem bind_get?_usersWithout (users : Dict Bindings) (user name name' : String) :
    ((usersWithout users user name).get? user).bind (·.get? name') =
      if name' = name then none else (users.get? user).bind (·.get? name') := by
  unfold usersWithout
  split
  · rename_i hu
    simp [hu]
  · rename_i old hu
    rw [get?_prune, if_pos rfl, bind_get?_prune, hu, Dict.get?_erase]
    rfl

/-- A removal changes no other namespace than the one it is given. -/
theorem bindings?_drop_of_ne {s s' : Store} {ns : Namespace} {name : String} {v : Value}
    (h : s.drop ns name = .ok (v, s')) {ns' : Namespace} (hne : ns' ≠ ns) :
    s'.bindings? ns' = s.bindings? ns' := by
  cases ns with
  | core => cases h
  | global =>
    obtain ⟨-, rfl⟩ := Prod.mk.inj (Except.ok.inj h)
    cases ns' with
    | global => exact absurd rfl hne
    | _ => rfl
  | shared server =>
    obtain ⟨-, rfl⟩ | ⟨old, -, rfl⟩ := drop_shared_cases h
    · rfl
    · cases ns' with
      | shared server' =>
        have hs : server' ≠ server := fun e => hne (e ▸ rfl)
        simp [bindings?, get?_prune, hs]
      | _ => rfl
  | personal server user =>
    obtain ⟨-, rfl⟩ | ⟨users, hu, rfl⟩ := drop_personal_cases h
    · rfl
    · cases ns' with
      | personal server' user' =>
        by_cases hs : server' = server
        · subst hs
          have hv : user' ≠ user := fun e => hne (e ▸ rfl)
          simp only [bindings?, get?_prune, if_true, bind_get?_prune, hu, Option.bind_some]
          exact get?_usersWithout_of_ne users name hv
        · simp [bindings?, get?_prune, hs]
      | _ => rfl

theorem get?_drop {s s' : Store} {ns : Namespace} {name : String} {v : Value}
    (h : s.drop ns name = .ok (v, s')) (ns' : Namespace) (name' : String) :
    s'.get? ns' name' = if ns' = ns ∧ name' = name then none else s.get? ns' name' := by
  by_cases hns : ns' = ns
  · subst hns
    cases ns' with
    | core => cases h
    | global =>
      obtain ⟨-, rfl⟩ := Prod.mk.inj (Except.ok.inj h)
      simp [get?, bindings?]
    | shared server =>
      obtain ⟨hs, rfl⟩ | ⟨old, hs, rfl⟩ := drop_shared_cases h
      · simp [get?, bindings?, hs]
      · simp [get?, bindings?, get?_prune, bind_get?_prune, hs]
    | personal server user =>
      obtain ⟨hs, rfl⟩ | ⟨users, hs, rfl⟩ := drop_personal_cases h
      · simp [get?, bindings?, hs]
      · simp only [get?, bindings?, get?_prune, if_true, bind_get?_prune, hs, Option.bind_some,
          true_and]
        exact bind_get?_usersWithout users user name name'
  · rw [get?, bindings?_drop_of_ne h hns]
    simp [get?, hns]

/-- A removal yields what the name was bound to. -/
theorem drop_fst {s s' : Store} {ns : Namespace} {name : String} {v : Value}
    (h : s.drop ns name = .ok (v, s')) : v = s.get ns name := by
  by_cases hc : ns = .core
  · subst hc
    cases h
  · obtain ⟨t, ht⟩ := s.drop_isOk hc name
    rw [ht] at h
    exact (Prod.mk.inj (Except.ok.inj h)).1.symm

/-! ## Listing -/

/-- A name is listed in a namespace exactly when it is bound there. -/
theorem mem_keys_iff {s : Store} {ns : Namespace} {name : String} :
    name ∈ s.keys ns ↔ (s.get? ns name).isSome = true := by
  unfold keys get?
  cases s.bindings? ns with
  | none => simp
  | some b => simpa using Dict.mem_keys_iff

end Store

end DiceScript
