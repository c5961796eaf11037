import DiceScript.Proofs.Store.Namespaces

/-!
# Entries that bind nothing

The shared and the personal tier are maps of maps, so the entry of a server or of a user can be there
and bind nothing. Reading does not tell such an entry from one that is missing, but an image does.
Besides what a store binds, its hollow entries are all there is to know about it.

- `Store.Slot` — the places of entries, `Store.Hollow` — which of them are hollow.
- `ChangesAt` — what a write or a removal does to the entries of a store.
- `ChangesAt.hollow` — it fills or removes those on the way to its namespace, and leaves no new ones
  hollow.
- `ext_hollow` — a store is determined by what it binds and by its hollow entries.
-/

namespace DiceScript

namespace Dict

variable {α : Type}

theorem isEmpty_iff {d : Dict α} : d.isEmpty = true ↔ ∀ k, d.get? k = none := by
  constructor
  · exact get?_of_isEmpty
  · intro h
    have hd : d = empty := ext_get? h
    rw [hd]
    rfl

@[simp] theorem isEmpty_insert (d : Dict α) (k : String) (v : α) :
    (d.insert k v).isEmpty = false := by
  rw [Bool.eq_false_iff]
  intro h
  have hk := isEmpty_iff.mp h k
  simp at hk

/-- Two entries, each of which may be missing, are the same when they bind the same and either both
or none of them are there for nothing. -/
theorem eq_of_bind_get? {o p : Option (Dict α)}
    (hget : ∀ k, o.bind (·.get? k) = p.bind (·.get? k))
    (hempty : (∃ d, o = some d ∧ d.isEmpty = true) ↔ ∃ d, p = some d ∧ d.isEmpty = true) :
    o = p := by
  cases o with
  | none =>
    cases p with
    | none => rfl
    | some e =>
      have he : e.isEmpty = true := isEmpty_iff.mpr fun k => (hget k).symm
      obtain ⟨d, hd, -⟩ := hempty.mpr ⟨e, rfl, he⟩
      cases hd
  | some d =>
    cases p with
    | none =>
      have hd : d.isEmpty = true := isEmpty_iff.mpr hget
      obtain ⟨e, he, -⟩ := hempty.mp ⟨d, rfl, hd⟩
      cases he
    | some e => rw [ext_get? hget]

end Dict

namespace Store

/-- The places of entries in the tiers that are maps of maps. -/
inductive Slot where
  | shared (server : String)
  /-- The entry of a server in the personal tier, which holds the entries of its users. -/
  | users (server : String)
  | personal (server user : String)

/-- The entry at a place is there and binds nothing. -/
def Hollow (s : Store) : Slot → Prop
  | .shared server => ∃ b, s.bindings? (.shared server) = some b ∧ b.isEmpty = true
  | .users server => ∃ users, s.personal.get? server = some users ∧ users.isEmpty = true
  | .personal server user =>
    ∃ b, s.bindings? (.personal server user) = some b ∧ b.isEmpty = true

/-- The places on the way to a namespace. -/
def Slot.LeadsTo (ns : Namespace) : Slot → Prop
  | .shared server => ns = .shared server
  | .users server => ∃ user, ns = .personal server user
  | .personal server user => ns = .personal server user

/-! ## What an operation leaves -/

/-- What is left of an entry after a removal is not empty, or it is not left. -/
theorem isEmpty_of_get?_prune {α : Type} {d : Dict (Dict α)} {key : String} {rest e : Dict α}
    (h : (prune d key rest).get? key = some e) : e.isEmpty = false := by
  rw [get?_prune, if_pos rfl] at h
  split at h
  · cases h
  · rename_i hrest
    obtain rfl := Option.some.inj h
    exact Bool.eq_false_iff.mpr hrest

/-- How an operation on a namespace turns one store into another, as far as entries go: those on the
way to the namespace are not left empty, all others stay as they are. The global tier is always
there, with or without names. -/
structure ChangesAt (ns : Namespace) (s s' : Store) : Prop where
  others : ∀ {ns'}, ns' ≠ ns → s'.bindings? ns' = s.bindings? ns'
  otherServers : ∀ {server}, (∀ user, ns ≠ .personal server user) →
    s'.personal.get? server = s.personal.get? server
  own : ns ≠ .global → ∀ {b}, s'.bindings? ns = some b → b.isEmpty = false
  ownServer : ∀ {server user users}, ns = .personal server user →
    s'.personal.get? server = some users → users.isEmpty = false

theorem changesAt_put {s s' : Store} {ns : Namespace} {name : String} {v : Value}
    (h : s.put ns name v = .ok s') : ChangesAt ns s s' where
  others hne := by rw [bindings?_put h, if_neg hne]
  otherServers {server} hne := by
    cases ns with
    | core => cases h
    | global =>
      obtain rfl := Except.ok.inj h
      rfl
    | shared other =>
      obtain rfl := Except.ok.inj h
      rfl
    | personal other user =>
      obtain rfl := Except.ok.inj h
      have hs : server ≠ other := fun e => hne user (e ▸ rfl)
      simp [hs]
  own _ b hb := by
    rw [bindings?_put h, if_pos rfl] at hb
    obtain rfl := Option.some.inj hb
    exact Dict.isEmpty_insert ..
  ownServer hns hu := by
    subst hns
    obtain rfl := Except.ok.inj h
    simp only [Dict.get?_insert, if_true] at hu
    obtain rfl := Option.some.inj hu
    exact Dict.isEmpty_insert ..

theorem changesAt_drop {s s' : Store} {ns : Namespace} {name : String} {v : Value}
    (h : s.drop ns name = .ok (v, s')) : ChangesAt ns s s' where
  others hne := bindings?_drop_of_ne h hne
  otherServers {server} hne := by
    cases ns with
    | core => cases h
    | global =>
      obtain ⟨-, rfl⟩ := Prod.mk.inj (Except.ok.inj h)
      rfl
    | shared other =>
      obtain ⟨-, rfl⟩ | ⟨old, -, rfl⟩ := drop_shared_cases h
      · rfl
      · rfl
    | personal other user =>
      obtain ⟨-, rfl⟩ | ⟨users, -, rfl⟩ := drop_personal_cases h
      · rfl
      · have hs : server ≠ other := fun e => hne user (e ▸ rfl)
        rw [get?_prune, if_neg hs]
  own hns b hb := by
    cases ns with
    | core => cases h
    | global => exact absurd rfl hns
    | shared server =>
      obtain ⟨hs, rfl⟩ | ⟨old, -, rfl⟩ := drop_shared_cases h
      · rw [bindings?, hs] at hb
        cases hb
      · exact isEmpty_of_get?_prune hb
    | personal server user =>
      obtain ⟨hs, rfl⟩ | ⟨users, -, rfl⟩ := drop_personal_cases h
      · rw [bindings?, hs] at hb
        cases hb
      · simp only [bindings?, get?_prune, if_true, bind_get?_prune] at hb
        unfold usersWithout at hb
        split at hb
        · rename_i hu
          rw [hu] at hb
          cases hb
        · exact isEmpty_of_get?_prune hb
  ownServer hns hu := by
    subst hns
    obtain ⟨hs, rfl⟩ | ⟨old, -, rfl⟩ := drop_personal_cases h
    · rw [hs] at hu
      cases hu
    · exact isEmpty_of_get?_prune hu

/-- The hollow entries after an operation are those before it that are not on the way to its
namespace. -/
theorem ChangesAt.hollow {ns : Namespace} {s s' : Store} (h : ChangesAt ns s s') (slot : Slot) :
    s'.Hollow slot ↔ s.Hollow slot ∧ ¬ slot.LeadsTo ns := by
  by_cases hl : slot.LeadsTo ns
  · -- On the way nothing is left empty.
    have hnot : ¬ s'.Hollow slot := by
      cases slot with
      | shared server =>
        rintro ⟨b, hb, he⟩
        obtain rfl := hl
        exact absurd he (by simp [h.own (by simp) hb])
      | users server =>
        rintro ⟨users, hu, he⟩
        obtain ⟨user, rfl⟩ := hl
        exact absurd he (by simp [h.ownServer rfl hu])
      | personal server user =>
        rintro ⟨b, hb, he⟩
        obtain rfl := hl
        exact absurd he (by simp [h.own (by simp) hb])
    exact ⟨fun hs => absurd hs hnot, fun hs => absurd hl hs.2⟩
  · have hsame : s'.Hollow slot ↔ s.Hollow slot := by
      cases slot with
      | shared server => rw [Hollow, Hollow, h.others (Ne.symm hl)]
      | users server => rw [Hollow, Hollow, h.otherServers fun user hu => hl ⟨user, hu⟩]
      | personal server user => rw [Hollow, Hollow, h.others (Ne.symm hl)]
    exact hsame.trans ⟨fun hs => ⟨hs, hl⟩, And.left⟩

/-! ## All there is to know about a store -/

/-- Two stores that bind the same and have the same hollow entries are equal. -/
theorem ext_hollow {s t : Store} (hget : ∀ ns name, s.get? ns name = t.get? ns name)
    (hollow : ∀ slot, s.Hollow slot ↔ t.Hollow slot) : s = t := by
  have hcore : s.core = t.core := Dict.ext_get? (hget .core)
  have hglobal : s.global = t.global := Dict.ext_get? (hget .global)
  have hshared : s.shared = t.shared := Dict.ext_get? fun server =>
    Dict.eq_of_bind_get? (hget (.shared server)) (hollow (.shared server))
  have hpersonal : s.personal = t.personal := Dict.ext_get? fun server =>
    Dict.eq_of_bind_get?
      (fun user => Dict.eq_of_bind_get? (hget (.personal server user))
        (hollow (.personal server user)))
      (hollow (.users server))
  obtain ⟨core, global, shared, personal⟩ := s
  subst hcore hglobal hshared hpersonal
  rfl

end Store

end DiceScript
