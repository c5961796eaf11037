import DiceScript.Medium
import DiceScript.Proofs.Session
import DiceScript.Proofs.Store.Hollow
import Mathlib.Data.Finmap
import Mathlib.Data.Finset.Sort
import Mathlib.Data.String.Basic

/-!
# A store as one finite map

Three nestings of maps make up a store, and its users see one finite map from a namespace and a name
to a value. `Store.flat` is that map. What the store answers to a request, and what it is afterwards,
is what the plain operations on finite maps give: `FlatMap.handle` says so without any nesting.

- `Store.flat` — the finite map, `lookup_flat` — read as the store is read.
- `Store.handle`, `FlatMap.handle` — requests, answered by a store and by a finite map.
- `Store.Made` — the stores that requests and runs make of the empty one.
- `store_refines_flat_map` — the two answer alike, and a store that was made is determined by its map.
-/

namespace DiceScript

namespace Dict

variable {α : Type}

theorem mem_entries_iff {d : Dict α} {k : String} {v : α} :
    (k, v) ∈ d.entries ↔ d.get? k = some v := by
  constructor
  · exact get?_of_mem
  · intro h
    have hfind : d.entries.lookup k = some v := h
    generalize d.entries = entries at hfind
    induction entries with
    | nil => cases hfind
    | cons e rest ih =>
      obtain ⟨k', v'⟩ := e
      rw [Assoc.lookup_cons_ite] at hfind
      split at hfind
      · rename_i hk
        obtain rfl := Option.some.inj hfind
        exact hk ▸ List.mem_cons_self
      · exact List.mem_cons_of_mem _ (ih hfind)

theorem nodup_keys (d : Dict α) : d.keys.Nodup :=
  List.Pairwise.map _ (fun _ _ h => (ne_of_lt h)) d.sorted

theorem keys_sorted (d : Dict α) : d.keys.Pairwise (· ≤ ·) :=
  List.Pairwise.map _ (fun _ _ h => le_of_lt h) d.sorted

/-- Where values count as many things as they list, their total counts the things in all lists. -/
theorem total_eq_length {β : Type} {count : α → Nat} {items : α → List β}
    (h : ∀ v, count v = (items v).length) (d : Dict α) :
    d.total count = (d.entries.flatMap fun e => items e.2).length := by
  unfold total values
  induction d.entries with
  | nil => rfl
  | cons e rest ih =>
    rw [List.map_cons, List.foldr_cons, ih, h, List.flatMap_cons, List.length_append]

end Dict

abbrev FlatMap := Finmap fun _ : Namespace × String => Value

namespace Store

/-! ## The bindings of all namespaces -/

def spaces (s : Store) : List (Namespace × Bindings) :=
  (.core, s.core) :: (.global, s.global) ::
    (s.shared.entries.map (fun e => (.shared e.1, e.2)) ++
      s.personal.entries.flatMap fun e => e.2.entries.map fun u => (.personal e.1 u.1, u.2))

theorem mem_spaces {s : Store} {ns : Namespace} {b : Bindings} :
    (ns, b) ∈ s.spaces ↔ s.bindings? ns = some b := by
  cases ns with
  | core => simp [spaces, bindings?, eq_comm]
  | global => simp [spaces, bindings?, eq_comm]
  | shared server => simp [spaces, bindings?, Dict.mem_entries_iff]
  | personal server user =>
    simp [spaces, bindings?, Dict.mem_entries_iff, Option.bind_eq_some_iff]

theorem nodup_spaces (s : Store) : (s.spaces.map Prod.fst).Nodup := by
  have hshared : (s.shared.entries.map fun e => Namespace.shared e.1).Nodup :=
    List.Pairwise.map _ (fun _ _ h he => ne_of_lt h (Namespace.shared.inj he)) s.shared.sorted
  have husers : ∀ e ∈ s.personal.entries,
      (e.2.entries.map fun u => Namespace.personal e.1 u.1).Nodup := fun e _ =>
    List.Pairwise.map _ (fun _ _ h he => ne_of_lt h (Namespace.personal.inj he).2) e.2.sorted
  have hpersonal : (s.personal.entries.flatMap fun e =>
      e.2.entries.map fun u => Namespace.personal e.1 u.1).Nodup := by
    refine List.nodup_flatMap.mpr ⟨husers, s.personal.sorted.imp ?_⟩
    intro e e' hlt ns hns hns'
    obtain ⟨u, -, rfl⟩ := List.mem_map.mp hns
    obtain ⟨u', -, he⟩ := List.mem_map.mp hns'
    exact ne_of_lt hlt (Namespace.personal.inj he).1.symm
  have hmap : s.spaces.map Prod.fst = .core :: .global ::
      ((s.shared.entries.map fun e => Namespace.shared e.1) ++
        s.personal.entries.flatMap fun e => e.2.entries.map fun u => Namespace.personal e.1 u.1) := by
    simp [spaces, List.map_flatMap, Function.comp_def]
  have happend := List.nodup_append.mpr ⟨hshared, hpersonal, ?_⟩
  · rw [hmap]
    simpa using happend
  · intro ns hns ns' hns'
    obtain ⟨e, -, rfl⟩ := List.mem_map.mp hns
    obtain ⟨e', -, hu⟩ := List.mem_flatMap.mp hns'
    obtain ⟨u, -, rfl⟩ := List.mem_map.mp hu
    exact Namespace.noConfusion

def bound (s : Store) : List (Σ _ : Namespace × String, Value) :=
  s.spaces.flatMap fun p => p.2.entries.map fun e => ⟨(p.1, e.1), e.2⟩

theorem mem_bound {s : Store} {ns : Namespace} {name : String} {v : Value} :
    (⟨(ns, name), v⟩ : Σ _ : Namespace × String, Value) ∈ s.bound ↔ s.get? ns name = some v := by
  simp only [bound, List.mem_flatMap, List.mem_map, get?, Option.bind_eq_some_iff]
  constructor
  · rintro ⟨⟨ns', b⟩, hspace, ⟨name', v'⟩, hentry, heq⟩
    obtain ⟨⟨rfl, rfl⟩, rfl⟩ := heq
    exact ⟨b, mem_spaces.mp hspace, Dict.mem_entries_iff.mp hentry⟩
  · rintro ⟨b, hspace, hentry⟩
    exact ⟨(ns, b), mem_spaces.mpr hspace, (name, v), Dict.mem_entries_iff.mpr hentry, rfl⟩

theorem nodupKeys_bound (s : Store) : s.bound.NodupKeys := by
  have hkeys : s.bound.keys = s.spaces.flatMap fun p => p.2.keys.map fun name => (p.1, name) := by
    simp [bound, List.keys, Dict.keys, List.map_flatMap, Function.comp_def]
  rw [List.NodupKeys, hkeys]
  refine List.nodup_flatMap.mpr ⟨fun p _ => ?_, ?_⟩
  · exact p.2.nodup_keys.map fun _ _ h => (Prod.mk.inj h).2
  · -- Different namespaces have no binding in common.
    refine (List.pairwise_map.mp s.nodup_spaces).imp ?_
    intro p q hne x hp hq
    obtain ⟨_, -, rfl⟩ := List.mem_map.mp hp
    obtain ⟨_, -, hx⟩ := List.mem_map.mp hq
    exact hne (Prod.mk.inj hx).1.symm

/-- The finite map that a store stands for. -/
def flat (s : Store) : FlatMap := ⟨s.bound, s.nodupKeys_bound⟩

@[simp] theorem lookup_flat (s : Store) (ns : Namespace) (name : String) :
    s.flat.lookup (ns, name) = s.get? ns name := by
  ext v
  rw [Finmap.lookup_eq_some_iff]
  exact mem_bound

theorem flat_eq_iff {s t : Store} :
    s.flat = t.flat ↔ ∀ ns name, s.get? ns name = t.get? ns name := by
  constructor
  · intro h ns name
    rw [← lookup_flat, h, lookup_flat]
  · intro h
    refine Finmap.ext_lookup fun ⟨ns, name⟩ => ?_
    rw [lookup_flat, lookup_flat, h]

/-- The number of bindings is the number of keys of the finite map. -/
theorem entryCount_eq (s : Store) : s.entryCount = s.flat.keys.card := by
  have hbound : s.flat.keys.card = s.bound.length := by
    show Multiset.card (s.flat.entries.map Sigma.fst) = _
    rw [Multiset.card_map]
    rfl
  have hspaces : s.bound.length = (s.spaces.flatMap (·.2.entries)).length := by
    simp [bound, List.length_flatMap]
  have hshared := s.shared.total_eq_length fun b => (rfl : b.size = b.entries.length)
  have hpersonal := s.personal.total_eq_length fun users =>
    users.total_eq_length fun b => (rfl : b.size = b.entries.length)
  rw [hbound, hspaces, entryCount, hshared, hpersonal]
  simp [spaces, Dict.size, List.flatMap_append, List.flatMap_map, List.flatMap_assoc,
    List.length_append, Nat.add_assoc]

/-! ## Requests -/

inductive Request where
  | get (ns : Namespace) (name : String)
  | put (ns : Namespace) (name : String) (v : Value)
  | drop (ns : Namespace) (name : String)
  | keys (ns : Namespace)
  | installCore (name : String) (v : Value)
  | replaceCore (library : Bindings)
  | restore (image : Image)

inductive Answer where
  | value (v : Value)
  | names (names : List String)
  | done
  | refused (failure : Failure)

/-- Answers a request. What is refused leaves the store as it is. -/
def handle (s : Store) : Request → Answer × Store
  | .get ns name => (.value (s.get ns name), s)
  | .put ns name v =>
    match s.put ns name v with
    | .ok s' => (.done, s')
    | .error cause => (.refused (cause.failure []), s)
  | .drop ns name =>
    match s.drop ns name with
    | .ok (v, s') => (.value v, s')
    | .error cause => (.refused (cause.failure []), s)
  | .keys ns => (.names (s.keys ns), s)
  | .installCore name v => (.done, s.installCore name v)
  | .replaceCore library => (.done, s.replaceCore library)
  | .restore image =>
    match image.restore with
    | .ok s' => (.done, s')
    | .error fault => (.refused fault.failure, s)

end Store

namespace FlatMap

open Store (Request Answer)

def domain (m : FlatMap) (ns : Namespace) : Finset String :=
  (m.keys.filter (·.1 = ns)).image (·.2)

def outside (m : FlatMap) (ns : Namespace) : FlatMap :=
  ⟨m.entries.filter (·.1.1 ≠ ns), Multiset.nodup_keys.mp <|
    Multiset.nodup_of_le (Multiset.map_le_map (Multiset.filter_le _ _))
      (Multiset.nodup_keys.mpr m.nodupKeys)⟩

def readOnly (name : String) : Failure :=
  { kind := .privilegeError
    message := "Cannot modify " ++ ("\"" ++ name ++ "\"") ++ ": the core tier is read-only." }

def unsupported (schema : String) : Failure :=
  { kind := .storageError, message := "Unsupported store schema \"" ++ schema ++ "\"." }

/-- What a finite map has to answer to a request, and what it becomes. -/
def handle (m : FlatMap) : Request → Answer × FlatMap
  | .get ns name => (.value ((m.lookup (ns, name)).getD .undefined), m)
  | .put ns name v =>
    if ns = .core then (.refused (readOnly name), m) else (.done, m.insert (ns, name) v)
  | .drop ns name =>
    if ns = .core then (.refused (readOnly name), m)
    else (.value ((m.lookup (ns, name)).getD .undefined), m.erase (ns, name))
  | .keys ns => (.names (m.domain ns).sort, m)
  | .installCore name v => (.done, m.insert (.core, name) v)
  | .replaceCore library => (.done, ({ core := library } : Store).flat ∪ m.outside .core)
  | .restore image =>
    if image.schema = Image.currentSchema then (.done, image.store.flat)
    else (.refused (unsupported image.schema), m)

theorem lookup_insert_ite (m : FlatMap) (ns ns' : Namespace) (name name' : String) (v : Value) :
    (m.insert (ns, name) v).lookup (ns', name') =
      if ns' = ns ∧ name' = name then some v else m.lookup (ns', name') := by
  split
  · rename_i h
    obtain ⟨rfl, rfl⟩ := h
    exact Finmap.lookup_insert m
  · rename_i h
    exact Finmap.lookup_insert_of_ne m fun he => h (Prod.mk.inj he)

theorem lookup_erase_ite (m : FlatMap) (ns ns' : Namespace) (name name' : String) :
    (m.erase (ns, name)).lookup (ns', name') =
      if ns' = ns ∧ name' = name then none else m.lookup (ns', name') := by
  split
  · rename_i h
    obtain ⟨rfl, rfl⟩ := h
    exact Finmap.lookup_erase _ m
  · rename_i h
    exact Finmap.lookup_erase_ne fun he => h (Prod.mk.inj he)

theorem lookup_outside (m : FlatMap) (ns ns' : Namespace) (name : String) :
    (m.outside ns).lookup (ns', name) = if ns' = ns then none else m.lookup (ns', name) := by
  ext v
  rw [Finmap.lookup_eq_some_iff]
  by_cases h : ns' = ns
  · simp [outside, h]
  · simp [outside, h, Finmap.lookup_eq_some_iff]

theorem mem_domain {m : FlatMap} {ns : Namespace} {name : String} :
    name ∈ m.domain ns ↔ (m.lookup (ns, name)).isSome = true := by
  simp [domain, Finmap.lookup_isSome, Finmap.mem_keys]

end FlatMap

namespace Store

/-! ## Requests, told by the finite map -/

theorem flat_put {s s' : Store} {ns : Namespace} {name : String} {v : Value}
    (h : s.put ns name v = .ok s') : s'.flat = s.flat.insert (ns, name) v :=
  Finmap.ext_lookup fun ⟨ns', name'⟩ => by
    rw [FlatMap.lookup_insert_ite, lookup_flat, lookup_flat, get?_put h]

theorem flat_drop {s s' : Store} {ns : Namespace} {name : String} {v : Value}
    (h : s.drop ns name = .ok (v, s')) : s'.flat = s.flat.erase (ns, name) :=
  Finmap.ext_lookup fun ⟨ns', name'⟩ => by
    rw [FlatMap.lookup_erase_ite, lookup_flat, lookup_flat, get?_drop h]

theorem get?_replaceCore (s : Store) (library : Bindings) (ns : Namespace) (name : String) :
    (s.replaceCore library).get? ns name =
      if ns = .core then library.get? name else s.get? ns name := by
  cases ns <;> simp [replaceCore, get?, bindings?]

theorem flat_installCore (s : Store) (name : String) (v : Value) :
    (s.installCore name v).flat = s.flat.insert (.core, name) v :=
  Finmap.ext_lookup fun ⟨ns', name'⟩ => by
    rw [FlatMap.lookup_insert_ite, lookup_flat, lookup_flat]
    cases ns' <;> simp [installCore, get?, bindings?]

theorem flat_replaceCore (s : Store) (library : Bindings) :
    (s.replaceCore library).flat = ({ core := library } : Store).flat ∪ s.flat.outside .core :=
  Finmap.ext_lookup fun ⟨ns, name⟩ => by
    have hlibrary : ({ core := library } : Store).get? ns name =
        if ns = .core then library.get? name else none := by
      cases ns <;> simp [get?, bindings?]
    rw [lookup_flat, get?_replaceCore]
    by_cases hmem : (ns, name) ∈ ({ core := library } : Store).flat
    · rw [Finmap.lookup_union_left hmem, lookup_flat, hlibrary]
      rw [← Finmap.lookup_isSome, lookup_flat, hlibrary] at hmem
      by_cases hns : ns = .core <;> simp_all
    · rw [Finmap.lookup_union_right hmem, FlatMap.lookup_outside, lookup_flat]
      rw [← Finmap.lookup_eq_none, lookup_flat, hlibrary] at hmem
      by_cases hns : ns = .core <;> simp_all

/-- The names of a namespace are listed in order and without repetition. -/
theorem keys_eq_sort (s : Store) (ns : Namespace) : s.keys ns = (s.flat.domain ns).sort := by
  have hkeys : (s.keys ns).Nodup ∧ (s.keys ns).Pairwise (· ≤ ·) := by
    unfold keys
    split
    · rename_i b _
      exact ⟨b.nodup_keys, b.keys_sorted⟩
    · exact ⟨List.nodup_nil, List.Pairwise.nil⟩
  have hdomain : s.flat.domain ns = (s.keys ns).toFinset := by
    ext name
    rw [FlatMap.mem_domain, lookup_flat, List.mem_toFinset, mem_keys_iff]
  rw [hdomain]
  exact ((List.toFinset_sort _ hkeys.1).mpr hkeys.2).symm

/-- A store and its finite map answer alike and go on alike. -/
theorem handle_flat (s : Store) (r : Request) :
    (s.handle r).1 = (s.flat.handle r).1 ∧ (s.handle r).2.flat = (s.flat.handle r).2 := by
  cases r with
  | get ns name => simp [handle, FlatMap.handle, get]
  | put ns name v =>
    by_cases hns : ns = .core
    · subst hns
      exact ⟨rfl, rfl⟩
    · obtain ⟨s', hs⟩ := s.put_isOk hns name v
      simp [handle, FlatMap.handle, hns, hs, flat_put hs]
  | drop ns name =>
    by_cases hns : ns = .core
    · subst hns
      exact ⟨rfl, rfl⟩
    · obtain ⟨s', hs⟩ := s.drop_isOk hns name
      simp [handle, FlatMap.handle, hns, hs, flat_drop hs, get]
  | keys ns => exact ⟨congrArg Answer.names (s.keys_eq_sort ns), rfl⟩
  | installCore name v => exact ⟨rfl, s.flat_installCore name v⟩
  | replaceCore library => exact ⟨rfl, s.flat_replaceCore library⟩
  | restore image =>
    by_cases hschema : image.schema = Image.currentSchema
    · simp [handle, FlatMap.handle, Image.restore, hschema]
    · simp [handle, FlatMap.handle, Image.restore, hschema]
      rfl

/-- What is refused changes nothing. -/
theorem handle_refused {s : Store} {r : Request} {f : Failure}
    (h : (s.handle r).1 = .refused f) : (s.handle r).2 = s := by
  cases r with
  | get ns name => rfl
  | put ns name v =>
    simp only [handle] at h ⊢
    split at h
    · cases h
    · rfl
  | drop ns name =>
    simp only [handle] at h ⊢
    split at h
    · cases h
    · rfl
  | keys ns => rfl
  | installCore name v => cases h
  | replaceCore library => cases h
  | restore image =>
    simp only [handle] at h ⊢
    split at h
    · cases h
    · rfl

/-! ## Stores that were made -/

/-- The stores that requests and runs make of the empty one. Restoring is left out: an image may hold
entries that bind nothing. -/
inductive Made : Store → Prop where
  | empty : Made {}
  | handle {s : Store} (r : Request) : Made s → (∀ image, r ≠ .restore image) → Made (s.handle r).2
  | execute (i : Interpreter) (program : Node) (identity : Identity) :
      Made i.store → Made (i.execute program identity).2.store

theorem hollow_handle {s : Store} {r : Request} (hr : ∀ image, r ≠ .restore image) {slot : Slot}
    (h : (s.handle r).2.Hollow slot) : s.Hollow slot := by
  cases r with
  | get ns name => exact h
  | put ns name v =>
    simp only [handle] at h
    split at h
    · rename_i hs
      exact (((changesAt_put hs).hollow slot).mp h).1
    · exact h
  | drop ns name =>
    simp only [handle] at h
    split at h
    · rename_i hs
      exact (((changesAt_drop hs).hollow slot).mp h).1
    · exact h
  | keys ns => exact h
  | installCore name v => cases slot <;> exact h
  | replaceCore library => cases slot <;> exact h
  | restore image => exact absurd rfl (hr image)

/-- A run makes no hollow entries. -/
theorem hollow_execute (i : Interpreter) (program : Node) (identity : Identity) {slot : Slot}
    (h : (i.execute program identity).2.store.Hollow slot) : i.store.Hollow slot := by
  have hinvariant : Run.Invariant ⟨i.options, identity⟩
      (fun m => m.store.Hollow slot → i.store.Hollow slot) (fun _ => True) fun _ => True :=
    .ofStore (P := fun s => s.Hollow slot → i.store.Hollow slot)
      (fun hm hs hollow => hm (((changesAt_put hs).hollow slot).mp hollow).1)
      fun hm hs hollow => hm (((changesAt_drop hs).hollow slot).mp hollow).1
  obtain ⟨⟨m, hm, hstore⟩, -⟩ := i.execute_keeps (hinvariant.keeps_program program trivial) id
  rw [hstore] at h
  exact hm h

theorem Made.not_hollow {s : Store} (h : s.Made) (slot : Slot) : ¬ s.Hollow slot := by
  induction h with
  | empty => cases slot <;> (rintro ⟨_, hs, -⟩; cases hs)
  | handle r _ hr ih => exact fun hs => ih (hollow_handle hr hs)
  | execute i program identity _ ih => exact fun hs => ih (hollow_execute i program identity hs)

/-- Stores that were made are determined by their finite maps. -/
theorem Made.ext_flat {s t : Store} (hs : s.Made) (ht : t.Made) (h : s.flat = t.flat) : s = t :=
  ext_hollow (flat_eq_iff.mp h) fun slot =>
    iff_of_false (hs.not_hollow slot) (ht.not_hollow slot)

/-- Binding a new name and removing it again leads back to the same finite map. -/
theorem flat_handle_put_drop {s : Store} {ns : Namespace} {name : String} (v : Value)
    (hns : ns ≠ .core) (hnew : (ns, name) ∉ s.flat) :
    ((s.handle (.put ns name v)).2.handle (.drop ns name)).2.flat = s.flat := by
  rw [(handle_flat _ _).2, (handle_flat _ _).2]
  simp only [FlatMap.handle, if_neg hns]
  refine Finmap.ext_lookup fun ⟨ns', name'⟩ => ?_
  rw [FlatMap.lookup_erase_ite, FlatMap.lookup_insert_ite]
  split
  · rename_i h
    obtain ⟨rfl, rfl⟩ := h
    exact (Finmap.lookup_eq_none.mpr hnew).symm
  · rfl

end Store

/-- **A store is one finite map.** Whatever is asked of a store, it answers as its finite map has to:
reading is looking up, writing is inserting, removing is erasing and yields what was bound, listing
gives the names of one namespace in order, and the core tier and images of another schema are refused.
What it becomes has the finite map that the operation makes of its finite map, and what is refused
leaves the store as it was; so does restoring its own image. The number of bindings is the size of the
finite map.

Requests and runs that start from the empty store never leave an entry of a server or a user that
binds nothing. Hence two stores made in this way have the same image when they have the same finite
map, and a new name that is bound and removed again leaves no trace. -/
theorem store_refines_flat_map :
    (∀ (s : Store) (r : Store.Request),
      (s.handle r).1 = (s.flat.handle r).1 ∧ (s.handle r).2.flat = (s.flat.handle r).2 ∧
        ∀ f, (s.handle r).1 = .refused f → (s.handle r).2 = s) ∧
    (∀ s : Store, s.handle (.restore s.image) = (.done, s)) ∧
    (∀ s : Store, s.image.entryCount = s.flat.keys.card) ∧
    (∀ s : Store, s.Made → ∀ slot, ¬ s.Hollow slot) ∧
    (∀ s t : Store, s.Made → t.Made → s.flat = t.flat → s.image = t.image) ∧
    ∀ (s : Store) (ns : Namespace) (name : String) (v : Value), s.Made → ns ≠ .core →
      (ns, name) ∉ s.flat →
        ((s.handle (.put ns name v)).2.handle (.drop ns name)).2.image = s.image := by
  refine ⟨fun s r => ?_, fun s => ?_, Store.entryCount_eq, fun s hs => hs.not_hollow,
    fun s t hs ht h => ?_, fun s ns name v hs hns hnew => ?_⟩
  · exact ⟨(s.handle_flat r).1, (s.handle_flat r).2, fun f => Store.handle_refused⟩
  · simp [Store.handle, Store.image, Image.restore]
  · rw [hs.ext_flat ht h]
  · have hmade : ((s.handle (.put ns name v)).2.handle (.drop ns name)).2.Made :=
      (hs.handle (.put ns name v) (by simp)).handle (.drop ns name) (by simp)
    rw [hmade.ext_flat hs (Store.flat_handle_put_drop v hns hnew)]

/-- One user's entry comes and goes beside that of another user of the same server. -/
theorem store_refines_flat_map_beside :
    let s := (({} : Store).handle (.put (.personal "guild" "ann") "x" (.integer 1))).2
    let bob := Namespace.personal "guild" "bob"
    s.Made ∧ (bob, "y") ∉ s.flat ∧
      ((s.handle (.put bob "y" (.integer 2))).2.handle (.drop bob "y")).2.image = s.image := by
  intro s bob
  have hmade : s.Made := Store.Made.empty.handle _ (by simp)
  have hnew : (bob, "y") ∉ s.flat := by
    rw [← Finmap.lookup_eq_none, Store.lookup_flat]
    rfl
  obtain ⟨-, -, -, -, -, hback⟩ := store_refines_flat_map
  exact ⟨hmade, hnew, hback s bob "y" (.integer 2) hmade (by simp [bob]) hnew⟩

end DiceScript
