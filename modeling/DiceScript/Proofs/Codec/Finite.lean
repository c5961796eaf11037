import DiceScript.Proofs.Json.Range
import DiceScript.Proofs.Values.Finite

/-!
# What is read is finite

Whatever is read from a document is put together from parts of it, so if the numbers of a document
are in range, then the floats of the program, the value or the image read from it are finite. This
does not ask where a document comes from: an image need not have been written by this program.

- `Ensures` — a reader that makes only what has a property.
- `Node.ensures_finiteFloats` — programs that were read have finite floats.
- `Value.ensures_finite` — values, too.
- `Image.ensures_holds` — hence so does everything in a store that was read.
-/

namespace DiceScript

namespace Json

variable {α : Type}

/-- What is read from a document with its numbers in range has `P`. -/
def Ensures (read : Scope → Json → Option α) (P : α → Prop) : Prop :=
  ∀ scope j a, j.InRange → read scope j = some a → P a

/-! ## Parts of a document -/

theorem exists_of_mapM {β : Type} {f : α → Option β} {l : List α} {l' : List β}
    (h : l.mapM f = some l') {b : β} (hb : b ∈ l') : ∃ a ∈ l, f a = some b := by
  induction l generalizing l' with
  | nil =>
    obtain rfl := Option.some.inj h
    cases hb
  | cons a rest ih =>
    simp only [List.mapM_cons, Option.bind_eq_bind, Option.bind_eq_some_iff, Option.pure_def,
      Option.some.injEq] at h
    obtain ⟨c, hc, cs, hcs, rfl⟩ := h
    rcases List.mem_cons.mp hb with rfl | hb
    · exact ⟨a, List.mem_cons_self, hc⟩
    · obtain ⟨x, hx, hfx⟩ := ih hcs hb
      exact ⟨x, List.mem_cons_of_mem _ hx, hfx⟩

theorem mem_of_pick {names : List String} {members : List (String × α)}
    {fields : List (Option α)} (h : pick names members = some fields) {a : α}
    (ha : some a ∈ fields) : ∃ name, (name, a) ∈ members := by
  obtain ⟨name, -, hname⟩ := exists_of_mapM h ha
  split at hname
  · cases hname
  · rename_i k v hfilter
    obtain rfl := Option.some.inj (Option.some.inj hname)
    have hmem : (k, v) ∈ members.filter (·.1 == name) := by rw [hfilter]; exact List.mem_cons_self
    exact ⟨k, List.mem_of_mem_filter hmem⟩
  · cases hname

theorem mem_of_place {names : List String} {items : List α} {fields : List (Option α)}
    (h : place names items = some fields) {a : α} (ha : some a ∈ fields) : a ∈ items := by
  unfold place at h
  split at h
  · obtain rfl := Option.some.inj h
    simpa using ha
  · cases h

theorem inRange_of_toFields? {names : List String} {scope inner : Scope} {j : Json}
    {fields : List (Option Json)} (hj : j.InRange)
    (h : toFields? names scope j = some (inner, fields)) {k : Json} (hk : some k ∈ fields) :
    k.InRange := by
  cases j with
  | obj members =>
    unfold toFields? at h
    dsimp only at h
    split at h
    · rename_i hpick
      obtain ⟨-, rfl⟩ := Prod.mk.inj (Option.some.inj h)
      obtain ⟨name, hmem⟩ := mem_of_pick hpick hk
      exact hj.parts k (List.mem_map.mpr ⟨_, hmem, rfl⟩)
    · cases h
  | arr items =>
    unfold toFields? at h
    dsimp only at h
    split at h
    · rename_i hplace
      obtain ⟨-, rfl⟩ := Prod.mk.inj (Option.some.inj h)
      exact hj.parts k (mem_of_place hplace hk)
    · cases h
  | _ => cases h

/-! ## Lists and maps -/

theorem Ensures.toList? {read : Scope → Json → Option α} {P : α → Prop} (h : Ensures read P) :
    Ensures (Json.toList? read) fun items => ∀ a ∈ items, P a := by
  intro scope j items hj hread a ha
  unfold Json.toList? at hread
  split at hread
  · rename_i inner parts hitems
    cases j with
    | arr js =>
      obtain ⟨_, -, heq⟩ := Option.map_eq_some_iff.mp hitems
      obtain ⟨-, rfl⟩ := Prod.mk.inj heq
      obtain ⟨k, hk, hka⟩ := exists_of_mapM hread ha
      exact h inner k a (hj.parts k hk) hka
    | _ => cases hitems
  · cases hread

theorem Ensures.withDefault {read : Scope → Json → Option α} {P : α → Prop} (h : Ensures read P)
    {value a : α} (hvalue : P value) {inner : Scope} {field : Option Json}
    (hfield : ∀ k, field = some k → k.InRange)
    (hread : Json.withDefault value (read inner) field = some a) : P a := by
  cases field with
  | none => rwa [← Option.some.inj hread]
  | some k => exact h inner k a (hfield k rfl) hread

theorem Ensures.dict {read : Scope → Json → Option α} {P : α → Prop} (h : Ensures read P) :
    Ensures (Dict.ofJson? read) fun d => ∀ k a, d.get? k = some a → P a := by
  intro scope j d hj hread k a ha
  obtain ⟨members, hmembers, rfl⟩ := Option.map_eq_some_iff.mp hread
  have hmem := Dict.mem_of_get?_ofList ha
  cases j with
  | obj parts =>
    unfold toMembers? at hmembers
    dsimp only at hmembers
    split at hmembers
    · rename_i inner _
      obtain ⟨⟨name, part⟩, hpart, hvalue⟩ := exists_of_mapM hmembers hmem
      obtain ⟨v, hv, heq⟩ := Option.map_eq_some_iff.mp hvalue
      obtain ⟨-, rfl⟩ := Prod.mk.inj heq
      exact h inner part v (hj.parts part (List.mem_map.mpr ⟨_, hpart, rfl⟩)) hv
    · cases hmembers
  | _ => cases hmembers

end Json

/-! ## Programs -/

namespace Node

/-- A part of a document that stands only for what has finite floats. -/
structure Reading.Finite (r : Reading) : Prop where
  json : r.json.InRange
  node : ∀ n, r.node = some n → n.FiniteFloats
  nodes : ∀ ns, r.nodes = some ns → ∀ n ∈ ns, n.FiniteFloats

namespace Reading

variable {field : Option Reading}

theorem finite_one (hf : ∀ r ∈ field, r.Finite) {n : Node} (h : one field = some n) :
    n.FiniteFloats := by
  obtain ⟨r, hr, hn⟩ := Option.bind_eq_some_iff.mp h
  exact (hf r hr).node n hn

theorem finite_oneOrNone (hf : ∀ r ∈ field, r.Finite) {o : Option Node}
    (h : oneOrNone field = some o) : ∀ n ∈ o, n.FiniteFloats := by
  intro n hn
  unfold oneOrNone at h
  split at h
  · obtain rfl := Option.some.inj h
    cases hn
  · rename_i r
    split at h
    · obtain rfl := Option.some.inj h
      cases hn
    · obtain ⟨k, hk, rfl⟩ := Option.map_eq_some_iff.mp h
      obtain rfl := Option.some.inj hn
      exact (hf r rfl).node k hk

theorem finite_many (hf : ∀ r ∈ field, r.Finite) {ns : List Node} (h : many field = some ns) :
    ∀ n ∈ ns, n.FiniteFloats := by
  cases field with
  | none =>
    obtain rfl := Option.some.inj h
    simp
  | some r => exact (hf r rfl).nodes ns h

theorem finite_float (hf : ∀ r ∈ field, r.Finite) {x : Float}
    (h : plain Json.toFloat? field = some x) : x.isFinite := by
  obtain ⟨r, hr, hx⟩ := Option.bind_eq_some_iff.mp h
  exact Json.isFinite_of_toFloat? (hf r hr).json hx

end Reading

/-- A node whose fields are finite has finite floats. -/
theorem finiteFloats_of_ofFields? {kind : String} {fields : List (Option Reading)} {n : Node}
    (hfields : ∀ field ∈ fields, ∀ r ∈ field, r.Finite) (h : ofFields? kind fields = some n) :
    n.FiniteFloats := by
  unfold ofFields? at h
  -- One case per kind. In each the fields were read one after another, and the node is made of them.
  split at h
  all_goals
    simp only [Option.bind_eq_bind, Option.bind_eq_some_iff, Option.pure_def, Option.some.injEq,
      reduceCtorEq] at h
  all_goals
    simp only [List.forall_mem_cons, List.not_mem_nil, false_implies, implies_true, and_true]
      at hfields
  · obtain ⟨_, -, rfl⟩ := h
    exact .intro trivial (by simp [parts])
  · obtain ⟨x, hx, rfl⟩ := h
    exact .intro (Reading.finite_float hfields hx) (by simp [parts])
  · obtain ⟨_, -, rfl⟩ := h
    exact .intro trivial (by simp [parts])
  · obtain ⟨_, -, rfl⟩ := h
    exact .intro trivial (by simp [parts])
  · obtain ⟨items, hitems, rfl⟩ := h
    exact .intro trivial (Reading.finite_many hfields hitems)
  · obtain ⟨_, -, rfl⟩ := h
    exact .intro trivial (by simp [parts])
  · obtain ⟨_, -, _, -, rfl⟩ := h
    exact .intro trivial (by simp [parts])
  · obtain ⟨inner, hinner, rfl⟩ := h
    exact .intro trivial (List.forall_mem_singleton.mpr (Reading.finite_one hfields hinner))
  · obtain ⟨op, -, l, hl, r, hr, rfl⟩ := h
    have hl := Reading.finite_one hfields.2.1 hl
    have hr := Reading.finite_one hfields.2.2 hr
    exact .intro trivial (List.forall_mem_cons.mpr ⟨hl, List.forall_mem_singleton.mpr hr⟩)
  · obtain ⟨op, -, u, hu, rfl⟩ := h
    exact .intro trivial (List.forall_mem_singleton.mpr (Reading.finite_one hfields.2 hu))
  · obtain ⟨count, hcount, sides, hsides, form, -, rfl⟩ := h
    have hcount := Reading.finite_oneOrNone hfields.1 hcount
    have hsides := Reading.finite_one hfields.2.1 hsides
    refine .intro trivial fun k hk => ?_
    rcases List.mem_append.mp hk with hk | hk
    · exact hcount k (Option.mem_toList.mp hk)
    · rwa [List.mem_singleton.mp hk]
  · obtain ⟨statements, hstatements, rfl⟩ := h
    exact .intro trivial (Reading.finite_many hfields hstatements)
  · obtain ⟨name, -, v, hv, rfl⟩ := h
    exact .intro trivial (List.forall_mem_singleton.mpr (Reading.finite_one hfields.2 hv))
  · obtain ⟨t, -, name, -, v, hv, rfl⟩ := h
    exact .intro trivial (List.forall_mem_singleton.mpr (Reading.finite_one hfields.2.2 hv))
  · obtain ⟨_, -, _, -, rfl⟩ := h
    exact .intro trivial (by simp [parts])
  · obtain ⟨v, hv, rfl⟩ := h
    exact .intro trivial (List.forall_mem_singleton.mpr (Reading.finite_one hfields hv))
  · obtain ⟨condition, hcondition, yes, hyes, no, hno, rfl⟩ := h
    have hyes := Reading.finite_many hfields.2.1 hyes
    have hno := Reading.finite_many hfields.2.2 hno
    refine .intro trivial (List.forall_mem_cons.mpr ⟨Reading.finite_one hfields.1 hcondition, ?_⟩)
    exact List.forall_mem_append.mpr ⟨hyes, hno⟩
  · obtain ⟨condition, hcondition, body, hbody, rfl⟩ := h
    exact .intro trivial (List.forall_mem_cons.mpr
      ⟨Reading.finite_one hfields.1 hcondition, Reading.finite_many hfields.2 hbody⟩)
  · obtain ⟨body, hbody, condition, hcondition, rfl⟩ := h
    exact .intro trivial (List.forall_mem_cons.mpr
      ⟨Reading.finite_one hfields.2 hcondition, Reading.finite_many hfields.1 hbody⟩)
  · obtain ⟨name, -, params, -, body, hbody, t, -, rfl⟩ := h
    exact .intro trivial (Reading.finite_many hfields.2.2.1 hbody)
  · obtain ⟨name, -, t, -, args, hargs, rfl⟩ := h
    exact .intro trivial (Reading.finite_many hfields.2.2 hargs)

/-- A document with its numbers in range stands only for what has finite floats. -/
theorem finite_read {j : Json} (h : j.InRange) : (read j).Finite := by
  induction h with
  | @intro j hp hparts ih =>
    have hj : j.InRange := .intro hp hparts
    cases j with
    | arr items =>
      have hread : ∀ r ∈ readItems items, r.Finite := by
        rw [readItems_eq_map, List.forall_mem_map]
        exact ih
      rw [read]
      refine ⟨hj, fun n hn => ?_, fun ns hns n hn => ?_⟩
      · dsimp only at hn
        unfold ofItems? at hn
        split at hn
        · cases hn
        · rename_i tag rest heq
          obtain ⟨kind, -, hn⟩ := Option.bind_eq_some_iff.mp hn
          obtain ⟨fields, hfields, hn⟩ := Option.bind_eq_some_iff.mp hn
          refine finiteFloats_of_ofFields? (fun field hfield r hr => ?_) hn
          obtain rfl := hr
          rw [heq] at hread
          exact hread r (List.mem_cons_of_mem _ (Json.mem_of_place hfields hfield))
      · obtain ⟨r, hr, hrn⟩ := Json.exists_of_mapM hns hn
        exact (hread r hr).node n hrn
    | obj members =>
      have hread : ∀ m ∈ readMembers members, m.2.Finite := by
        rw [readMembers_eq_map, List.forall_mem_map]
        exact fun m hm => ih m.2 (List.mem_map.mpr ⟨m, hm, rfl⟩)
      rw [read]
      refine ⟨hj, fun n hn => ?_, fun ns hns => by cases hns⟩
      dsimp only at hn
      unfold ofMembers? at hn
      split at hn
      · obtain ⟨kind, -, hn⟩ := Option.bind_eq_some_iff.mp hn
        obtain ⟨fields, hfields, hn⟩ := Option.bind_eq_some_iff.mp hn
        refine finiteFloats_of_ofFields? (fun field hfield r hr => ?_) hn
        obtain rfl := hr
        obtain ⟨name, hmem⟩ := Json.mem_of_pick hfields hfield
        exact hread _ hmem
      · cases hn
    | _ =>
      rw [read]
      · exact ⟨hj, fun n hn => (by cases hn), fun ns hns => (by cases hns)⟩
      all_goals simp

/-- Programs that were read have finite floats. -/
theorem ensures_finiteFloats : Json.Ensures ofJson? FiniteFloats := by
  intro scope j n hj h
  unfold ofJson? at h
  split at h
  · exact (finite_read hj).node n h
  · split at h
    · exact (finite_read hj).node n h
    · cases h

end Node

/-! ## Values -/

theorem Function.ensures_finite :
    Json.Ensures Function.ofJson? fun f => ∀ n ∈ f.body, n.FiniteFloats := by
  intro scope j f hj h
  unfold Function.ofJson? at h
  split at h
  · rename_i inner name params body tier hfields
    simp only [Option.bind_eq_bind, Option.bind_eq_some_iff, Option.pure_def,
      Option.some.injEq] at h
    obtain ⟨_, -, _, -, ns, hbody, _, -, rfl⟩ := h
    obtain ⟨k, rfl, hns⟩ := Option.bind_eq_some_iff.mp hbody
    have hk : k.InRange := Json.inRange_of_toFields? hj hfields (by simp)
    exact Node.ensures_finiteFloats.toList? inner k ns hk hns
  · cases h

namespace Value

structure Reading.Finite (r : Reading) : Prop where
  json : r.json.InRange
  value : ∀ scope v, r.value scope = some v → v.All FinitePart
  values : ∀ scope vs, r.values scope = some vs → ∀ v ∈ vs, v.All FinitePart

theorem finite_of_ofPayload? {scope : Json.Scope} {type : ValueType} {payload : Option Reading}
    {v : Value} (hp : ∀ r ∈ payload, r.Finite) (h : ofPayload? scope type payload = some v) :
    v.All FinitePart := by
  cases payload with
  | none =>
    cases type with
    | undefined =>
      obtain rfl := Option.some.inj h
      exact all_undefined.mpr trivial
    | _ => cases h
  | some r =>
    have hr := hp r rfl
    cases type with
    | undefined =>
      unfold ofPayload? at h
      dsimp only at h
      split at h
      · obtain rfl := Option.some.inj h
        exact all_undefined.mpr trivial
      · cases h
    | integer =>
      obtain ⟨n, -, rfl⟩ := Option.map_eq_some_iff.mp h
      exact all_integer.mpr trivial
    | float =>
      obtain ⟨x, hx, rfl⟩ := Option.map_eq_some_iff.mp h
      exact all_float.mpr (Json.isFinite_of_toFloat? hr.json hx)
    | string =>
      obtain ⟨s, -, rfl⟩ := Option.map_eq_some_iff.mp h
      exact all_string.mpr trivial
    | boolean =>
      obtain ⟨b, -, rfl⟩ := Option.map_eq_some_iff.mp h
      exact all_boolean.mpr trivial
    | list =>
      obtain ⟨items, hitems, rfl⟩ := Option.map_eq_some_iff.mp h
      exact all_list.mpr ⟨trivial, hr.values scope items hitems⟩
    | function =>
      obtain ⟨f, hf, rfl⟩ := Option.map_eq_some_iff.mp h
      exact all_function.mpr (Function.ensures_finite scope r.json f hr.json hf)

theorem finite_of_ofItems? {items : List Reading} {scope : Json.Scope} {v : Value}
    (hitems : ∀ r ∈ items, r.Finite) (h : ofItems? items scope = some v) : v.All FinitePart := by
  unfold ofItems? at h
  split at h
  · rename_i inner tag payload _
    obtain ⟨type, -, h⟩ := Option.bind_eq_some_iff.mp h
    refine finite_of_ofPayload? (fun r hr => ?_) h
    obtain rfl := Option.some.inj hr
    exact hitems _ (by simp)
  · cases h

theorem finite_of_ofMembers? {members : List (String × Reading)} {scope : Json.Scope} {v : Value}
    (hmembers : ∀ m ∈ members, m.2.Finite) (h : ofMembers? members scope = some v) :
    v.All FinitePart := by
  unfold ofMembers? at h
  split at h
  · rename_i inner tag payload _ hpick
    -- Whether the payload stands in front of its type or behind it, it is a member.
    have hpayload : ∀ r ∈ payload, r.Finite := by
      rintro r rfl
      obtain ⟨name, hmem⟩ := Json.mem_of_pick hpick (a := r) (by simp)
      exact hmembers _ hmem
    obtain ⟨type, -, h⟩ := Option.bind_eq_some_iff.mp h
    split at h
    · split at h
      · split at h
        · exact finite_of_ofPayload? hpayload h
        · cases h
      · exact finite_of_ofPayload? hpayload h
    · exact finite_of_ofPayload? hpayload h
  · cases h

theorem readItems_eq_map (items : List Json) : readItems items = items.map read := by
  induction items with
  | nil => rfl
  | cons j rest ih => rw [readItems, ih, List.map_cons]

theorem readMembers_eq_map (members : List (String × Json)) :
    readMembers members = members.map fun m => (m.1, read m.2) := by
  induction members with
  | nil => rfl
  | cons m rest ih => rw [readMembers, ih, List.map_cons]

/-- A document with its numbers in range stands only for finite values. -/
theorem finite_read {j : Json} (h : j.InRange) : (read j).Finite := by
  induction h with
  | @intro j hp hparts ih =>
    have hj : j.InRange := .intro hp hparts
    cases j with
    | arr items =>
      have hread : ∀ r ∈ readItems items, r.Finite := by
        rw [readItems_eq_map, List.forall_mem_map]
        exact ih
      rw [read]
      refine ⟨hj, fun scope v hv => finite_of_ofItems? hread hv, fun scope vs hvs v hv => ?_⟩
      obtain ⟨inner, -, hvs⟩ := Option.bind_eq_some_iff.mp hvs
      obtain ⟨r, hr, hrv⟩ := Json.exists_of_mapM hvs hv
      exact (hread r hr).value inner v hrv
    | obj members =>
      have hread : ∀ m ∈ readMembers members, m.2.Finite := by
        rw [readMembers_eq_map, List.forall_mem_map]
        exact fun m hm => ih m.2 (List.mem_map.mpr ⟨m, hm, rfl⟩)
      rw [read]
      exact ⟨hj, fun scope v hv => finite_of_ofMembers? hread hv, fun _ _ hvs => (by cases hvs)⟩
    | _ =>
      rw [read]
      · exact ⟨hj, fun _ _ hv => (by cases hv), fun _ _ hvs => (by cases hvs)⟩
      all_goals simp

/-- Values that were read are finite. -/
theorem ensures_finite : Json.Ensures ofJson? (All FinitePart) :=
  fun scope _ v hj h => (finite_read hj).value scope v h

end Value

/-! ## Images -/

/-- Everything in a store that was read is finite. -/
theorem Image.ensures_holds :
    Json.Ensures Image.ofJson? fun i => i.store.Holds Value.FinitePart := by
  intro scope j i hj h
  have hbindings : Json.Ensures Bindings.ofJson? fun b =>
      ∀ name v, b.get? name = some v → v.All Value.FinitePart := Value.ensures_finite.dict
  unfold Image.ofJson? at h
  split at h
  · rename_i inner schema core global shared personal hfields
    have hrange : ∀ k, some k ∈ [schema, core, global, shared, personal] → k.InRange :=
      fun k hk => Json.inRange_of_toFields? hj hfields hk
    simp only [Option.bind_eq_bind, Option.bind_eq_some_iff, Option.pure_def,
      Option.some.injEq] at h
    obtain ⟨_, -, c, hcore, g, hglobal, sh, hshared, p, hpersonal, rfl⟩ := h
    have hcore := hbindings.withDefault (by simp) (fun k hk => hrange k (by simp [hk])) hcore
    have hglobal := hbindings.withDefault (by simp) (fun k hk => hrange k (by simp [hk])) hglobal
    have hshared := hbindings.dict.withDefault (by simp) (fun k hk => hrange k (by simp [hk])) hshared
    have hpersonal :=
      hbindings.dict.dict.withDefault (by simp) (fun k hk => hrange k (by simp [hk])) hpersonal
    intro ns name v hv
    obtain ⟨b, hb, hget⟩ := Option.bind_eq_some_iff.mp hv
    cases ns with
    | core =>
      obtain rfl := Option.some.inj hb
      exact hcore name v hget
    | global =>
      obtain rfl := Option.some.inj hb
      exact hglobal name v hget
    | shared server => exact hshared server b hb name v hget
    | personal server user =>
      obtain ⟨users, husers, hb⟩ := Option.bind_eq_some_iff.mp hb
      exact hpersonal server users husers user b hb name v hget
  · cases h

end DiceScript
