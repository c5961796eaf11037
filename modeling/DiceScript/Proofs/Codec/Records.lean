import DiceScript.Json.Record
import Mathlib.Tactic

/-!
# Writing and reading records

A codec is faithful when what it writes is read back exactly where the scope admits it, and refused
elsewhere. Scopes are opened level by level: a document is admitted exactly when its bracket may be
opened and its parts are admitted inside. A record that is written with each of its fields once is
read with each field in its place.

- `Faithful` — reading gives back what was written, within the scope and nowhere else.
- `admits_arr`, `admits_obj` — scopes level by level.
- `pick_zip` — the fields of a record.
- `Faithful.toList?`, `Faithful.toMembers?` — lists and maps of what a faithful codec writes.
-/

namespace DiceScript.Json

/-- Reading gives back exactly what was written where the scope admits it, and nothing elsewhere. -/
def Faithful {α : Type} (write : α → Json) (read : Scope → Json → Option α) : Prop :=
  ∀ scope a, read scope (write a) = if scope.admits (write a) then some a else none

/-! ## Depth and readability, part by part -/

theorem depthItems_le_iff {items : List Json} {n : Nat} :
    depthItems items ≤ n ↔ ∀ j ∈ items, j.depth ≤ n := by
  induction items with
  | nil => simp [depthItems]
  | cons j rest ih => simp [depthItems, ih]

theorem depthMembers_le_iff {members : List (String × Json)} {n : Nat} :
    depthMembers members ≤ n ↔ ∀ m ∈ members, m.2.depth ≤ n := by
  induction members with
  | nil => simp [depthMembers]
  | cons m rest ih =>
    obtain ⟨name, j⟩ := m
    simp [depthMembers, ih]

theorem itemsReadable_iff {items : List Json} :
    itemsReadable items = true ↔ ∀ j ∈ items, j.isReadable = true := by
  induction items with
  | nil => simp [itemsReadable]
  | cons j rest ih => simp [itemsReadable, ih]

theorem membersReadable_iff {members : List (String × Json)} :
    membersReadable members = true ↔ ∀ m ∈ members, m.2.isReadable = true := by
  induction members with
  | nil => simp [membersReadable]
  | cons m rest ih =>
    obtain ⟨name, j⟩ := m
    simp [membersReadable, ih]

/-! ## Scopes -/

@[simp] theorem admits_bool (scope : Scope) (b : Bool) : scope.admits (.bool b) = true := by
  cases scope <;> simp [Scope.admits, depth, isReadable]

@[simp] theorem admits_int (scope : Scope) (n : Int) : scope.admits (.int n) = true := by
  cases scope <;> simp [Scope.admits, depth, isReadable]

@[simp] theorem admits_float (scope : Scope) (x : Float) : scope.admits (.float x) = true := by
  cases scope <;> simp [Scope.admits, depth, isReadable]

@[simp] theorem admits_str (scope : Scope) (s : String) : scope.admits (.str s) = true := by
  cases scope <;> simp [Scope.admits, depth, isReadable]

/-- An array is admitted when one more bracket may be opened and its items are admitted inside. -/
theorem admits_arr (scope : Scope) (items : List Json) :
    scope.admits (.arr items) = scope.enter?.any fun inner => items.all inner.admits := by
  cases scope with
  | held => simp [Scope.admits, Scope.enter?]
  | direct room =>
    cases room with
    | zero => simp [Scope.admits, Scope.enter?, depth]
    | succ room =>
      rw [Bool.eq_iff_iff]
      simp only [Scope.admits, Scope.enter?, depth, isReadable, Nat.add_le_add_iff_right,
        Bool.and_eq_true, decide_eq_true_eq, depthItems_le_iff, itemsReadable_iff, Option.any_some,
        List.all_eq_true, ← forall_and]

/-- An object is admitted when one more bracket may be opened and its members are admitted inside. -/
theorem admits_obj (scope : Scope) (members : List (String × Json)) :
    scope.admits (.obj members) =
      scope.enter?.any fun inner => members.all fun m => inner.admits m.2 := by
  cases scope with
  | held => simp [Scope.admits, Scope.enter?]
  | direct room =>
    cases room with
    | zero => simp [Scope.admits, Scope.enter?, depth]
    | succ room =>
      rw [Bool.eq_iff_iff]
      simp only [Scope.admits, Scope.enter?, depth, isReadable, Nat.add_le_add_iff_right,
        Bool.and_eq_true, decide_eq_true_eq, depthMembers_le_iff, membersReadable_iff,
        Option.any_some, List.all_eq_true, ← forall_and]

/-! ## Lists and maps -/

section Many

variable {α : Type} {write : α → Json} {read : Scope → Json → Option α}

theorem Faithful.mapM (h : Faithful write read) (scope : Scope) (items : List α) :
    (items.map write).mapM (read scope) =
      if (items.map write).all scope.admits then some items else none := by
  induction items with
  | nil => rfl
  | cons a rest ih =>
    rw [List.map_cons, List.mapM_cons, ih, h]
    by_cases ha : scope.admits (write a) = true
    · by_cases hrest : (rest.map write).all scope.admits = true <;> simp [ha, hrest]
    · simp [ha]

theorem Faithful.toList? (h : Faithful write read) :
    Faithful (fun items => .arr (items.map write)) (Json.toList? read) := by
  intro scope items
  unfold Json.toList? toItems?
  rw [admits_arr]
  cases scope.enter? with
  | none => rfl
  | some inner => exact h.mapM inner items

theorem Faithful.toMembers? (h : Faithful write read) :
    Faithful (fun members => .obj (members.map fun m => (m.1, write m.2))) (Json.toMembers? read) := by
  intro scope members
  unfold Json.toMembers?
  rw [admits_obj]
  cases scope.enter? with
  | none => rfl
  | some inner =>
    dsimp only
    rw [Option.any_some]
    induction members with
    | nil => rfl
    | cons m rest ih =>
      rw [List.map_cons, List.mapM_cons, ih, h]
      by_cases hm : inner.admits (write m.2) = true
      · by_cases hrest : ((rest.map fun m => (m.1, write m.2)).all fun m => inner.admits m.2) = true
        · rw [if_pos hm, if_pos hrest, List.all_cons, hm, hrest]
          rfl
        · rw [if_pos hm, if_neg hrest, List.all_cons, hm, Bool.true_and, if_neg hrest]
          rfl
      · rw [if_neg hm, List.all_cons, Bool.eq_false_iff.mpr hm, Bool.false_and]
        rfl

end Many

/-! ## Fields -/

section Fields

variable {α : Type}

/-- What is read after a part that is admitted is read where that part is. -/
theorem bind_admitted {β : Type} (c : Prop) [Decidable c] (a : α) (f : α → Option β) :
    (if c then some a else none).bind f = if c then f a else none := by
  split <;> rfl

def single (name : String) (members : List (String × α)) : Option (Option α) :=
  match members.filter (·.1 == name) with
  | [] => some none
  | [(_, v)] => some (some v)
  | _ => none

theorem pick_cons (name : String) (names : List String) (members : List (String × α)) :
    pick (name :: names) members =
      (single name members).bind fun field => (pick names members).map (field :: ·) := by
  unfold pick
  simp only [Option.map_eq_bind]
  rw [List.mapM_cons]
  rfl

/-- A member of another name is passed over. -/
theorem pick_cons_of_notMem {names : List String} {k : String} (hk : k ∉ names) (v : α)
    (members : List (String × α)) : pick names ((k, v) :: members) = pick names members := by
  induction names with
  | nil => rfl
  | cons name names ih =>
    rw [List.mem_cons, not_or] at hk
    have hname : single name ((k, v) :: members) = single name members := by
      unfold single
      rw [List.filter_cons_of_neg (by simpa using hk.1)]
    rw [pick_cons, pick_cons, ih hk.2, hname]

theorem filter_zip_of_notMem {names : List String} {k : String} (hk : k ∉ names)
    (values : List α) : (names.zip values).filter (·.1 == k) = [] := by
  rw [List.filter_eq_nil_iff]
  rintro ⟨name, v⟩ hmem heq
  rw [beq_iff_eq] at heq
  exact hk (heq ▸ (List.of_mem_zip hmem).1)

/-- A record with each of its fields once is read with each field in its place. -/
theorem pick_zip {names : List String} (hn : names.Nodup) {values : List α}
    (hlength : names.length = values.length) :
    pick names (names.zip values) = some (values.map some) := by
  induction names generalizing values with
  | nil =>
    obtain rfl : values = [] := List.length_eq_zero_iff.mp hlength.symm
    rfl
  | cons name names ih =>
    obtain ⟨hname, hnames⟩ := List.nodup_cons.mp hn
    cases values with
    | nil => cases hlength
    | cons v values =>
      -- The first field stands in front, and no other member has its name.
      have hsingle : single name ((name, v) :: names.zip values) = some (some v) := by
        unfold single
        rw [List.filter_cons_of_pos (by simp), filter_zip_of_notMem hname]
      rw [List.zip_cons_cons, pick_cons, hsingle, pick_cons_of_notMem hname,
        ih hnames (Nat.succ.inj hlength)]
      rfl

end Fields

/-- The fields of a record that was written with each of them. -/
theorem toFields?_zip {names : List String} (hn : names.Nodup) {values : List Json}
    (hlength : names.length = values.length) (scope : Scope) :
    toFields? names scope (.obj (names.zip values)) =
      scope.enter?.map fun inner => (inner, values.map some) := by
  unfold toFields?
  dsimp only
  rw [pick_zip hn hlength]
  cases scope.enter? <;> rfl

end DiceScript.Json
