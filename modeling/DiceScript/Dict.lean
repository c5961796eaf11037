import DiceScript.Assoc

/-! # Finite maps kept in order of their names

A `Dict α` binds names to `α`. Its entries stand in strictly increasing order of their names, so a
map has one representation: two maps with the same bindings are equal, and listing a map needs no
sorting. Names are ordered by code point, which for text in UTF-8 is also the order of its bytes.

- `insert`, `erase`, `get?` — one binding at a time.
- `keys`, `toList` — the bindings in order.
- `ofList`, `extend` — many bindings at once; of two for one name the later wins.
- `get?_insert`, `get?_erase` — what the operations do, told by `get?`.
- `ext_get?` — a map is determined by what it binds.
-/

namespace DiceScript

universe u

/-- A finite map from names to `α`. -/
structure Dict (α : Type u) where
  entries : List (String × α)
  sorted : entries.Pairwise fun a b => a.1 < b.1

namespace Dict

variable {α : Type u}

/-! ## Entries in order -/

/-- Binds `k` to `v` in a list of entries, in front of the first greater name. -/
def insertEntry (k : String) (v : α) : List (String × α) → List (String × α)
  | [] => [(k, v)]
  | (k', v') :: rest =>
    if k < k' then (k, v) :: (k', v') :: rest
    else if k = k' then (k, v) :: rest
    else (k', v') :: insertEntry k v rest

theorem mem_insertEntry {k : String} {v : α} {e : String × α} {l : List (String × α)}
    (h : e ∈ insertEntry k v l) : e = (k, v) ∨ e ∈ l := by
  induction l with
  | nil => exact Or.inl (List.mem_singleton.mp h)
  | cons hd tl ih =>
    obtain ⟨k', v'⟩ := hd
    rw [insertEntry] at h
    split at h
    · exact List.mem_cons.mp h
    · split at h
      · rcases List.mem_cons.mp h with h | h
        · exact Or.inl h
        · exact Or.inr (List.mem_cons_of_mem _ h)
      · rcases List.mem_cons.mp h with h | h
        · exact Or.inr (h ▸ List.mem_cons_self)
        · exact (ih h).imp id (List.mem_cons_of_mem _)

/-- Of two different names one is smaller. -/
theorem lt_of_not_lt_of_ne {a b : String} (h : ¬ a < b) (hne : a ≠ b) : b < a := by
  by_cases hb : b < a
  · exact hb
  · exact absurd (String.le_antisymm (String.not_lt.mp hb) (String.not_lt.mp h)) hne

theorem sorted_insertEntry (k : String) (v : α) {l : List (String × α)}
    (h : l.Pairwise fun a b => a.1 < b.1) :
    (insertEntry k v l).Pairwise fun a b => a.1 < b.1 := by
  induction l with
  | nil => exact List.pairwise_singleton ..
  | cons hd tl ih =>
    obtain ⟨k', v'⟩ := hd
    have hp := List.pairwise_cons.mp h
    rw [insertEntry]
    split
    · rename_i hlt
      refine List.pairwise_cons.mpr ⟨fun e he => ?_, h⟩
      rcases List.mem_cons.mp he with he | he
      · exact he ▸ hlt
      · exact String.lt_trans hlt (hp.1 e he)
    · rename_i hnlt
      split
      · rename_i heq
        subst heq
        exact List.pairwise_cons.mpr ⟨hp.1, hp.2⟩
      · rename_i hne
        refine List.pairwise_cons.mpr ⟨fun e he => ?_, ih hp.2⟩
        rcases mem_insertEntry he with he | he
        · exact he ▸ lt_of_not_lt_of_ne hnlt hne
        · exact hp.1 e he

/-! ## Operations -/

def empty : Dict α := ⟨[], List.Pairwise.nil⟩

instance : EmptyCollection (Dict α) := ⟨empty⟩

instance : Inhabited (Dict α) := ⟨empty⟩

def get? (d : Dict α) (k : String) : Option α := d.entries.lookup k

/-- Binds `k` to `v`; an older binding of `k` is lost. -/
def insert (d : Dict α) (k : String) (v : α) : Dict α :=
  ⟨insertEntry k v d.entries, sorted_insertEntry k v d.sorted⟩

def erase (d : Dict α) (k : String) : Dict α :=
  ⟨d.entries.filter (·.1 != k), d.sorted.filter _⟩

def keys (d : Dict α) : List String := d.entries.map (·.1)

def values (d : Dict α) : List α := d.entries.map (·.2)

def toList (d : Dict α) : List (String × α) := d.entries

def size (d : Dict α) : Nat := d.entries.length

/-- The total of `count` over the values. -/
def total (count : α → Nat) (d : Dict α) : Nat := d.values.foldr (fun v n => count v + n) 0

def isEmpty (d : Dict α) : Bool := d.entries.isEmpty

def insertMany (d : Dict α) (l : List (String × α)) : Dict α :=
  l.foldl (fun d e => d.insert e.1 e.2) d

/-- The map of a list of bindings; of two for one name the later wins. -/
def ofList (l : List (String × α)) : Dict α := insertMany empty l

/-- Adds every binding of `e` to `d`; where both bind a name, `e` wins. -/
def extend (d e : Dict α) : Dict α := d.insertMany e.entries

/-! ## What the operations bind -/

theorem lookup_insertEntry (k : String) (v : α) (l : List (String × α)) (k' : String) :
    (insertEntry k v l).lookup k' = if k' = k then some v else l.lookup k' := by
  induction l with
  | nil =>
    by_cases h : k' = k <;> simp [insertEntry, h, Assoc.lookup_cons_ite]
  | cons hd tl ih =>
    obtain ⟨k₁, v₁⟩ := hd
    rw [insertEntry]
    split
    · by_cases h : k' = k <;> simp [Assoc.lookup_cons_ite, h]
    · split
      · rename_i heq
        subst heq
        by_cases h : k' = k <;> simp [Assoc.lookup_cons_ite, h]
      · rename_i hne
        rw [Assoc.lookup_cons_ite, Assoc.lookup_cons_ite, ih]
        by_cases h₁ : k' = k₁
        · subst h₁
          simp [Ne.symm hne]
        · simp [h₁]

@[simp] theorem get?_empty (k : String) : ({} : Dict α).get? k = none := rfl

@[simp] theorem get?_insert (d : Dict α) (k : String) (v : α) (k' : String) :
    (d.insert k v).get? k' = if k' = k then some v else d.get? k' :=
  lookup_insertEntry k v d.entries k'

@[simp] theorem get?_erase (d : Dict α) (k k' : String) :
    (d.erase k).get? k' = if k' = k then none else d.get? k' :=
  Assoc.lookup_filter_ne d.entries k k'

theorem lookup_eq_none_of_lt {l : List (String × α)} {k : String} (h : ∀ e ∈ l, k < e.1) :
    l.lookup k = none := by
  induction l with
  | nil => rfl
  | cons hd tl ih =>
    have hne : k ≠ hd.1 := fun he => String.lt_irrefl k (he ▸ h hd List.mem_cons_self)
    rw [Assoc.lookup_cons_ite, ih fun e he => h e (List.mem_cons_of_mem _ he)]
    simp [hne]

/-- Entries in order are determined by what they bind. -/
theorem entries_eq_of_lookup {l l' : List (String × α)}
    (h : l.Pairwise fun a b => a.1 < b.1) (h' : l'.Pairwise fun a b => a.1 < b.1)
    (same : ∀ k, l.lookup k = l'.lookup k) : l = l' := by
  induction l generalizing l' with
  | nil =>
    cases l' with
    | nil => rfl
    | cons hd tl =>
      obtain ⟨k, v⟩ := hd
      exact absurd (same k) (by simp)
  | cons hd tl ih =>
    obtain ⟨k, v⟩ := hd
    cases l' with
    | nil => exact absurd (same k) (by simp)
    | cons hd' tl' =>
      obtain ⟨k', v'⟩ := hd'
      have hp := List.pairwise_cons.mp h
      have hp' := List.pairwise_cons.mp h'
      have hk : k = k' := by
        by_cases hlt : k < k'
        · have := same k
          rw [lookup_eq_none_of_lt (l := (k', v') :: tl')] at this
          · simp at this
          · intro e he
            rcases List.mem_cons.mp he with he | he
            · exact he ▸ hlt
            · exact String.lt_trans hlt (hp'.1 e he)
        · by_cases hlt' : k' < k
          · have := same k'
            rw [lookup_eq_none_of_lt (l := (k, v) :: tl)] at this
            · simp at this
            · intro e he
              rcases List.mem_cons.mp he with he | he
              · exact he ▸ hlt'
              · exact String.lt_trans hlt' (hp.1 e he)
          · exact String.le_antisymm (String.not_lt.mp hlt') (String.not_lt.mp hlt)
      subst hk
      have hv : v = v' := by
        have := same k
        simpa [Assoc.lookup_cons_ite] using this
      subst hv
      rw [ih hp.2 hp'.2 fun j => ?_]
      by_cases hj : j = k
      · rw [hj, lookup_eq_none_of_lt hp.1, lookup_eq_none_of_lt hp'.1]
      · have := same j
        simpa [Assoc.lookup_cons_ite, hj] using this

/-- Two maps that bind the same are equal. -/
theorem ext_get? {d e : Dict α} (h : ∀ k, d.get? k = e.get? k) : d = e := by
  obtain ⟨l, hl⟩ := d
  obtain ⟨l', hl'⟩ := e
  have := entries_eq_of_lookup hl hl' h
  subst this
  rfl

end Dict

end DiceScript
