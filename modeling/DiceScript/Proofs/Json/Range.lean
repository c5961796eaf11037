import DiceScript.Proofs.Json.Numbers
import DiceScript.Proofs.Number.Whole
import DiceScript.Proofs.Parts

/-!
# The numbers of documents

The reader makes an integer only of a token that fits 64 bits, and a float only of one that is within
the range of floats; every other token is kept as unreadable. So the floats of a document that was
read are finite, and so is the float that one of its integers stands for.

- `InRange` — the numbers of a document are ones that the reader makes.
- `inRange_of_parse?` — every document that was read is of that kind.
-/

namespace DiceScript.Json

/-- The numbers of a document are integers of 64 bits and finite floats. -/
def InRange : Json → Prop :=
  All fun
    | .int n => Integral n
    | .float x => x.isFinite
    | _ => True

theorem inRange_int {n : Int} (h : Integral n) : InRange (.int n) := .intro h (by simp [parts])

theorem inRange_float {x : Float} (h : x.isFinite) : InRange (.float x) := .intro h (by simp [parts])

theorem inRange_str (s : String) : InRange (.str s) := .intro trivial (by simp [parts])

theorem inRange_unreadable : InRange .unreadable := .intro trivial (by simp [parts])

theorem inRange_arr {items : List Json} (h : ∀ j ∈ items, j.InRange) : InRange (.arr items) :=
  .intro trivial h

theorem inRange_obj {members : List (String × Json)} (h : ∀ m ∈ members, m.2.InRange) :
    InRange (.obj members) :=
  .intro trivial (List.forall_mem_map.mpr h)

/-- A float that is read from a part of a document is finite. -/
theorem isFinite_of_toFloat? {j : Json} {x : Float} (hj : j.InRange) (h : toFloat? j = some x) :
    x.isFinite := by
  cases j with
  | int n =>
    obtain rfl := Option.some.inj h
    have hn : Integral n := hj.self
    unfold Integral at hn
    exact Number.isFinite_ofInt (by omega)
  | float y =>
    obtain rfl := Option.some.inj h
    exact hj.self
  | _ => cases h

/-! ## Numbers -/

theorem isFinite_of_floatOfDecimal? {negative : Bool} {digits : Nat} {exponent : Int} {x : Float}
    (h : floatOfDecimal? negative digits exponent = some x) : x.isFinite := by
  unfold floatOfDecimal? at h
  obtain ⟨y, hy, rfl⟩ := Option.map_eq_some_iff.mp h
  have hfinite : y.isFinite := by
    split at hy
    · obtain rfl := Option.some.inj hy
      decide
    · split at hy
      · cases hy
      · dsimp only at hy
        split at hy
        · rename_i hx
          rwa [← Option.some.inj hy]
        · cases hy
  split
  · exact Number.Binary.isFinite_neg hfinite
  · exact hfinite

theorem inRange_ofWhole (negative : Bool) (n : Nat) : (ofWhole negative n).InRange := by
  obtain ⟨j, hj, heq⟩ : ∃ j, j.InRange ∧ ofWhole negative n =
      if negative then
        if n == 0 || 9223372036854775808 < n then j else .int (-(n : Int))
      else if n < UInt64.size then .int n else j := by
    unfold ofWhole
    cases hx : floatOfDecimal? negative n 0 with
    | some x => exact ⟨.float x, inRange_float (isFinite_of_floatOfDecimal? hx), rfl⟩
    | none => exact ⟨.unreadable, inRange_unreadable, rfl⟩
  rw [heq]
  split
  · split
    · exact hj
    · rename_i hn
      refine inRange_int ⟨?_, ?_⟩ <;> simp at hn <;> omega
  · split
    · rename_i hn
      have hn : n < 18446744073709551616 := hn
      refine inRange_int ⟨?_, ?_⟩ <;> omega
    · exact hj

theorem inRange_of_readMagnitude {negative : Bool} {cs rest : List Char} {j : Json}
    (h : readMagnitude negative cs = some (j, rest)) : j.InRange := by
  unfold readMagnitude at h
  dsimp only at h
  split at h
  · cases h
  · cases h
  · split at h
    · cases h
    · split at h
      · cases h
      · split at h
        · obtain ⟨rfl, -⟩ := Prod.mk.inj (Option.some.inj h)
          exact inRange_ofWhole _ _
        · split at h
          · rename_i hx
            obtain ⟨rfl, -⟩ := Prod.mk.inj (Option.some.inj h)
            exact inRange_float (isFinite_of_floatOfDecimal? hx)
          · obtain ⟨rfl, -⟩ := Prod.mk.inj (Option.some.inj h)
            exact inRange_unreadable

theorem inRange_of_readNumber {cs rest : List Char} {j : Json}
    (h : readNumber cs = some (j, rest)) : j.InRange := by
  unfold readNumber at h
  split at h
  · exact inRange_of_readMagnitude h
  · exact inRange_of_readMagnitude h

/-! ## Documents -/

theorem inRange_ofMembers? {found : Option (List (String × Json))}
    (h : ∀ members, found = some members → ∀ m ∈ members, m.2.InRange) :
    (ofMembers? found).InRange := by
  cases found with
  | none => exact inRange_unreadable
  | some members => exact inRange_obj fun m hm => h members rfl m (List.mem_reverse.mp hm)

mutual

theorem inRange_of_readValue (fuel : Nat) {cs rest : List Char} {j : Json}
    (h : readValue fuel cs = some (j, rest)) : j.InRange := by
  match fuel with
  | 0 =>
    rw [readValue] at h
    cases h
  | fuel + 1 =>
    rw [readValue] at h
    split at h
    · obtain ⟨rfl, -⟩ := Prod.mk.inj (Option.some.inj h)
      exact .intro trivial (by simp [parts])
    · obtain ⟨rfl, -⟩ := Prod.mk.inj (Option.some.inj h)
      exact .intro trivial (by simp [parts])
    · obtain ⟨rfl, -⟩ := Prod.mk.inj (Option.some.inj h)
      exact .intro trivial (by simp [parts])
    · obtain ⟨⟨s, _⟩, _, heq⟩ := Option.map_eq_some_iff.mp h
      obtain ⟨rfl, -⟩ := Prod.mk.inj heq
      cases s with
      | some s => exact inRange_str s
      | none => exact inRange_unreadable
    · split at h
      · obtain ⟨rfl, -⟩ := Prod.mk.inj (Option.some.inj h)
        exact inRange_arr (by simp)
      · exact inRange_of_readItems fuel (by simp) h
    · split at h
      · obtain ⟨rfl, -⟩ := Prod.mk.inj (Option.some.inj h)
        exact inRange_obj (by simp)
      · exact inRange_of_readMembers fuel (by simp) h
    · exact inRange_of_readNumber h

theorem inRange_of_readItems (fuel : Nat) {found : List Json} {cs rest : List Char} {j : Json}
    (hfound : ∀ k ∈ found, k.InRange) (h : readItems fuel found cs = some (j, rest)) :
    j.InRange := by
  match fuel with
  | 0 =>
    rw [readItems] at h
    cases h
  | fuel + 1 =>
    rw [readItems] at h
    split at h
    · cases h
    · rename_i v _ hv
      have hall : ∀ k ∈ v :: found, k.InRange :=
        List.forall_mem_cons.mpr ⟨inRange_of_readValue fuel hv, hfound⟩
      split at h
      · exact inRange_of_readItems fuel hall h
      · obtain ⟨rfl, -⟩ := Prod.mk.inj (Option.some.inj h)
        exact inRange_arr fun k hk => hall k (List.mem_reverse.mp hk)
      · cases h

theorem inRange_of_readMembers (fuel : Nat) {found : Option (List (String × Json))}
    {cs rest : List Char} {j : Json}
    (hfound : ∀ members, found = some members → ∀ m ∈ members, m.2.InRange)
    (h : readMembers fuel found cs = some (j, rest)) : j.InRange := by
  match fuel with
  | 0 =>
    rw [readMembers] at h
    cases h
  | fuel + 1 =>
    rw [readMembers] at h
    split at h
    · split at h
      · cases h
      · rename_i name _ _
        split at h
        · split at h
          · cases h
          · rename_i v _ hv
            have hv := inRange_of_readValue fuel hv
            -- After a name that denotes nothing no members are collected, but they are read on.
            have hall : ∀ members, (match name, found with
                | some name, some found => some ((name, v) :: found)
                | _, _ => none) = some members → ∀ m ∈ members, m.2.InRange := by
              intro members hmembers
              split at hmembers
              · obtain rfl := Option.some.inj hmembers
                exact List.forall_mem_cons.mpr ⟨hv, hfound _ rfl⟩
              · cases hmembers
            dsimp only at h
            split at h
            · exact inRange_of_readMembers fuel hall h
            · obtain ⟨rfl, -⟩ := Prod.mk.inj (Option.some.inj h)
              exact inRange_ofMembers? hall
            · cases h
        · cases h
    · cases h

end

/-- The numbers of a document that was read are in range. -/
theorem inRange_of_parse? {text : String} {j : Json} (h : parse? text = some j) : j.InRange := by
  unfold parse? at h
  dsimp only at h
  split at h
  · rename_i hread
    split at h
    · obtain rfl := Option.some.inj h
      exact inRange_of_readValue _ hread
    · cases h
  · cases h

end DiceScript.Json
