/-! # Lists of keys and values

What looking up a key in a list of pairs gives after the list has been changed. The first pair of a
key counts.
-/

namespace DiceScript.Assoc

universe u v

variable {κ : Type u} {α : Type v} [BEq κ] [LawfulBEq κ] [DecidableEq κ]

theorem lookup_cons_ite (k k' : κ) (a : α) (l : List (κ × α)) :
    ((k', a) :: l).lookup k = if k = k' then some a else l.lookup k := by
  by_cases h : k = k'
  · rw [h, List.lookup_cons_self, if_pos rfl]
  · rw [if_neg h, List.lookup_cons, beq_false_of_ne h]

theorem lookup_filter_ne (l : List (κ × α)) (k k' : κ) :
    (l.filter (·.1 != k)).lookup k' = if k' = k then none else l.lookup k' := by
  induction l with
  | nil => simp
  | cons hd tl ih =>
    obtain ⟨k₁, a⟩ := hd
    by_cases h : k₁ = k
    · subst h
      rw [List.filter_cons_of_neg (by simp), ih, lookup_cons_ite]
      by_cases h' : k' = k₁ <;> simp [h']
    · rw [List.filter_cons_of_pos (by simpa using h), lookup_cons_ite, lookup_cons_ite, ih]
      by_cases h' : k' = k₁
      · subst h'
        simp [h]
      · simp [h']

end DiceScript.Assoc
