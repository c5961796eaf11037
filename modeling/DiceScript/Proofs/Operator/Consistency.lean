import DiceScript.Operator.Apply
import DiceScript.Proofs.Number.Whole
import DiceScript.Proofs.Values.Sameness

/-!
# Comparisons fit together

Equality and order are found in different ways: integers exactly, an integer and a float as floats,
texts by their characters, lists item by item, functions by their trees. Where every float is a number
they still agree: an answer is the same in either order, each operator has its opposite, and of two
numbers or two texts exactly one is less, both are equal, or one is greater. Without floats, equality is
equality of the values themselves.

- `equal_self`, `equal_comm`, `eq_of_equal` — equality at every depth of lists.
- `exists_order` — one order behind all comparisons of two values.
- `comparisons_fit_together` — what follows for the operators.
-/

namespace DiceScript

/-! ## Operands of comparisons -/

namespace Value

def NumbersOnly (v : Value) : Prop := v.Floats fun x => x.isNaN = false

def NoFloats (v : Value) : Prop := v.Floats fun _ => False

/-- Two values that can be compared: numbers, texts, truth values or lists. -/
inductive Comparable : Value → Value → Prop where
  | numbers {l r : Value} (hl : l.isNumber = true) (hr : r.isNumber = true) : Comparable l r
  | strings (s t : String) : Comparable (.string s) (.string t)
  | booleans (b c : Bool) : Comparable (.boolean b) (.boolean c)
  | lists (as bs : List Value) : Comparable (.list as) (.list bs)

inductive Ordered : Value → Value → Prop where
  | numbers {l r : Value} (hl : l.isNumber = true) (hr : r.isNumber = true) : Ordered l r
  | strings (s t : String) : Ordered (.string s) (.string t)

theorem Comparable.symm {l r : Value} (h : Comparable l r) : Comparable r l := by
  cases h with
  | numbers hl hr => exact .numbers hr hl
  | strings s t => exact .strings t s
  | booleans b c => exact .booleans c b
  | lists as bs => exact .lists bs as

theorem Ordered.symm {l r : Value} (h : Ordered l r) : Ordered r l := by
  cases h with
  | numbers hl hr => exact .numbers hr hl
  | strings s t => exact .strings t s

theorem Ordered.comparable {l r : Value} (h : Ordered l r) : Comparable l r := by
  cases h with
  | numbers hl hr => exact .numbers hl hr
  | strings s t => exact .strings s t

end Value

namespace Operator

open Value (Comparable Ordered)

/-! ## Equality at every depth -/

mutual

theorem equal_self (v : Value) (h : v.NumbersOnly) : equal v v = true := by
  match v with
  | .list items =>
    rw [equal]
    exact equalItems_self items (Value.all_list.mp h).2
  | .float x => exact Number.beq_self h
  | .function f => exact Function.sameAs_self h
  | .integer n => simp [equal]
  | .string s => simp [equal, numbers?, Value.toNumber?, Value.sameAs]
  | .boolean b => simp [equal, numbers?, Value.toNumber?, Value.sameAs]
  | .undefined => rfl

theorem equalItems_self (items : List Value) (h : ∀ v ∈ items, v.NumbersOnly) :
    equalItems items items = true := by
  match items with
  | [] => rfl
  | v :: rest =>
    rw [List.forall_mem_cons] at h
    rw [equalItems, equal_self v h.1, equalItems_self rest h.2, Bool.and_self]

end

mutual

theorem equal_symm (l r : Value) (hl : l.NumbersOnly) (h : equal l r = true) :
    equal r l = true := by
  match l, r with
  | .list as, .list bs =>
    rw [equal] at h ⊢
    exact equalItems_symm as bs (Value.all_list.mp hl).2 h
  | .integer a, .integer b => simp_all [equal]
  | .integer a, .float b => exact (Number.beq_comm _ _).trans h
  | .float a, .integer b => exact (Number.beq_comm _ _).trans h
  | .float a, .float b => exact (Number.beq_comm _ _).trans h
  | .function f, .function g => exact Function.sameAs_symm hl h
  | .string s, .string t => simp_all [equal, numbers?, Value.toNumber?, Value.sameAs]
  | .boolean b, .boolean c => simp_all [equal, numbers?, Value.toNumber?, Value.sameAs]
  | .undefined, .undefined => rfl

theorem equalItems_symm (as bs : List Value) (ha : ∀ v ∈ as, v.NumbersOnly)
    (h : equalItems as bs = true) : equalItems bs as = true := by
  match as, bs with
  | [], [] => rfl
  | a :: as, b :: bs =>
    simp only [equalItems, Bool.and_eq_true] at h ⊢
    rw [List.forall_mem_cons] at ha
    exact ⟨equal_symm a b ha.1 h.1, equalItems_symm as bs ha.2 h.2⟩

end

theorem equal_comm {l r : Value} (hl : l.NumbersOnly) (hr : r.NumbersOnly) :
    equal l r = equal r l :=
  Bool.eq_iff_iff.mpr ⟨equal_symm l r hl, equal_symm r l hr⟩

mutual

/-- Values without floats are equal only if they are the same value. -/
theorem eq_of_equal (l r : Value) (hl : l.NoFloats) (hr : r.NoFloats) (h : equal l r = true) :
    l = r := by
  match l, r with
  | .list as, .list bs =>
    rw [equal] at h
    rw [eq_of_equalItems as bs (Value.all_list.mp hl).2 (Value.all_list.mp hr).2 h]
  | .integer a, .integer b => simp_all [equal]
  | .function f, .function g => rw [Function.eq_of_sameAs hl h]
  | .string s, .string t => simp_all [equal, numbers?, Value.toNumber?, Value.sameAs]
  | .boolean b, .boolean c => simp_all [equal, numbers?, Value.toNumber?, Value.sameAs]
  | .undefined, .undefined => rfl
  | .float a, _ => exact hl.elim
  | _, .float b => exact hr.elim

theorem eq_of_equalItems (as bs : List Value) (ha : ∀ v ∈ as, v.NoFloats)
    (hb : ∀ v ∈ bs, v.NoFloats) (h : equalItems as bs = true) : as = bs := by
  match as, bs with
  | [], [] => rfl
  | a :: as, b :: bs =>
    rw [equalItems, Bool.and_eq_true] at h
    rw [List.forall_mem_cons] at ha hb
    rw [eq_of_equal a b ha.1 hb.1 h.1, eq_of_equalItems as bs ha.2 hb.2 h.2]

end

theorem length_eq_of_equalItems {as bs : List Value} (h : equalItems as bs = true) :
    as.length = bs.length := by
  induction as generalizing bs with
  | nil => cases bs <;> simp_all [equalItems]
  | cons a rest ih =>
    cases bs with
    | nil => simp [equalItems] at h
    | cons b more =>
      rw [equalItems, Bool.and_eq_true] at h
      rw [List.length_cons, List.length_cons, ih h.2]

/-! ## One order behind the comparisons -/

theorem swap_intOrder (a b : Int64) : (intOrder a b).swap = intOrder b a := by
  unfold intOrder
  split_ifs <;> first | rfl | omega

theorem intOrder_eq_iff {a b : Int64} : intOrder a b = .eq ↔ a = b := by
  rw [intOrder, ← Int64.toInt_inj]
  split_ifs with hlt heq
  · simp [hlt.ne]
  · simp [heq]
  · simp [heq]

theorem swap_textOrder (s t : String) : (textOrder s t).swap = textOrder t s := by
  unfold textOrder
  by_cases hst : s < t
  · simp [hst, String.lt_asymm hst, (ne_of_irrefl hst).symm]
  · by_cases heq : s = t
    · simp [heq]
    · have hts : t < s := Std.lt_of_le_of_ne (String.not_lt.mp hst) (Ne.symm heq)
      simp [hst, heq, hts]

theorem textOrder_eq_iff {s t : String} : textOrder s t = .eq ↔ s = t := by
  rw [textOrder]
  split_ifs with hlt heq
  · simp [ne_of_irrefl hlt]
  · simp [heq]
  · simp [heq]

/-- `o` is the order of `l` and `r`: all comparisons of the two follow from it, in both directions. -/
structure Orders (l r : Value) (o : Ordering) : Prop where
  forth (op : BinaryOp) (accept : Ordering → Bool) :
    ordering op accept l r = .ok (.boolean (accept o))
  back (op : BinaryOp) (accept : Ordering → Bool) :
    ordering op accept r l = .ok (.boolean (accept o.swap))
  equal_iff : equal l r = true ↔ o = .eq

theorem Orders.symm {l r : Value} {o : Ordering} (h : Orders l r o) (hl : l.NumbersOnly)
    (hr : r.NumbersOnly) : Orders r l o.swap where
  forth := h.back
  back op accept := by rw [Ordering.swap_swap, h.forth]
  equal_iff := by
    rw [equal_comm hr hl, h.equal_iff]
    cases o <;> decide

theorem orders_integers (a b : Int64) : Orders (.integer a) (.integer b) (intOrder a b) where
  forth _ _ := rfl
  back _ _ := by rw [swap_intOrder]; rfl
  equal_iff := by rw [equal, beq_iff_eq, intOrder_eq_iff]

theorem orders_strings (s t : String) : Orders (.string s) (.string t) (textOrder s t) where
  forth _ _ := rfl
  back _ _ := by rw [swap_textOrder]; rfl
  equal_iff := by
    rw [textOrder_eq_iff]
    simp [equal, numbers?, Value.toNumber?, Value.sameAs]

theorem isNaN_toNumber? {v : Value} {x : Float} (h : v.NumbersOnly) (hx : v.toNumber? = some x) :
    x.isNaN = false := by
  cases v with
  | float y =>
    obtain rfl := Option.some.inj hx
    exact h
  | integer n =>
    obtain rfl := Option.some.inj hx
    have hlow := n.le_toInt
    have hhigh := n.toInt_lt
    exact Number.isNaN_of_isFinite (Number.isFinite_ofInt (by omega))
  | _ => cases hx

theorem exists_toNumber? {v : Value} (h : v.isNumber = true) : ∃ x, v.toNumber? = some x := by
  cases v <;> first | exact ⟨_, rfl⟩ | cases h

/-- Two numbers that are not both integers are compared as floats. -/
theorem exists_orders_floats {l r : Value} {x y : Float} (hx : l.toNumber? = some x)
    (hy : r.toNumber? = some y) (hnx : x.isNaN = false) (hny : y.isNaN = false)
    (hmixed : ¬ (l.type = .integer ∧ r.type = .integer)) : ∃ o, Orders l r o := by
  obtain ⟨o, ho⟩ := Number.exists_order hnx hny
  have hforth : ∀ op accept, ordering op accept l r = .ok (.boolean (accept o)) := by
    intro op accept
    have hfloat : floatOrder? x y = some o := by rw [floatOrder?_eq, ho]
    cases l <;> cases r <;> simp_all [ordering, numbers?, Value.toNumber?, Value.type]
  have hback : ∀ op accept, ordering op accept r l = .ok (.boolean (accept o.swap)) := by
    intro op accept
    have hfloat : floatOrder? y x = some o.swap := by
      rw [floatOrder?_eq, ← Number.swap_order?, ho, Option.map_some]
    cases l <;> cases r <;> simp_all [ordering, numbers?, Value.toNumber?, Value.type]
  have hequal : equal l r = (x == y) := by
    cases l <;> cases r <;> simp_all [equal, numbers?, Value.toNumber?, Value.type]
  refine ⟨o, hforth, hback, ?_⟩
  rw [hequal, Number.beq_iff, ho, Option.some_inj]

/-- Behind all comparisons of two values there is one order. -/
theorem exists_order {l r : Value} (h : Ordered l r) (hl : l.NumbersOnly) (hr : r.NumbersOnly) :
    ∃ o, Orders l r o := by
  cases h with
  | strings s t => exact ⟨_, orders_strings s t⟩
  | numbers hnl hnr =>
    by_cases hmixed : l.type = .integer ∧ r.type = .integer
    · obtain ⟨a, rfl⟩ : ∃ a, l = .integer a := by cases l <;> simp_all [Value.type]
      obtain ⟨b, rfl⟩ : ∃ b, r = .integer b := by cases r <;> simp_all [Value.type]
      exact ⟨_, orders_integers a b⟩
    · obtain ⟨x, hx⟩ := exists_toNumber? hnl
      obtain ⟨y, hy⟩ := exists_toNumber? hnr
      exact exists_orders_floats hx hy (isNaN_toNumber? hl hx) (isNaN_toNumber? hr hy) hmixed

/-! ## Refusals -/

theorem comparable_iff {l r : Value} : comparable l r = true ↔ Comparable l r := by
  unfold comparable
  split
  · exact iff_of_true rfl (.strings _ _)
  · exact iff_of_true rfl (.booleans _ _)
  · exact iff_of_true rfl (.lists _ _)
  · rename_i hstrings hbooleans hlists
    rw [Bool.and_eq_true]
    constructor
    · rintro ⟨hl, hr⟩
      exact .numbers hl hr
    · intro h
      cases h with
      | numbers hl hr => exact ⟨hl, hr⟩
      | strings s t => exact (hstrings s t rfl rfl).elim
      | booleans b c => exact (hbooleans b c rfl rfl).elim
      | lists as bs => exact (hlists as bs rfl rfl).elim

theorem isNumber_of_numbers? {l r : Value} {p : Float × Float} (h : numbers? l r = some p) :
    l.isNumber = true ∧ r.isNumber = true := by
  cases l <;> cases r <;> first | exact ⟨rfl, rfl⟩ | cases h

theorem equality_of_comparable {l r : Value} (h : Comparable l r) (op : BinaryOp) (negated : Bool) :
    equality op negated l r = .ok (.boolean (equal l r != negated)) :=
  if_pos (comparable_iff.mpr h)

theorem equality_refuses {l r : Value} (h : ¬ Comparable l r) (op : BinaryOp) (negated : Bool) :
    equality op negated l r = refuse op l r :=
  if_neg (mt comparable_iff.mp h)

theorem ordering_refuses {l r : Value} (h : ¬ Ordered l r) (op : BinaryOp)
    (accept : Ordering → Bool) : ordering op accept l r = refuse op l r := by
  unfold ordering
  split
  · exact absurd (.numbers rfl rfl) h
  · exact absurd (.strings _ _) h
  · split
    · rfl
    · rename_i hnumbers
      obtain ⟨hl, hr⟩ := isNumber_of_numbers? hnumbers
      exact absurd (.numbers hl hr) h

/-! ## The operators -/

def Answers (limits : Limits) (op : BinaryOp) (l r : Value) (answer : Bool) : Prop :=
  binary limits op l r = .ok (.boolean answer)

def Refuses (limits : Limits) (op : BinaryOp) (l r : Value) : Prop :=
  ∃ cause, binary limits op l r = .error cause

variable (limits : Limits) {l r : Value}

theorem refuses_equality (h : ¬ Comparable l r) :
    Refuses limits .eq l r ∧ Refuses limits .ne l r :=
  ⟨⟨_, equality_refuses h .eq false⟩, ⟨_, equality_refuses h .ne true⟩⟩

theorem refuses_ordering (h : ¬ Ordered l r) {op : BinaryOp} (hop : op ∈ [.gt, .ge, .le, .lt]) :
    Refuses limits op l r := by
  have hrefuses := ordering_refuses h op
  fin_cases hop <;> simp only [Refuses, binary, hrefuses] <;> exact ⟨_, rfl⟩

theorem answers_eq (h : Comparable l r) : Answers limits .eq l r (equal l r) := by
  simp [Answers, binary, equality_of_comparable h]

theorem answers_ne (h : Comparable l r) : Answers limits .ne l r (!equal l r) := by
  simp [Answers, binary, equality_of_comparable h]

theorem answers_self (hl : l.NumbersOnly) (h : ¬ Refuses limits .eq l l) :
    Answers limits .eq l l true := by
  have hcomparable : Comparable l l := by
    by_contra hrefused
    exact h (refuses_equality limits hrefused).1
  have hanswer := answers_eq limits hcomparable
  rwa [equal_self l hl] at hanswer

/-- Less, turned round greater, and the opposites of both. -/
theorem Orders.answers {o : Ordering} (h : Orders l r o) :
    Answers limits .lt l r (o == .lt) ∧ Answers limits .gt r l (o == .lt) ∧
      Answers limits .ge l r (!(o == .lt)) ∧ Answers limits .le r l (!(o == .lt)) := by
  have hswap : (o == .lt) = (o.swap == .gt) := by cases o <;> rfl
  refine ⟨h.forth .lt (· == .lt), ?_, h.forth .ge (· != .lt), ?_⟩
  · rw [hswap]
    exact h.back .gt (· == .gt)
  · rw [hswap]
    exact h.back .le (· != .gt)

/-- All comparisons of two values with an order. -/
theorem answers_ordered (h : Ordered l r) (hl : l.NumbersOnly) (hr : r.NumbersOnly) :
    ∃ less same greater : Bool,
      Answers limits .lt l r less ∧ Answers limits .gt r l less ∧
      Answers limits .ge l r (!less) ∧ Answers limits .le r l (!less) ∧
      Answers limits .gt l r greater ∧ Answers limits .lt r l greater ∧
      Answers limits .le l r (!greater) ∧ Answers limits .ge r l (!greater) ∧
      Answers limits .eq l r same ∧
      (less, same, greater) ∈ [(true, false, false), (false, true, false), (false, false, true)] := by
  obtain ⟨o, horders⟩ := exists_order h hl hr
  have hsame : equal l r = (o == .eq) := by
    rw [Bool.eq_iff_iff, horders.equal_iff, beq_iff_eq]
  obtain ⟨hlt, hgt, hge, hle⟩ := horders.answers limits
  obtain ⟨hlt', hgt', hge', hle'⟩ := (horders.symm hl hr).answers limits
  refine ⟨_, _, _, hlt, hgt, hge, hle, hgt', hlt', hle', hge',
    answers_eq limits h.comparable, ?_⟩
  rw [hsame]
  cases o <;> decide

/-- **Comparisons fit together.** Let every float in two values be a number. Equality and inequality
are asked of numbers, texts, truth values and lists only, and answer oppositely and the same in either
order. The orders are asked of numbers and texts only; turned round they answer the same, and exactly
one of less, equal and greater holds. Without floats equality is that of the values themselves, and so
lists of other lengths or with items of other types are unequal. -/
theorem comparisons_fit_together (hl : l.NumbersOnly) (hr : r.NumbersOnly) :
    (Comparable l r → ∃ same : Bool,
      Answers limits .eq l r same ∧ Answers limits .ne l r (!same) ∧
      Answers limits .eq r l same ∧ Answers limits .ne r l (!same)) ∧
    (¬ Comparable l r → ∀ op ∈ [BinaryOp.eq, .ne], Refuses limits op l r ∧ Refuses limits op r l) ∧
    (¬ Refuses limits .eq l l → Answers limits .eq l l true) ∧
    (Ordered l r → ∃ less same greater : Bool,
      Answers limits .lt l r less ∧ Answers limits .gt r l less ∧
      Answers limits .ge l r (!less) ∧ Answers limits .le r l (!less) ∧
      Answers limits .gt l r greater ∧ Answers limits .lt r l greater ∧
      Answers limits .le l r (!greater) ∧ Answers limits .ge r l (!greater) ∧
      Answers limits .eq l r same ∧
      (less, same, greater) ∈ [(true, false, false), (false, true, false), (false, false, true)]) ∧
    (¬ Ordered l r → ∀ op ∈ [BinaryOp.gt, .ge, .le, .lt],
      Refuses limits op l r ∧ Refuses limits op r l) ∧
    (l.NoFloats → r.NoFloats → Comparable l r →
      (l = r → Answers limits .eq l r true) ∧ (l ≠ r → Answers limits .eq l r false)) ∧
    (∀ as bs : List Value, l = .list as → r = .list bs → as.length ≠ bs.length →
      Answers limits .eq l r false) ∧
    (∀ as bs : List Value, l = .list as → r = .list bs → l.NoFloats → r.NoFloats →
      as.map Value.type ≠ bs.map Value.type → Answers limits .eq l r false) := by
  have hunequal : Comparable l r → equal l r = false → Answers limits .eq l r false := by
    intro h hfalse
    rw [← hfalse]
    exact answers_eq limits h
  have hstructural : l.NoFloats → r.NoFloats → l ≠ r → equal l r = false := by
    intro hnl hnr hne
    exact Bool.eq_false_iff.mpr fun h => hne (eq_of_equal l r hnl hnr h)
  refine ⟨?_, ?_, answers_self limits hl, fun h => answers_ordered limits h hl hr, ?_, ?_, ?_, ?_⟩
  · intro h
    refine ⟨_, answers_eq limits h, answers_ne limits h, ?_⟩
    rw [equal_comm hl hr]
    exact ⟨answers_eq limits h.symm, answers_ne limits h.symm⟩
  · intro h op hop
    have hforth := refuses_equality limits h
    have hback := refuses_equality limits (mt Comparable.symm h)
    fin_cases hop
    · exact ⟨hforth.1, hback.1⟩
    · exact ⟨hforth.2, hback.2⟩
  · intro h op hop
    exact ⟨refuses_ordering limits h hop, refuses_ordering limits (mt Ordered.symm h) hop⟩
  · intro hnl hnr h
    constructor
    · rintro rfl
      rw [← equal_self l hl]
      exact answers_eq limits h
    · intro hne
      exact hunequal h (hstructural hnl hnr hne)
  · rintro as bs rfl rfl hlength
    have hfalse : equalItems as bs = false :=
      Bool.eq_false_iff.mpr fun h => hlength (length_eq_of_equalItems h)
    exact hunequal (.lists as bs) (by rw [equal, hfalse])
  · rintro as bs rfl rfl hnl hnr htypes
    refine hunequal (.lists as bs) (hstructural hnl hnr ?_)
    rintro ⟨⟩
    exact htypes rfl

/-- The least integer that is not a float equals the float next to it, so it is not greater. -/
theorem comparisons_fit_together_rounded :
    (Value.integer 9007199254740993).NumbersOnly ∧ (Value.float 9007199254740992.0).NumbersOnly ∧
      Answers {} .eq (.integer 9007199254740993) (.float 9007199254740992.0) true ∧
      Answers {} .gt (.integer 9007199254740993) (.float 9007199254740992.0) false ∧
      Answers {} .le (.integer 9007199254740993) (.float 9007199254740992.0) true ∧
      Answers {} .ge (.float 9007199254740992.0) (.integer 9007199254740993) true := by
  have hl : (Value.integer 9007199254740993).NumbersOnly := Value.all_integer.mpr trivial
  have hnumber : (9007199254740992.0 : Float).isNaN = false := by decide +kernel
  have hr : (Value.float 9007199254740992.0).NumbersOnly := Value.all_float.mpr hnumber
  have hequal : equal (.integer 9007199254740993) (.float 9007199254740992.0) = true := by
    decide +kernel
  obtain ⟨-, -, -, hordered, -⟩ := comparisons_fit_together {} hl hr
  obtain ⟨less, same, greater, -, -, -, -, hgt, -, hle, hge, heq, hone⟩ := hordered (.numbers rfl rfl)
  have hequals : Answers {} .eq (.integer 9007199254740993) (.float 9007199254740992.0) true := by
    rw [← hequal]
    exact answers_eq {} (.numbers rfl rfl)
  obtain rfl : same = true := by simpa [Answers] using heq.symm.trans hequals
  obtain rfl : greater = false := by simp_all
  exact ⟨hl, hr, heq, hgt, hle, hge⟩

end Operator

end DiceScript
