import DiceScript.Proofs.Eval.Keeps
import DiceScript.Proofs.Parts
import DiceScript.Proofs.Store.Namespaces

/-!
# Invariants of runs

An invariant is a property of the state together with a property of the values that runs yield and
one of the nodes that may be run. `Invariant` lists what has to be shown of them: one fact for each
way in which a run changes its state, and one for each way in which it comes by a value. From these
facts `keeps_program` concludes that every run of every admitted program keeps the property, through
loops, calls and failures.

The recursion over programs is done here once. What a particular invariant says is the business of
the module that states it.
-/

namespace DiceScript.Run

/-- What makes `I` an invariant of runs in a context, where runs yield values with `V` and run nodes
with `N`. A value that is stored is never `undefined`. -/
structure Invariant (c : Context) (I : Machine → Prop) (V : Value → Prop) (N : Node → Prop) :
    Prop where
  /-- Everything in an admitted node is admitted. -/
  parts : ∀ {n}, N n → ∀ k ∈ n.parts, N k
  /-- The log, the count of iterations and the dice do not matter. -/
  upkeep : ∀ {m} log iterations dice, I m → I { m with log, iterations, dice }
  bind : ∀ {m name v}, I m → V v → v.isUndefined = false → I (m.bind name v)
  unbind : ∀ {m name}, I m → I (m.unbind name)
  push : ∀ {m frame}, I m →
    (∀ name v, frame.get? name = some v → V v ∧ v.isUndefined = false) → I (m.push frame)
  pop : ∀ {m}, I m → I m.pop
  assign : ∀ {m tier name node v s}, N (.qualifiedAssign tier name node) → I m → V v →
    v.isUndefined = false → m.store.put (Namespace.resolve tier c.identity) name v = .ok s →
    I { m with store := s }
  delete : ∀ {m tier name v s}, N (.delete (some tier) name) → I m →
    m.store.drop (Namespace.resolve tier c.identity) name = .ok (v, s) → I { m with store := s }
  define : ∀ {m s f}, V (.function f) → I m → redefines c m f = false →
    m.store.put (Namespace.resolve f.tier c.identity) f.name (.function f) = .ok s →
    I { m with store := s }
  /-- What a frame binds. -/
  frame : ∀ {m name v}, I m → m.local? name = some v → V v
  /-- What a tier binds. -/
  tier : ∀ {m} tier name, I m → V (c.qualified m tier name)
  undefined : V .undefined
  integer : ∀ n, V (.integer n)
  float : ∀ {x}, N (.float x) → V (.float x)
  string : ∀ s, V (.string s)
  boolean : ∀ b, V (.boolean b)
  list : ∀ {items : List Value}, (∀ v ∈ items, V v ∧ v.isUndefined = false) → V (.list items)
  binary : ∀ {op l r v}, V l → V r → l.isUndefined = false → r.isUndefined = false →
    Operator.binary c.options.limits op l r = .ok v → V v
  unary : ∀ {op u v}, V u → u.isUndefined = false → Operator.unary op u = .ok v → V v
  function : ∀ {name params body tier}, N (.define name params body tier) →
    firstRepeated? [] params = none →
    V (.function { name, params, body, tier := tier.getD .personal })
  body : ∀ {f}, V (.function f) → ∀ n ∈ f.body, N n

namespace Invariant

variable {c : Context} {I : Machine → Prop} {V : Value → Prop} {N : Node → Prop}

abbrev Stored (V : Value → Prop) (v : Value) : Prop := V v ∧ v.isUndefined = false

/-- A property of the store alone: it is an invariant when writes and removals in the namespaces of the
user keep it. Nothing is asked of values and programs. -/
theorem ofStore {P : Store → Prop}
    (put : ∀ {s s' tier name v}, P s →
      s.put (Namespace.resolve tier c.identity) name v = .ok s' → P s')
    (drop : ∀ {s s' tier name v}, P s →
      s.drop (Namespace.resolve tier c.identity) name = .ok (v, s') → P s') :
    Invariant c (fun m => P m.store) (fun _ => True) fun _ => True where
  parts _ _ _ := trivial
  upkeep _ _ _ hm := hm
  bind hm _ _ := hm
  unbind hm := hm
  push hm _ := hm
  pop {m} hm := by
    unfold Machine.pop
    split <;> exact hm
  assign _ hm _ _ hs := put hm hs
  delete _ hm hs := drop hm hs
  define _ hm _ hs := put hm hs
  frame _ _ := trivial
  tier _ _ _ := trivial
  undefined := trivial
  integer _ := trivial
  float _ := trivial
  string _ := trivial
  boolean _ := trivial
  list _ := trivial
  binary _ _ _ _ _ := trivial
  unary _ _ _ := trivial
  function _ _ := trivial
  body _ _ _ := trivial

/-! ## Reading and writing -/

theorem inTiers (h : Invariant c I V N) {m : Machine} (hm : I m) (name : String)
    (tiers : List Tier) : V (c.inTiers m name tiers) := by
  induction tiers with
  | nil => exact h.undefined
  | cons tier rest ih =>
    unfold Context.inTiers
    dsimp only
    split
    · exact ih
    · exact h.tier tier name hm

theorem lookup (h : Invariant c I V N) {m : Machine} (hm : I m) (name : String) :
    V (c.lookup m name) := by
  unfold Context.lookup
  split
  · rename_i v hv
    exact h.frame hm hv
  · exact h.inTiers hm name _

theorem record (h : Invariant c I V N) {m : Machine} (hm : I m) (action : String) :
    I (m.record action) :=
  h.upkeep (m.log.push action) m.iterations m.dice hm

/-- A step that puts a value in the store keeps the invariant, if the store it leaves does. -/
theorem keeps_put {tier : Tier} {name : String} {v : Value} {m : Machine} (hm : I m)
    (hput : ∀ s, m.store.put (Namespace.resolve tier c.identity) name v = .ok s →
      I { m with store := s }) :
    Ends I (fun _ => True) (putQualified c tier name v m) := by
  cases hs : m.store.put (Namespace.resolve tier c.identity) name v with
  | ok s =>
    have hrun : putQualified c tier name v m = .ok () { m with store := s } := by
      show (EStateM.bind (ofExcept (m.store.put (Namespace.resolve tier c.identity) name v)) _ m) = _
      rw [hs]
      rfl
    rw [hrun]
    exact ⟨hput s hs, trivial⟩
  | error cause =>
    have hrun : putQualified c tier name v m = .error cause m := by
      show (EStateM.bind (ofExcept (m.store.put (Namespace.resolve tier c.identity) name v)) _ m) = _
      rw [hs]
      rfl
    rw [hrun]
    exact hm

theorem keeps_assign (h : Invariant c I V N) {tier : Tier} {name : String} {node : Node} {v : Value}
    (hn : N (.qualifiedAssign tier name node)) (hv : Stored V v) :
    Keeps I (fun _ => True) (putQualified c tier name v) :=
  fun _ hm => keeps_put hm fun _ hs => h.assign hn hm hv.1 hv.2 hs

theorem keeps_writable (tier : Tier) (name : String) :
    Keeps I (fun _ => True) (writable tier name) := by
  unfold writable
  split
  · exact Keeps.throw _
  · exact Keeps.pure trivial

theorem keeps_dropQualified (h : Invariant c I V N) {tier : Tier} {name : String}
    (hn : N (.delete (some tier) name)) : Keeps I V (dropQualified c tier name) := by
  refine Keeps.bind (keeps_writable tier name) fun _ _ => Keeps.getBind fun m hm => ?_
  cases hs : m.store.drop (Namespace.resolve tier c.identity) name with
  | ok p =>
    obtain ⟨v, s⟩ := p
    have hv : V v := by
      rw [Store.drop_fst hs]
      exact h.tier tier name hm
    exact ⟨h.delete hn hm hs, hv⟩
  | error cause => exact hm

theorem keeps_unbindLocal (h : Invariant c I V N) (name : String) :
    Keeps I V (unbindLocal name) := by
  refine Keeps.getBind fun m hm => ⟨h.unbind hm, ?_⟩
  cases hv : m.frame.get? name with
  | none => exact h.undefined
  | some v =>
    have hlocal : m.local? name = some v := by simp [Machine.local?, Machine.frames, hv]
    exact h.frame hm hlocal

/-! ## Functions -/

theorem keeps_define (h : Invariant c I V N) {f : Function}
    (hf : firstRepeated? [] f.params = none → V (.function f)) : Keeps I V (Run.define c f) := by
  unfold Run.define
  split
  · exact Keeps.throw _
  · split
    · exact Keeps.throw _
    · rename_i hp
      refine Keeps.getBind fun m hm => ?_
      by_cases hr : redefines c m f = true
      · rw [if_pos hr]
        exact hm
      · rw [if_neg hr]
        have hput := keeps_put hm fun s hs => h.define (hf hp) hm (by simpa using hr) hs
        exact hput.bind fun _ m' hm' _ => ⟨hm', hf hp⟩

/-- The frame of a call binds arguments only. -/
theorem stored_of_get?_frame {params : List String} {values : List Value}
    (hvalues : ∀ v ∈ values, Stored V v) (name : String) (v : Value)
    (h : (Dict.ofList (params.zip values)).get? name = some v) : Stored V v :=
  hvalues v (List.of_mem_zip (Dict.mem_of_get?_ofList h)).2

def DeeperKeeps (I : Machine → Prop) (V : Value → Prop) (N : Node → Prop) (deeper : Deeper) : Prop :=
  ∀ run, deeper = some run → ∀ body, (∀ n ∈ body, N n) → Keeps I V (run body)

theorem keeps_callFunction (h : Invariant c I V N) {deeper : Deeper}
    (hd : DeeperKeeps I V N deeper) {name : String} {f : Function} {argCount : Nat}
    {args : Run (List Value)} (hf : V (.function f))
    (hargs : Keeps I (fun values => ∀ v ∈ values, Stored V v) args) :
    Keeps I V (callFunction c deeper name f argCount args) := by
  unfold callFunction
  split
  · exact Keeps.throw _
  · cases hdeep : deeper with
    | none => exact Keeps.throw _
    | some run =>
      refine Keeps.bind hargs fun values hvalues => ?_
      exact Keeps.inFrame (fun m hm => h.push hm (stored_of_get?_frame hvalues))
        (fun m hm => h.pop hm) (hd run hdeep f.body (h.body hf))

theorem callee (h : Invariant c I V N) {m : Machine} (hm : I m) (name : String)
    (tier : Option Tier) : V (Run.callee c m name tier) := by
  cases tier with
  | some tier => exact h.tier tier name hm
  | none => exact h.lookup hm name

theorem keeps_call (h : Invariant c I V N) {deeper : Deeper} (hd : DeeperKeeps I V N deeper)
    {name : String} {tier : Option Tier} {argCount : Nat} {args : Run (List Value)}
    (hargs : Keeps I (fun values => ∀ v ∈ values, Stored V v) args) :
    Keeps I V (call c deeper name tier argCount args) := by
  refine Keeps.bind (V := I) Keeps.get fun m hm => ?_
  have hcallee := h.callee hm name tier
  split
  · rename_i f hf
    rw [hf] at hcallee
    exact h.keeps_callFunction hd hcallee hargs
  · exact Keeps.throw _
  · exact Keeps.throw _

/-! ## Programs -/

variable {deeper : Deeper}

theorem count (h : Invariant c I V N) (m : Machine) (hm : I m) :
    I { m with iterations := m.iterations + 1 } :=
  h.upkeep m.log (m.iterations + 1) m.dice hm

theorem draw (h : Invariant c I V N) (m : Machine) (dice : Dice.Stream) (hm : I m) :
    I { m with dice } :=
  h.upkeep m.log m.iterations dice hm

/-- A loop opens an empty frame. -/
theorem keeps_loopFrame (h : Invariant c I V N) {step : Run Value} (hs : Keeps I V step) :
    Keeps I V (inFrame {} step) :=
  Keeps.inFrame (fun _ hm => h.push hm fun _ _ hv => absurd hv (by simp))
    (fun _ hm => h.pop hm) hs

mutual

/-- Running an admitted node keeps the invariant. -/
theorem keeps_evaluate (h : Invariant c I V N) (hd : DeeperKeeps I V N deeper) :
    ∀ node, N node → Keeps I V (evaluate c deeper node)
  | .integer n, _ => Keeps.pure (h.integer n)
  | .float x, hn => Keeps.pure (h.float hn)
  | .string s, _ => Keeps.pure (h.string s)
  | .boolean b, _ => Keeps.pure (h.boolean b)
  | .list items, hn => by
    rw [evaluate]
    exact Keeps.bind (keeps_operands h hd items (h.parts hn)) fun vs hvs => Keeps.pure (h.list hvs)
  | .identifier name, _ => by
    rw [evaluate]
    exact Keeps.bind Keeps.get fun m hm => Keeps.pure (h.lookup hm name)
  | .qualifiedIdentifier tier name, _ => by
    rw [evaluate]
    exact Keeps.bind Keeps.get fun m hm => Keeps.pure (h.tier tier name hm)
  | .group inner, hn => by
    rw [evaluate]
    exact keeps_evaluate h hd inner (h.parts hn inner (by simp [Node.parts]))
  | .binary op left right, hn => by
    have hl := keeps_evaluate h hd left (h.parts hn left (by simp [Node.parts]))
    have hr := keeps_evaluate h hd right (h.parts hn right (by simp [Node.parts]))
    rw [evaluate]
    refine Keeps.bind (Keeps.operand hl) fun l hl => Keeps.bind (Keeps.operand hr) fun r hr => ?_
    exact Keeps.ofExcept fun v hv => h.binary hl.1 hr.1 hl.2 hr.2 hv
  | .unary op node, hn => by
    have hu := keeps_evaluate h hd node (h.parts hn node (by simp [Node.parts]))
    rw [evaluate]
    exact Keeps.bind (Keeps.operand hu) fun u hu => Keeps.ofExcept fun v hv => h.unary hu.1 hu.2 hv
  | .dice count sides form, hn => by
    -- Faces are integers, alone or in a list, whatever the dice show.
    have hc := keeps_dieCount h hd count fun node hnode =>
      h.parts hn node (by simpa [Node.parts] using Or.inl hnode)
    have hs := keeps_evaluate h hd sides (h.parts hn sides (by simp [Node.parts]))
    rw [evaluate]
    refine Keeps.bind hc fun n _ => Keeps.bind (Keeps.dieParameter hs) fun m _ => ?_
    refine Keeps.roll (fun m action hm => h.record hm action) h.draw h.integer fun faces => ?_
    refine h.list fun v hv => ?_
    obtain ⟨n, -, rfl⟩ := List.mem_map.mp hv
    exact ⟨h.integer n, rfl⟩
  | .block statements, hn => by
    rw [evaluate]
    exact keeps_block h hd statements (h.parts hn) .undefined h.undefined
  | .assign name node, hn => by
    have hv := keeps_evaluate h hd node (h.parts hn node (by simp [Node.parts]))
    rw [evaluate]
    refine Keeps.bind (Keeps.operand hv) fun v hv => ?_
    exact Keeps.bind (Keeps.modify fun m hm => h.bind hm hv.1 hv.2) fun _ _ => Keeps.pure hv.1
  | .qualifiedAssign tier name node, hn => by
    have hv := keeps_evaluate h hd node (h.parts hn node (by simp [Node.parts]))
    rw [evaluate]
    refine Keeps.bind (keeps_writable tier name) fun _ _ => ?_
    refine Keeps.bind (Keeps.operand hv) fun v hv => ?_
    exact Keeps.bind (h.keeps_assign hn hv) fun _ _ => Keeps.pure hv.1
  | .delete none name, _ => by
    rw [evaluate]
    exact h.keeps_unbindLocal name
  | .delete (some tier) name, hn => by
    rw [evaluate]
    exact h.keeps_dropQualified hn
  | .print node, hn => by
    have hv := keeps_evaluate h hd node (h.parts hn node (by simp [Node.parts]))
    rw [evaluate]
    refine Keeps.bind (Keeps.operand hv) fun v hv => ?_
    exact Keeps.bind (Keeps.modify fun m hm => h.record hm _) fun _ _ => Keeps.pure hv.1
  | .branch test consequent alternative, hn => by
    have ht := keeps_evaluate h hd test (h.parts hn test (by simp [Node.parts]))
    rw [evaluate]
    refine Keeps.bind (Keeps.condition ht) fun b _ => ?_
    split
    · exact keeps_block h hd consequent (fun k hk => h.parts hn k (by simp [Node.parts, hk]))
        .undefined h.undefined
    · exact keeps_block h hd alternative (fun k hk => h.parts hn k (by simp [Node.parts, hk]))
        .undefined h.undefined
  | .whileLoop test body, hn => by
    have ht := keeps_evaluate h hd test (h.parts hn test (by simp [Node.parts]))
    have hb := keeps_block h hd body (fun k hk => h.parts hn k (by simp [Node.parts, hk]))
      .undefined h.undefined
    rw [evaluate]
    exact h.keeps_loopFrame
      (Keeps.whileLoop h.count (Keeps.condition ht) hb _ .undefined h.undefined)
  | .doWhile body test, hn => by
    have ht := keeps_evaluate h hd test (h.parts hn test (by simp [Node.parts]))
    have hb := keeps_block h hd body (fun k hk => h.parts hn k (by simp [Node.parts, hk]))
      .undefined h.undefined
    rw [evaluate]
    exact h.keeps_loopFrame (Keeps.doWhileLoop h.count (Keeps.condition ht) hb _)
  | .define name params body tier, hn => by
    rw [evaluate]
    exact h.keeps_define fun hp => h.function hn hp
  | .call name tier args, hn => by
    rw [evaluate]
    exact h.keeps_call hd (keeps_operands h hd args (h.parts hn))

theorem keeps_block (h : Invariant c I V N) (hd : DeeperKeeps I V N deeper) :
    ∀ nodes : List Node, (∀ n ∈ nodes, N n) → ∀ last, V last → Keeps I V (block c deeper last nodes)
  | [], _, last, hl => by
    rw [block]
    exact Keeps.pure hl
  | node :: rest, hn, last, hl => by
    have hv := keeps_evaluate h hd node (hn node List.mem_cons_self)
    rw [block]
    exact Keeps.bind hv fun v hv =>
      keeps_block h hd rest (fun k hk => hn k (List.mem_cons_of_mem _ hk)) v hv

theorem keeps_operands (h : Invariant c I V N) (hd : DeeperKeeps I V N deeper) :
    ∀ nodes : List Node, (∀ n ∈ nodes, N n) →
      Keeps I (fun values => ∀ v ∈ values, Stored V v) (operands c deeper nodes)
  | [], _ => by
    rw [operands]
    exact Keeps.pure (by simp)
  | node :: rest, hn => by
    have hv := keeps_evaluate h hd node (hn node List.mem_cons_self)
    have hr := keeps_operands h hd rest fun k hk => hn k (List.mem_cons_of_mem _ hk)
    rw [operands]
    refine Keeps.bind (Keeps.operand hv) fun v hv => Keeps.bind hr fun vs hvs => Keeps.pure ?_
    rintro u hu
    rcases List.mem_cons.mp hu with rfl | hu
    · exact hv
    · exact hvs u hu

theorem keeps_dieCount (h : Invariant c I V N) (hd : DeeperKeeps I V N deeper) :
    ∀ count : Option Node, (∀ n ∈ count, N n) → Keeps I (fun _ => True) (dieCount c deeper count)
  | none, _ => by
    rw [dieCount]
    exact Keeps.pure trivial
  | some node, hn => by
    rw [dieCount]
    exact Keeps.dieParameter (keeps_evaluate h hd node (hn node rfl))

end

/-- Whatever number of call levels is left, a body keeps the invariant: the recursion is on the
levels, since a body that the store holds is no part of the program. -/
theorem keeps_deeper (h : Invariant c I V N) (levels : Nat) :
    DeeperKeeps I V N (Run.deeper c levels) := by
  induction levels with
  | zero =>
    intro run hrun
    exact absurd hrun (by simp [Run.deeper])
  | succ levels ih =>
    -- A body runs with one level less for the calls in it.
    intro run hrun body hbody
    obtain rfl := Option.some.inj hrun
    exact keeps_block h ih body hbody .undefined h.undefined

/-- A whole run keeps the invariant and yields a value with `V`. -/
theorem keeps_program (h : Invariant c I V N) (node : Node) (hn : N node) :
    Keeps I V (program c node) :=
  keeps_evaluate h (h.keeps_deeper _) node hn

end Invariant

end DiceScript.Run
