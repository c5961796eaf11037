import DiceScript.Interpreter
import DiceScript.Proofs.Recursion.Shape

/-!
# Brackets and nested blocks

Brackets leave no trace in what a program does, and neither does a block that stands as a statement
among others. `Regroups` says that a program is another one with some of its brackets taken off and
some of its nested blocks opened, anywhere but in the bodies of definitions, which are values and can
be looked at. Two such programs go the same way, step by step. The only place where the difference
shows is the message that a node produced no value: it names the kind of the node.

- `Node.Regroups` — the rewriting, with `RegroupsItems` and `RegroupsStatements` for lists.
- `Run.Reworded`, `Run.Rewords` — results and steps that are the same but for that message.
- `rewords_evaluate` — running a rewritten node.
- `grouping_is_transparent` — whole programs.
-/

namespace DiceScript

/-! ## Rewriting -/

namespace Node

mutual

/-- The second program is the first one with some brackets taken off and some nested blocks opened.
What a definition defines stays as it is. -/
inductive Regroups : Node → Node → Prop where
  | refl (node : Node) : Regroups node node
  | ungroup {inner inner' : Node} : Regroups inner inner' → Regroups (.group inner) inner'
  | group {inner inner' : Node} : Regroups inner inner' → Regroups (.group inner) (.group inner')
  | list {items items' : List Node} :
      RegroupsItems items items' → Regroups (.list items) (.list items')
  | binary {left left' right right' : Node} (op : BinaryOp) :
      Regroups left left' → Regroups right right' →
      Regroups (.binary op left right) (.binary op left' right')
  | unary {operand operand' : Node} (op : UnaryOp) :
      Regroups operand operand' → Regroups (.unary op operand) (.unary op operand')
  | die {sides sides' : Node} (form : DieForm) :
      Regroups sides sides' → Regroups (.dice none sides form) (.dice none sides' form)
  | dice {count count' sides sides' : Node} (form : DieForm) :
      Regroups count count' → Regroups sides sides' →
      Regroups (.dice (some count) sides form) (.dice (some count') sides' form)
  | block {statements statements' : List Node} :
      RegroupsStatements statements statements' →
      Regroups (.block statements) (.block statements')
  | assign {value value' : Node} (name : String) :
      Regroups value value' → Regroups (.assign name value) (.assign name value')
  | qualifiedAssign {value value' : Node} (tier : Tier) (name : String) :
      Regroups value value' →
      Regroups (.qualifiedAssign tier name value) (.qualifiedAssign tier name value')
  | print {value value' : Node} : Regroups value value' → Regroups (.print value) (.print value')
  | branch {condition condition' : Node}
      {consequent consequent' alternative alternative' : List Node} :
      Regroups condition condition' → RegroupsStatements consequent consequent' →
      RegroupsStatements alternative alternative' →
      Regroups (.branch condition consequent alternative)
        (.branch condition' consequent' alternative')
  | whileLoop {condition condition' : Node} {body body' : List Node} :
      Regroups condition condition' → RegroupsStatements body body' →
      Regroups (.whileLoop condition body) (.whileLoop condition' body')
  | doWhile {condition condition' : Node} {body body' : List Node} :
      RegroupsStatements body body' → Regroups condition condition' →
      Regroups (.doWhile body condition) (.doWhile body' condition')
  | call {args args' : List Node} (name : String) (tier : Option Tier) :
      RegroupsItems args args' → Regroups (.call name tier args) (.call name tier args')

inductive RegroupsItems : List Node → List Node → Prop where
  | nil : RegroupsItems [] []
  | cons {node node' : Node} {rest rest' : List Node} :
      Regroups node node' → RegroupsItems rest rest' →
      RegroupsItems (node :: rest) (node' :: rest')

/-- Statements that are rewritten one by one, where a block that is not empty may be opened. -/
inductive RegroupsStatements : List Node → List Node → Prop where
  | nil : RegroupsStatements [] []
  | cons {node node' : Node} {rest rest' : List Node} :
      Regroups node node' → RegroupsStatements rest rest' →
      RegroupsStatements (node :: rest) (node' :: rest')
  | splice {node first : Node} {inner rest rest' : List Node} :
      Regroups node (.block (first :: inner)) → RegroupsStatements rest rest' →
      RegroupsStatements (node :: rest) (first :: inner ++ rest')

end

/-- Names are read through brackets. -/
theorem Regroups.readsName?_eq {node node' : Node} :
    Regroups node node' → node'.readsName? = node.readsName?
  | .ungroup h => h.readsName?_eq
  | .group h => h.readsName?_eq
  | .refl _ | .list _ | .binary .. | .unary .. | .die .. | .dice .. | .block _ | .assign .. => rfl
  | .qualifiedAssign .. | .print _ | .branch .. | .whileLoop .. | .doWhile .. | .call .. => rfl

/-- Where the kind of a node has changed, brackets have been taken off. -/
theorem Regroups.kindName_eq_or {node node' : Node} (h : Regroups node node') :
    node'.kindName = node.kindName ∨ ∃ inner, node = .group inner := by
  cases h with
  | ungroup _ => exact .inr ⟨_, rfl⟩
  | _ => exact .inl rfl

theorem RegroupsItems.length_eq {items items' : List Node} :
    RegroupsItems items items' → items'.length = items.length
  | .nil => rfl
  | .cons _ h => by rw [List.length_cons, List.length_cons, h.length_eq]

end Node

namespace Run

/-! ## Results and steps that are the same but for a message -/

section Steps

variable {α β : Type}

/-- The second result is the first one, or both say that a node produced no value, the first of a node
in brackets. -/
inductive Reworded : EStateM.Result Cause Machine α → EStateM.Result Cause Machine α → Prop where
  | same (result : EStateM.Result Cause Machine α) : Reworded result result
  | noValue (inner node : Node) (m : Machine) :
      Reworded (.error (.noValue (Node.group inner).kindName) m) (.error (.noValue node.kindName) m)

def Rewords (step step' : Run α) : Prop :=
  ∀ m, Reworded (step m) (step' m)

namespace Rewords

theorem refl (step : Run α) : Rewords step step :=
  fun m => .same (step m)

theorem bind {step step' : Run α} {next next' : α → Run β} (h : Rewords step step')
    (hnext : ∀ a, Rewords (next a) (next' a)) : Rewords (step >>= next) (step' >>= next') := by
  intro m
  show Reworded (EStateM.bind step next m) (EStateM.bind step' next' m)
  unfold EStateM.bind
  cases hm : step m with
  | ok a m' =>
    have hr := h m
    rw [hm] at hr
    generalize step' m = r at hr ⊢
    cases hr
    exact hnext a m'
  | error cause m' =>
    have hr := h m
    rw [hm] at hr
    generalize step' m = r at hr ⊢
    cases hr with
    | same => exact .same _
    | noValue inner node => exact .noValue inner node m'

/-- What comes after the same step. -/
theorem after (step : Run α) {next next' : α → Run β} (h : ∀ a, Rewords (next a) (next' a)) :
    Rewords (step >>= next) (step >>= next') :=
  bind (refl step) h

/-- The same step after what may be reworded. -/
theorem andThen {step step' : Run α} (h : Rewords step step') (next : α → Run β) :
    Rewords (step >>= next) (step' >>= next) :=
  bind h fun a => refl (next a)

theorem inFrame (frame : Bindings) {step step' : Run α} (h : Rewords step step') :
    Rewords (Run.inFrame frame step) (Run.inFrame frame step') := by
  intro m
  have hr := h (m.push frame)
  unfold Run.inFrame
  generalize step (m.push frame) = r, step' (m.push frame) = r' at hr ⊢
  cases hr with
  | same => exact .same _
  | noValue inner node m' => exact .noValue inner node m'.pop

section Operands

variable {node node' : Node} {step step' : Run Value}

theorem operand (hnode : node.Regroups node') (h : Rewords step step') :
    Rewords (Run.operand node step) (Run.operand node' step') := by
  refine bind h fun v => ?_
  rw [hnode.readsName?_eq]
  split
  · split
    · exact refl _
    · -- Here alone the text of a program shows.
      rcases hnode.kindName_eq_or with hkind | ⟨inner, rfl⟩
      · rw [hkind]
        exact refl _
      · exact fun m => .noValue inner node' m
  · exact refl _

theorem condition (hnode : node.Regroups node') (h : Rewords step step') :
    Rewords (Run.condition node step) (Run.condition node' step') :=
  andThen (operand hnode h) _

theorem dieParameter (which : DieParameter) (hnode : node.Regroups node') (h : Rewords step step') :
    Rewords (Run.dieParameter which node step) (Run.dieParameter which node' step') :=
  andThen (operand hnode h) _

end Operands

section Loops

variable {test test' : Run Bool} {body body' : Run Value}

theorem whileLoop (limits : Limits) (htest : Rewords test test') (hbody : Rewords body body')
    (room : Nat) (last : Value) :
    Rewords (Run.whileLoop limits test body room last)
      (Run.whileLoop limits test' body' room last) := by
  induction room generalizing last with
  | zero => exact andThen htest _
  | succ room ih =>
    refine bind htest fun b => ?_
    cases b with
    | true => exact after _ fun _ => bind hbody ih
    | false => exact refl _

theorem doWhileLoop (limits : Limits) (htest : Rewords test test') (hbody : Rewords body body')
    (room : Nat) :
    Rewords (Run.doWhileLoop limits test body room) (Run.doWhileLoop limits test' body' room) := by
  induction room with
  | zero => exact refl _
  | succ room ih =>
    refine after _ fun _ => bind hbody fun last => bind htest fun b => ?_
    cases b with
    | true => exact ih
    | false => exact refl _

end Loops

section Calls

variable {args args' : Run (List Value)}

theorem callFunction (c : Context) (deeper : Deeper) (name : String) (f : Function) (argCount : Nat)
    (h : Rewords args args') :
    Rewords (Run.callFunction c deeper name f argCount args)
      (Run.callFunction c deeper name f argCount args') := by
  unfold Run.callFunction
  split
  · exact refl _
  · split
    · exact refl _
    · exact andThen h _

theorem call (c : Context) (deeper : Deeper) (name : String) (tier : Option Tier) (argCount : Nat)
    (h : Rewords args args') :
    Rewords (Run.call c deeper name tier argCount args)
      (Run.call c deeper name tier argCount args') := by
  refine after _ fun m => ?_
  split
  · exact callFunction c deeper name _ argCount h
  · exact refl _
  · exact refl _

end Calls

end Rewords

end Steps

/-! ## Nodes -/

section Nodes

variable (c : Context) (deeper : Deeper)

/-- Running statements and then others. -/
theorem block_append (last : Value) (first second : List Node) :
    block c deeper last (first ++ second) =
      block c deeper last first >>= fun v => block c deeper v second := by
  induction first generalizing last with
  | nil => rw [List.nil_append, block, pure_bind]
  | cons node rest ih =>
    rw [List.cons_append, block, block, bind_assoc]
    exact bind_congr ih

/-- What comes before statements is not seen in their value. -/
theorem block_cons_last (last last' : Value) (node : Node) (rest : List Node) :
    block c deeper last (node :: rest) = block c deeper last' (node :: rest) := by
  rw [block, block]

mutual

theorem rewords_evaluate {node node' : Node} :
    node.Regroups node' → Rewords (evaluate c deeper node) (evaluate c deeper node')
  | .refl _ => Rewords.refl _
  | .ungroup h => by
    rw [evaluate]
    exact rewords_evaluate h
  | .group h => by
    rw [evaluate, evaluate]
    exact rewords_evaluate h
  | .list h => by
    rw [evaluate, evaluate]
    exact (rewords_operands h).andThen _
  | .binary op hleft hright => by
    rw [evaluate, evaluate]
    refine (Rewords.operand hleft (rewords_evaluate hleft)).bind fun l => ?_
    exact (Rewords.operand hright (rewords_evaluate hright)).andThen _
  | .unary op h => by
    rw [evaluate, evaluate]
    exact (Rewords.operand h (rewords_evaluate h)).andThen _
  | .die form h => by
    rw [evaluate, evaluate]
    refine Rewords.after _ fun n => ?_
    exact (Rewords.dieParameter .sides h (rewords_evaluate h)).andThen _
  | .dice form hcount hsides => by
    rw [evaluate, evaluate, dieCount, dieCount]
    refine (Rewords.dieParameter .count hcount (rewords_evaluate hcount)).bind fun n => ?_
    exact (Rewords.dieParameter .sides hsides (rewords_evaluate hsides)).andThen _
  | .block h => by
    rw [evaluate, evaluate]
    exact rewords_block h .undefined
  | .assign name h => by
    rw [evaluate, evaluate]
    exact (Rewords.operand h (rewords_evaluate h)).andThen _
  | .qualifiedAssign tier name h => by
    rw [evaluate, evaluate]
    exact Rewords.after _ fun _ => (Rewords.operand h (rewords_evaluate h)).andThen _
  | .print h => by
    rw [evaluate, evaluate]
    exact (Rewords.operand h (rewords_evaluate h)).andThen _
  | .branch htest hconsequent halternative => by
    rw [evaluate, evaluate]
    refine (Rewords.condition htest (rewords_evaluate htest)).bind fun b => ?_
    split
    · exact rewords_block hconsequent .undefined
    · exact rewords_block halternative .undefined
  | .whileLoop htest hbody => by
    have htest := Rewords.condition htest (rewords_evaluate htest)
    rw [evaluate, evaluate]
    exact (htest.whileLoop _ (rewords_block hbody .undefined) _ _).inFrame {}
  | .doWhile hbody htest => by
    have htest := Rewords.condition htest (rewords_evaluate htest)
    rw [evaluate, evaluate]
    exact (htest.doWhileLoop _ (rewords_block hbody .undefined) _).inFrame {}
  | .call name tier h => by
    rw [evaluate, evaluate, h.length_eq]
    exact (rewords_operands h).call c deeper name tier _

theorem rewords_operands {items items' : List Node} :
    Node.RegroupsItems items items' →
      Rewords (operands c deeper items) (operands c deeper items')
  | .nil => Rewords.refl _
  | .cons h hrest => by
    rw [operands, operands]
    refine (Rewords.operand h (rewords_evaluate h)).bind fun v => ?_
    exact (rewords_operands hrest).andThen _

theorem rewords_block {statements statements' : List Node} :
    Node.RegroupsStatements statements statements' → ∀ last,
      Rewords (block c deeper last statements) (block c deeper last statements')
  | .nil, _ => Rewords.refl _
  | .cons h hrest, _ => by
    rw [block, block]
    exact (rewords_evaluate h).bind (rewords_block hrest)
  | .splice h hrest, last => by
    -- The opened block is not empty, so its value is that of its own last statement in both places.
    have hinner := rewords_evaluate h
    rw [evaluate, block_cons_last c deeper _ last] at hinner
    rw [block, block_append]
    exact hinner.bind (rewords_block hrest)

end

end Nodes

end Run

/-! ## Programs -/

/-- The second failure is the first one, but for the kind that it names where the first says that a
node in brackets produced no value. -/
structure Failure.Reworded (f f' : Failure) : Prop where
  kind : f'.kind = f.kind
  iterations : f'.iterations = f.iterations
  actions : f'.actions = f.actions
  message : f'.message = f.message ∨ f.message = "group produced no value." ∧
    ∃ node : Node, f'.message = node.kindName ++ " produced no value."

theorem Failure.Reworded.refl (f : Failure) : f.Reworded f :=
  ⟨rfl, rfl, rfl, .inl rfl⟩

namespace Interpreter

def SameAnswer : Except Failure Outcome → Except Failure Outcome → Prop
  | .ok o, .ok o' => o' = o
  | .error f, .error f' => f.Reworded f'
  | _, _ => False

theorem SameAnswer.refl (r : Except Failure Outcome) : SameAnswer r r := by
  cases r with
  | ok o => exact rfl
  | error f => exact Failure.Reworded.refl f

/-- **Grouping is transparent.** A program with brackets taken off and nested blocks opened, bodies of
definitions apart, does what the program does on every store, under any options, for anyone and with
any dice: it leaves the same store, the same dice and all else of the state, and it has the same value
and actions or fails alike. -/
theorem grouping_is_transparent {p q : Node} (h : p.Regroups q) (options : Options)
    (identity : Identity) (dice : Dice.Stream) (store : Store) :
    SameAnswer (run options dice store p identity).1 (run options dice store q identity).1 ∧
      (run options dice store q identity).2 = (run options dice store p identity).2 ∧
      Run.left (Run.program ⟨options, identity⟩ q (Machine.start store dice)) =
        Run.left (Run.program ⟨options, identity⟩ p (Machine.start store dice)) := by
  have hr : Run.Reworded (Run.program ⟨options, identity⟩ p (Machine.start store dice))
      (Run.program ⟨options, identity⟩ q (Machine.start store dice)) :=
    Run.rewords_evaluate _ _ h _
  unfold run
  generalize Run.program ⟨options, identity⟩ p (Machine.start store dice) = r,
    Run.program ⟨options, identity⟩ q (Machine.start store dice) = r' at hr ⊢
  cases hr with
  | same => exact ⟨SameAnswer.refl _, rfl, rfl⟩
  | noValue inner node m => exact ⟨⟨rfl, rfl, rfl, .inr ⟨rfl, node, rfl⟩⟩, rfl, rfl⟩

/-- A nested block is opened and brackets are taken off, and the program fails where they were. -/
theorem grouping_is_transparent_nested :
    let forget : Node := .delete none "x"
    let p : Node :=
      .block [.block [.assign "x" (.group (.integer 1)), forget], .print (.group forget)]
    let q : Node := .block [.assign "x" (.integer 1), forget, .print forget]
    let answer (program : Node) := (run {} (.ofSeed 0) {} program ⟨"ann", "guild"⟩).1
    let refusal (message : String) : Failure := { kind := .operationError, message }
    p.Regroups q ∧ SameAnswer (answer p) (answer q) ∧
      answer p = .error (refusal "group produced no value.") ∧
      answer q = .error (refusal "delete produced no value.") := by
  intro forget p q answer refusal
  have hassign : Node.Regroups (.assign "x" (.group (.integer 1))) (.assign "x" (.integer 1)) :=
    .assign "x" (.ungroup (.refl _))
  have hblock : Node.Regroups (.block [.assign "x" (.group (.integer 1)), forget])
      (.block [.assign "x" (.integer 1), forget]) :=
    .block (.cons hassign (.cons (.refl _) .nil))
  have h : p.Regroups q := .block (.splice hblock (.cons (.print (.ungroup (.refl _))) .nil))
  exact ⟨h, (grouping_is_transparent h {} _ _ {}).1, rfl, rfl⟩

end Interpreter

end DiceScript
