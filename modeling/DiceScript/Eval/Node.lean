import DiceScript.Eval.Machine

/-! # Running programs

`evaluate` runs a node by recursion on the tree. A call leaves the tree: it runs a body that the
store holds, one level of calls further down, and the number of levels is bounded, so `deeper` is a
recursion on the levels that are left. A loop runs its closed-over parts as often as its limit
allows. Hence every run ends.
-/

namespace DiceScript

namespace Run

/-! ## Writing to tiers -/

def writable (tier : Tier) (name : String) : Run Unit :=
  if tier = .core then throw (.readOnly name) else pure ()

def putQualified (c : Context) (tier : Tier) (name : String) (v : Value) : Run Unit := do
  let store ← ofExcept ((← get).store.put (Namespace.resolve tier c.identity) name v)
  modify fun m => { m with store }

def dropQualified (c : Context) (tier : Tier) (name : String) : Run Value := do
  writable tier name
  let (v, store) ← ofExcept ((← get).store.drop (Namespace.resolve tier c.identity) name)
  modify fun m => { m with store }
  return v

/-- Removes a name from the innermost frame and yields what it was bound to. -/
def unbindLocal (name : String) : Run Value := do
  let m ← get
  set (m.unbind name)
  return (m.frame.get? name).getD .undefined

/-! ## Functions -/

def firstRepeated? (seen : List String) : List String → Option String
  | [] => none
  | s :: rest => if s ∈ seen then some s else firstRepeated? (s :: seen) rest

def redefines (c : Context) (m : Machine) (f : Function) : Bool :=
  c.options.redefinition == .forbid && (c.qualified m f.tier f.name).toFunction?.isSome

def define (c : Context) (f : Function) : Run Value :=
  if f.tier = .core then throw (.defineInCore f.name)
  else match firstRepeated? [] f.params with
    | some p => throw (.repeatedParameter p f.name)
    | none => do
      if redefines c (← get) f then throw (.alreadyDefined f.name f.tier)
      else
        putQualified c f.tier f.name (.function f)
        return .function f

/-- How to run a body one level of calls further down; none when there is no further level. -/
abbrev Deeper := Option (List Node → Run Value)

def callee (c : Context) (m : Machine) (name : String) : Option Tier → Value
  | some tier => c.qualified m tier name
  | none => c.lookup m name

/-- Runs a function that was called by a name, with as many arguments as `args` yields. -/
def callFunction (c : Context) (deeper : Deeper) (name : String) (f : Function) (argCount : Nat)
    (args : Run (List Value)) : Run Value :=
  if argCount ≠ f.arity then throw (.arity name f.arity argCount)
  else match deeper with
    | none => throw (.callDepth c.options.limits.maxCallDepth name)
    | some run => do
      let values ← args
      inFrame (Dict.ofList (f.params.zip values)) (run f.body)

def call (c : Context) (deeper : Deeper) (name : String) (tier : Option Tier) (argCount : Nat)
    (args : Run (List Value)) : Run Value := do
  match callee c (← get) name tier with
  | .function f => callFunction c deeper name f argCount args
  | .undefined => throw (.missing name)
  | v => throw (.notAFunction name v.type)

/-! ## Nodes -/

mutual

/-- Runs a node. -/
def evaluate (c : Context) (deeper : Deeper) : Node → Run Value
  | .integer n => return .integer n
  | .float x => return .float x
  | .string s => return .string s
  | .boolean b => return .boolean b
  | .list items => do return .list (← operands c deeper items)
  | .identifier name => do return c.lookup (← get) name
  | .qualifiedIdentifier tier name => do return c.qualified (← get) tier name
  | .group inner => evaluate c deeper inner
  | .binary op left right => do
    let l ← operand left (evaluate c deeper left)
    let r ← operand right (evaluate c deeper right)
    ofExcept (Operator.binary c.options.limits op l r)
  | .unary op node => do
    let v ← operand node (evaluate c deeper node)
    ofExcept (Operator.unary op v)
  | .dice count sides form => do
    let n ← dieCount c deeper count
    let m ← dieParameter .sides sides (evaluate c deeper sides)
    roll c.options.limits.maxDiceDraws n m form
  | .block statements => block c deeper .undefined statements
  | .assign name node => do
    let v ← operand node (evaluate c deeper node)
    modify (·.bind name v)
    return v
  | .qualifiedAssign tier name node => do
    writable tier name
    let v ← operand node (evaluate c deeper node)
    putQualified c tier name v
    return v
  | .delete none name => unbindLocal name
  | .delete (some tier) name => dropQualified c tier name
  | .print node => do
    let v ← operand node (evaluate c deeper node)
    log v.display
    return v
  | .branch test consequent alternative => do
    if ← condition test (evaluate c deeper test) then block c deeper .undefined consequent
    else block c deeper .undefined alternative
  | .whileLoop test body =>
    inFrame {} (whileLoop c.options.limits (condition test (evaluate c deeper test))
      (block c deeper .undefined body) c.options.limits.maxLoopIterations.toNat .undefined)
  | .doWhile body test =>
    inFrame {} (doWhileLoop c.options.limits (condition test (evaluate c deeper test))
      (block c deeper .undefined body) c.options.limits.maxLoopIterations.toNat)
  | .define name params body tier =>
    define c { name, params, body, tier := tier.getD .personal }
  | .call name tier args => call c deeper name tier args.length (operands c deeper args)

/-- Runs statements in turn; the value is that of the last one, or `last` when there are none. -/
def block (c : Context) (deeper : Deeper) (last : Value) : List Node → Run Value
  | [] => return last
  | node :: rest => do
    let v ← evaluate c deeper node
    block c deeper v rest

def operands (c : Context) (deeper : Deeper) : List Node → Run (List Value)
  | [] => return []
  | node :: rest => do
    let v ← operand node (evaluate c deeper node)
    let vs ← operands c deeper rest
    return v :: vs

def dieCount (c : Context) (deeper : Deeper) : Option Node → Run Int64
  | none => return 1
  | some node => dieParameter .count node (evaluate c deeper node)

end

/-- How to run a body with `levels` levels of calls left. -/
def deeper (c : Context) : (levels : Nat) → Deeper
  | 0 => none
  | levels + 1 => some fun body => block c (deeper c levels) .undefined body

def program (c : Context) (node : Node) : Run Value :=
  evaluate c (deeper c c.options.limits.maxCallDepth.toNat) node

end Run

end DiceScript
