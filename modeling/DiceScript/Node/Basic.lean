import DiceScript.Tier

/-! # Programs

A program is a tree that a parser has built: how tightly operators bind is in the shape of the
tree, and `group` is the only trace of brackets.

- `kindName` — the name of a node's kind, used in messages and as the tag of its document.
- `sameAs` — equality of trees in which floats are compared as numbers.
-/

namespace DiceScript

inductive BinaryOp where
  | or | xor | and
  | gt | ge | eq | ne | le | lt
  | shl | shr
  | add | sub | concat | mul | div | rem | floorDiv | pow | log
deriving Repr, DecidableEq, Inhabited

namespace BinaryOp

def all : List BinaryOp :=
  [.or, .xor, .and, .gt, .ge, .eq, .ne, .le, .lt, .shl, .shr, .add, .sub, .concat, .mul, .div,
    .rem, .floorDiv, .pow, .log]

def symbol : BinaryOp → String
  | .or => "or"
  | .xor => "xor"
  | .and => "and"
  | .gt => ">"
  | .ge => ">="
  | .eq => "=="
  | .ne => "!="
  | .le => "<="
  | .lt => "<"
  | .shl => "<<"
  | .shr => ">>"
  | .add => "+"
  | .sub => "-"
  | .concat => "&"
  | .mul => "*"
  | .div => "/"
  | .rem => "%"
  | .floorDiv => "//"
  | .pow => "**"
  | .log => "log"

def name : BinaryOp → String
  | .or => "or"
  | .xor => "xor"
  | .and => "and"
  | .gt => "gt"
  | .ge => "ge"
  | .eq => "eq"
  | .ne => "ne"
  | .le => "le"
  | .lt => "lt"
  | .shl => "shl"
  | .shr => "shr"
  | .add => "add"
  | .sub => "sub"
  | .concat => "concat"
  | .mul => "mul"
  | .div => "div"
  | .rem => "rem"
  | .floorDiv => "floor_div"
  | .pow => "pow"
  | .log => "log"

def ofName? (s : String) : Option BinaryOp := all.find? (·.name == s)

end BinaryOp

inductive UnaryOp where
  | not | neg | identity
deriving Repr, DecidableEq, Inhabited

namespace UnaryOp

def all : List UnaryOp := [.not, .neg, .identity]

def symbol : UnaryOp → String
  | .not => "!"
  | .neg => "-"
  | .identity => "+"

def name : UnaryOp → String
  | .not => "not"
  | .neg => "neg"
  | .identity => "identity"

def ofName? (s : String) : Option UnaryOp := all.find? (·.name == s)

end UnaryOp

/-- What a roll yields: the sum of its faces or the list of them. -/
inductive DieForm where
  | scalar | vector
deriving Repr, DecidableEq, Inhabited

namespace DieForm

def all : List DieForm := [.scalar, .vector]

def name : DieForm → String
  | .scalar => "scalar"
  | .vector => "vector"

def ofName? (s : String) : Option DieForm := all.find? (·.name == s)

end DieForm

/-- A program, or a part of one. -/
inductive Node where
  | integer (value : Int64)
  | float (value : Float)
  | string (value : String)
  | boolean (value : Bool)
  | list (items : List Node)
  | identifier (name : String)
  | qualifiedIdentifier (tier : Tier) (name : String)
  | group (inner : Node)
  | binary (op : BinaryOp) (left right : Node)
  | unary (op : UnaryOp) (operand : Node)
  | dice (count : Option Node) (sides : Node) (form : DieForm)
  | block (statements : List Node)
  | assign (name : String) (value : Node)
  | qualifiedAssign (tier : Tier) (name : String) (value : Node)
  | delete (tier : Option Tier) (name : String)
  | print (value : Node)
  | branch (condition : Node) (consequent alternative : List Node)
  | whileLoop (condition : Node) (body : List Node)
  | doWhile (body : List Node) (condition : Node)
  | define (name : String) (params : List String) (body : List Node) (tier : Option Tier)
  | call (name : String) (tier : Option Tier) (args : List Node)

namespace Node

instance : Inhabited Node := ⟨.block []⟩

def kindName : Node → String
  | .integer .. => "integer"
  | .float .. => "float"
  | .string .. => "string"
  | .boolean .. => "boolean"
  | .list .. => "list"
  | .identifier .. => "identifier"
  | .qualifiedIdentifier .. => "qualified_identifier"
  | .group .. => "group"
  | .binary .. => "binary"
  | .unary .. => "unary"
  | .dice .. => "dice"
  | .block .. => "block"
  | .assign .. => "assign"
  | .qualifiedAssign .. => "qualified_assign"
  | .delete .. => "delete"
  | .print .. => "print"
  | .branch .. => "if"
  | .whileLoop .. => "while"
  | .doWhile .. => "do_while"
  | .define .. => "define"
  | .call .. => "call"

/-- The name that a node reads, through any brackets; none when it is no plain reading of a
variable. -/
def readsName? : Node → Option String
  | .identifier name => some name
  | .qualifiedIdentifier _ name => some name
  | .group inner => inner.readsName?
  | _ => none

mutual

/-- Whether two trees are the same, floats being compared as numbers: the two zeros are the same and
what is not a number differs from itself. -/
def sameAs : Node → Node → Bool
  | .integer a, .integer b => a == b
  | .float a, .float b => a == b
  | .string a, .string b => a == b
  | .boolean a, .boolean b => a == b
  | .list a, .list b => sameItems a b
  | .identifier a, .identifier b => a == b
  | .qualifiedIdentifier t a, .qualifiedIdentifier u b => t == u && a == b
  | .group a, .group b => sameAs a b
  | .binary o a a', .binary p b b' => o == p && sameAs a b && sameAs a' b'
  | .unary o a, .unary p b => o == p && sameAs a b
  | .dice c s f, .dice d t g => sameOption c d && sameAs s t && f == g
  | .block a, .block b => sameItems a b
  | .assign n a, .assign m b => n == m && sameAs a b
  | .qualifiedAssign t n a, .qualifiedAssign u m b => t == u && n == m && sameAs a b
  | .delete t n, .delete u m => t == u && n == m
  | .print a, .print b => sameAs a b
  | .branch c a a', .branch d b b' => sameAs c d && sameItems a b && sameItems a' b'
  | .whileLoop c a, .whileLoop d b => sameAs c d && sameItems a b
  | .doWhile a c, .doWhile b d => sameItems a b && sameAs c d
  | .define n p a t, .define m q b u => n == m && p == q && sameItems a b && t == u
  | .call n t a, .call m u b => n == m && t == u && sameItems a b
  | _, _ => false

def sameItems : List Node → List Node → Bool
  | [], [] => true
  | a :: as, b :: bs => sameAs a b && sameItems as bs
  | _, _ => false

def sameOption : Option Node → Option Node → Bool
  | none, none => true
  | some a, some b => sameAs a b
  | _, _ => false

end

end Node

end DiceScript
