import Reckoner.Vocabulary

/-!
# Expressions

The trees that the reckoner works on: integer constants under negation, powers with a fixed
exponent, sums and products.  `Kind` names the five sorts of node, and `Node α` is one node
whose operands have been replaced by values of `α`; folds, evaluators and journals are all
stated over it.
-/

namespace Reckoner

/-! ## Kinds -/

/-- The five sorts of node. -/
inductive Kind where
  | constant
  | negate
  | exponent
  | addition
  | multiplication
  deriving DecidableEq

namespace Kind

/-- All kinds, in the order in which messages list them. -/
def all : List Kind := [.constant, .negate, .exponent, .addition, .multiplication]

/-- The lower-case word for a kind, used in documents, log lines and messages. -/
def name : Kind → String
  | .constant => "constant"
  | .negate => "negate"
  | .exponent => "exponent"
  | .addition => "addition"
  | .multiplication => "multiplication"

/-- The capitalised word for a kind, used where a tree is written as nested applications. -/
def label : Kind → String
  | .constant => "Constant"
  | .negate => "Negate"
  | .exponent => "Exponent"
  | .addition => "Addition"
  | .multiplication => "Multiplication"

def vocabulary : Vocabulary Kind := .ofNames all name

def ofName? (word : String) : Option Kind := vocabulary.find? word

theorem mem_all (kind : Kind) : kind ∈ all := by
  cases kind <;> decide

theorem ofName?_name (kind : Kind) : ofName? kind.name = some kind := by
  cases kind <;> decide

theorem name_injective {k l : Kind} (h : k.name = l.name) : k = l := by
  have hk := ofName?_name k
  rw [h, ofName?_name] at hk
  exact (Option.some.inj hk).symm

end Kind

/-! ## Trees -/

/-- An integer expression; constants and exponents are 32-bit integers. -/
inductive Expr where
  | constant (value : Int32)
  | negate (operand : Expr)
  | exponent (base : Expr) (power : Int32)
  | addition (left right : Expr)
  | multiplication (left right : Expr)
  deriving DecidableEq, Hashable

/-- One node whose operands are given as values of `α`. -/
inductive Node (α : Type) where
  | constant (value : Int32)
  | negate (operand : α)
  | exponent (base : α) (power : Int32)
  | addition (left right : α)
  | multiplication (left right : α)
  deriving DecidableEq

namespace Node

/-- The kind of a node does not depend on what its operands are. -/
def kind {α : Type} : Node α → Kind
  | .constant _ => .constant
  | .negate _ => .negate
  | .exponent _ _ => .exponent
  | .addition _ _ => .addition
  | .multiplication _ _ => .multiplication

end Node

namespace Expr

/-- The root of a tree, with the subtrees below it as operands. -/
def root : Expr → Node Expr
  | .constant v => .constant v
  | .negate e => .negate e
  | .exponent b n => .exponent b n
  | .addition l r => .addition l r
  | .multiplication l r => .multiplication l r

def ofRoot : Node Expr → Expr
  | .constant v => .constant v
  | .negate e => .negate e
  | .exponent b n => .exponent b n
  | .addition l r => .addition l r
  | .multiplication l r => .multiplication l r

theorem ofRoot_root (e : Expr) : ofRoot e.root = e := by
  cases e <;> rfl

theorem root_ofRoot (n : Node Expr) : (ofRoot n).root = n := by
  cases n <;> rfl

/-- The kind of a tree is the kind of its root. -/
def kind (e : Expr) : Kind := e.root.kind

/-! ## Arithmetic notation

Trees can be written with the usual operators. -/

instance : Coe Int32 Expr := ⟨.constant⟩
instance : Neg Expr := ⟨.negate⟩
instance : Add Expr := ⟨.addition⟩
instance : Mul Expr := ⟨.multiplication⟩
instance : HPow Expr Int32 Expr := ⟨.exponent⟩

/-- How many tasks a stack machine performs on a tree: a constant takes one, and any other node
one to open it and one to close it. -/
def workload : Expr → Nat
  | .constant _ => 1
  | .negate e => e.workload + 2
  | .exponent b _ => b.workload + 2
  | .addition l r => l.workload + r.workload + 2
  | .multiplication l r => l.workload + r.workload + 2

end Expr

end Reckoner
