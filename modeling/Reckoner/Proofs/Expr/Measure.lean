import Reckoner.Proofs.Expr.Listing

/-!
# Size and depth node by node

The size and the depth of a tree are computed on a stack.  Here they are given by recursion on the
tree, as is the number of nodes that have operands.  A stack machine performs one task for every
node and one more for every node that has operands (`Expr.workload_eq`).
-/

namespace Reckoner
namespace Expr

/-! ## Size -/

@[simp] theorem size_constant (v : Int32) : (constant v).size = 1 := by
  rw [size, valueStack_eq_value, value_constant, sizeAlgebra]

@[simp] theorem size_negate (e : Expr) : (negate e).size = e.size + 1 := by
  simp only [size, valueStack_eq_value, value_negate, sizeAlgebra]

@[simp] theorem size_exponent (b : Expr) (n : Int32) : (exponent b n).size = b.size + 1 := by
  simp only [size, valueStack_eq_value, value_exponent, sizeAlgebra]

@[simp] theorem size_addition (l r : Expr) : (addition l r).size = l.size + r.size + 1 := by
  simp only [size, valueStack_eq_value, value_addition, sizeAlgebra]

@[simp] theorem size_multiplication (l r : Expr) :
    (multiplication l r).size = l.size + r.size + 1 := by
  simp only [size, valueStack_eq_value, value_multiplication, sizeAlgebra]

/-- Every tree has a root. -/
theorem size_pos (e : Expr) : 0 < e.size := by
  cases e <;> simp

/-! ## Depth -/

@[simp] theorem depth_constant (v : Int32) : (constant v).depth = 1 := by
  rw [depth, valueStack_eq_value, value_constant, depthAlgebra]

@[simp] theorem depth_negate (e : Expr) : (negate e).depth = e.depth + 1 := by
  simp only [depth, valueStack_eq_value, value_negate, depthAlgebra]

@[simp] theorem depth_exponent (b : Expr) (n : Int32) : (exponent b n).depth = b.depth + 1 := by
  simp only [depth, valueStack_eq_value, value_exponent, depthAlgebra]

@[simp] theorem depth_addition (l r : Expr) :
    (addition l r).depth = max l.depth r.depth + 1 := by
  simp only [depth, valueStack_eq_value, value_addition, depthAlgebra]

@[simp] theorem depth_multiplication (l r : Expr) :
    (multiplication l r).depth = max l.depth r.depth + 1 := by
  simp only [depth, valueStack_eq_value, value_multiplication, depthAlgebra]

/-- The longest path has at least the root. -/
theorem depth_pos (e : Expr) : 0 < e.depth := by
  cases e <;> simp

/-! ## Nodes with operands -/

/-- The number of nodes that are no constants. -/
def innerNodes (e : Expr) : Nat := (e.postorder.filter fun d => d.kind ≠ .constant).length

@[simp] theorem innerNodes_constant (v : Int32) : (constant v).innerNodes = 0 := by
  simp [innerNodes, postorder, kind, root, Node.kind]

@[simp] theorem innerNodes_negate (e : Expr) : (negate e).innerNodes = e.innerNodes + 1 := by
  simp [innerNodes, postorder, kind, root, Node.kind]

@[simp] theorem innerNodes_exponent (b : Expr) (n : Int32) :
    (exponent b n).innerNodes = b.innerNodes + 1 := by
  simp [innerNodes, postorder, kind, root, Node.kind]

@[simp] theorem innerNodes_addition (l r : Expr) :
    (addition l r).innerNodes = l.innerNodes + r.innerNodes + 1 := by
  simp [innerNodes, postorder, kind, root, Node.kind, Nat.add_assoc]

@[simp] theorem innerNodes_multiplication (l r : Expr) :
    (multiplication l r).innerNodes = l.innerNodes + r.innerNodes + 1 := by
  simp [innerNodes, postorder, kind, root, Node.kind, Nat.add_assoc]

/-- A node that has operands is opened before they are answered and closed behind them. -/
theorem workload_eq (e : Expr) : e.workload = e.size + e.innerNodes := by
  induction e with
  -- A constant is answered when it is visited; for all others the closing task is the one step
  -- more.
  | constant v => simp [workload]
  | negate e ih =>
    simp only [workload, ih, size_negate, innerNodes_negate]
    omega
  | exponent b n ih =>
    simp only [workload, ih, size_exponent, innerNodes_exponent]
    omega
  | addition l r ihl ihr =>
    simp only [workload, ihl, ihr, size_addition, innerNodes_addition]
    omega
  | multiplication l r ihl ihr =>
    simp only [workload, ihl, ihr, size_multiplication, innerNodes_multiplication]
    omega

end Expr
end Reckoner
