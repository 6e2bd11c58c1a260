import Reckoner.Calculator.Sample
import Reckoner.Expr.Fold

/-!
# Postfix programs

A program builds a tree on a stack of trees.  Its tokens are carried out from left to right: a
number puts a constant on the stack, and an operator takes its operands off the stack and puts
the node over them in their place.  A token that finds too few operands leaves the stack as it
is (`stack_of_act_error`), and it does not matter whether nodes are built by constructors or by
operators (`Style.build_eq_ofRoot`).
-/

namespace Reckoner.Postfix

/-! ## Building nodes -/

inductive Style where
  | constructors
  | operators
  deriving DecidableEq

namespace Style

def build : Style → Node Expr → Expr
  | .constructors, node => Expr.ofRoot node
  | .operators, .constant v => (v : Expr)
  | .operators, .negate a => -a
  | .operators, .exponent a n => a ^ n
  | .operators, .addition a b => a + b
  | .operators, .multiplication a b => a * b

/-- Both styles build the same nodes. -/
theorem build_eq_ofRoot (style : Style) (node : Node Expr) :
    style.build node = Expr.ofRoot node := by
  cases style <;> cases node <;> rfl

end Style

/-! ## Tokens -/

/-- Why a program does not build a tree. -/
inductive Problem where
  /-- A token finds too few trees on the stack. -/
  | underflow
  /-- There is not exactly one tree at the end. -/
  | height
  /-- A number that is no 32-bit integer. -/
  | number
  /-- Something that is no token. -/
  | token
  /-- There is no program. -/
  | program
  deriving DecidableEq

inductive Token where
  | constant (value : Int32)
  | negate
  | exponent (power : Int32)
  | addition
  | multiplication
  /-- Puts the top on the stack once more. -/
  | duplicate
  /-- Exchanges the top two. -/
  | exchange
  /-- Takes the top off. -/
  | drop
  /-- Puts the sample of the calculator on the stack. -/
  | sample
  /-- Carries out some tokens so many times. -/
  | repetition (times : Nat) (body : List Token)
  /-- Something that could not be read. -/
  | unreadable (problem : Problem)

abbrev Program := List Token

/-- The trees built so far, the latest first. -/
abbrev Stack := List Expr

/-- Changes a stack; a problem that comes up keeps what has been changed before it. -/
abbrev Action := Stack → Except Problem Unit × Stack

/-! ## Actions -/

/-- Changes the stack by a rule that applies if the stack is high enough. -/
def act (rule : Stack → Option Stack) : Action := fun stack =>
  match rule stack with
  | some stack => (.ok (), stack)
  | none => (.error .underflow, stack)

/-- A rule that does not apply leaves the stack as it is. -/
theorem stack_of_act_error {rule : Stack → Option Stack} {stack after : Stack}
    {problem : Problem} (h : act rule stack = (.error problem, after)) :
    problem = .underflow ∧ after = stack := by
  unfold act at h
  cases hr : rule stack with
  | some next => simp [hr] at h
  | none =>
    simp only [hr, Prod.mk.injEq, Except.error.injEq] at h
    exact ⟨h.1.symm, h.2.symm⟩

/-- Carries out an action so many times, as long as there is no problem. -/
def iterate (action : Action) : Nat → Action
  | 0, stack => (.ok (), stack)
  | times + 1, stack => andThen (action stack) fun () stack => iterate action times stack

def push (e : Expr) (stack : Stack) : Option Stack := some (e :: stack)

/-- Puts a node in the place of its operand. -/
def unary (node : Expr → Expr) : Stack → Option Stack
  | a :: stack => some (node a :: stack)
  | [] => none

/-- Puts a node in the place of its operands, of which the right one is the top. -/
def binary (node : Expr → Expr → Expr) : Stack → Option Stack
  | b :: a :: stack => some (node a b :: stack)
  | _ => none

/-- Puts the top on the stack once more. -/
def duplicate : Stack → Option Stack
  | a :: stack => some (a :: a :: stack)
  | [] => none

def exchange : Stack → Option Stack
  | b :: a :: stack => some (a :: b :: stack)
  | _ => none

/-! ## Running -/

mutual

def Token.run (style : Style) : Token → Action
  | .constant v, stack => act (push (style.build (.constant v))) stack
  | .negate, stack => act (unary fun a => style.build (.negate a)) stack
  | .exponent n, stack => act (unary fun a => style.build (.exponent a n)) stack
  | .addition, stack => act (binary fun a b => style.build (.addition a b)) stack
  | .multiplication, stack => act (binary fun a b => style.build (.multiplication a b)) stack
  | .duplicate, stack => act duplicate stack
  | .exchange, stack => act exchange stack
  | .drop, stack => act List.tail? stack
  | .sample, stack => act (push Calculator.sample) stack
  | .repetition times body, stack => iterate (Program.run style body) times stack
  | .unreadable problem, stack => (.error problem, stack)

def Program.run (style : Style) : List Token → Action
  | [], stack => (.ok (), stack)
  | token :: rest, stack =>
    andThen (token.run style stack) fun () stack => Program.run style rest stack

end

/-- The tree that a program builds from an empty stack. -/
def Program.tree (style : Style) (program : Program) : Except Problem Expr :=
  match Program.run style program [] with
  | (.ok (), [e]) => .ok e
  | (.ok (), _) => .error .height
  | (.error problem, _) => .error problem

end Reckoner.Postfix
