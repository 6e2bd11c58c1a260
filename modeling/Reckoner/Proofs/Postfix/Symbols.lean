import Reckoner.Expr.Journal
import Reckoner.Postfix.Program
import Reckoner.Proofs.Expr.Subtrees
import Reckoner.Proofs.Text.Integer

/-!
# Trees are determined by their symbols

The symbols of the nodes in post-order say which tree it is (`Expr.eq_of_symbols_eq`), although a
symbol tells nothing of the operands of its node.  Read as tokens, the symbols are a postfix
program, and the program builds the tree (`Expr.run_program`).  A symbol in turn says which token it
is: its first character tells the kind, and the rest the number.
-/

namespace Reckoner

/-! ## Symbols as tokens -/

theorem decimal32_injective {v w : Int32} (h : decimal32 v = decimal32 w) : v = w := by
  have happend : (decimal32 v).toList ++ [] = (decimal32 w).toList ++ [] := by rw [h]
  exact (decimal32_append_inj noDigit_nil noDigit_nil happend).1

namespace Node

variable {α β : Type}

/-- The token that puts a node over the operands that are on the stack. -/
def token : Node α → Postfix.Token
  | .constant v => .constant v
  | .negate _ => .negate
  | .exponent _ n => .exponent n
  | .addition _ _ => .addition
  | .multiplication _ _ => .multiplication

/-- The kind of node whose symbol a text is, told by the first character. -/
def kindOfSymbol : List Char → Kind
  | 'n' :: _ => .negate
  | '^' :: _ => .exponent
  | '+' :: _ => .addition
  | '*' :: _ => .multiplication
  | _ => .constant

theorem kindOfSymbol_symbol (n : Node α) : kindOfSymbol n.symbol.toList = n.kind := by
  cases n with
  | constant v =>
    -- An integer starts with a digit or a minus sign, and no other symbol does.
    obtain ⟨d, ds, hd, h⟩ := toList_decimal v.toInt
    have hother : d ≠ 'n' ∧ d ≠ '^' ∧ d ≠ '+' ∧ d ≠ '*' := by
      refine ⟨?_, ?_, ?_, ?_⟩ <;> (rintro rfl; revert hd; decide)
    unfold symbol decimal32
    rcases h with h | h
    · rw [h]
      simp [kindOfSymbol, hother, kind]
    · rw [h]
      rfl
  | negate a => simp [symbol, kindOfSymbol, kind]
  | exponent a n => simp [symbol, kindOfSymbol, kind]
  | addition a b => simp [symbol, kindOfSymbol, kind]
  | multiplication a b => simp [symbol, kindOfSymbol, kind]

/-- Nodes with the same symbol have the same token, whatever their operands are. -/
theorem token_eq_of_symbol_eq {n : Node α} {m : Node β} (h : n.symbol = m.symbol) :
    n.token = m.token := by
  have hkind : n.kind = m.kind := by
    rw [← kindOfSymbol_symbol n, h, kindOfSymbol_symbol]
  cases n with
  | constant v =>
    cases m with
    | constant w => exact congrArg Postfix.Token.constant (decimal32_injective h)
    | _ => cases hkind
  | negate a =>
    cases m with
    | negate b => rfl
    | _ => cases hkind
  | exponent a v =>
    cases m with
    | exponent b w =>
      -- Behind the sign stand the digits of the exponent.
      have hdigits : decimal32 v = decimal32 w := by
        have hlist := congrArg String.toList h
        simp only [symbol, String.toList_append, List.append_cancel_left_eq] at hlist
        exact String.toList_inj.mp hlist
      exact congrArg Postfix.Token.exponent (decimal32_injective hdigits)
    | _ => cases hkind
  | addition a b =>
    cases m with
    | addition c d => rfl
    | _ => cases hkind
  | multiplication a b =>
    cases m with
    | multiplication c d => rfl
    | _ => cases hkind

end Node

namespace Expr

open Postfix (Style Stack Token)

/-! ## Postfix programs -/

/-- The tokens of the nodes in post-order. -/
def program (e : Expr) : Postfix.Program := e.postorder.map fun d => d.root.token

/-- The program of a tree puts the tree on the stack, and what follows goes on from there. -/
theorem run_program (style : Style) (e : Expr) (rest : List Token) (stack : Stack) :
    Postfix.Program.run style (e.program ++ rest) stack =
      Postfix.Program.run style rest (e :: stack) := by
  -- Operands are put on the stack before the token that takes them off.
  have htoken : ∀ (token : Token) (rest : List Token) (stack after : Stack),
      token.run style stack = (.ok (), after) →
      Postfix.Program.run style (token :: rest) stack = Postfix.Program.run style rest after := by
    intro token rest stack after h
    rw [Postfix.Program.run, h]
    rfl
  induction e generalizing rest stack with
  | constant v =>
    apply htoken
    simp [root, Node.token, Token.run, Postfix.act, Postfix.push, style.build_eq_ofRoot, ofRoot]
  | negate e ih =>
    rw [program, postorder, List.map_append, List.append_assoc, ← program, ih]
    apply htoken
    simp [root, Node.token, Token.run, Postfix.act, Postfix.unary, style.build_eq_ofRoot, ofRoot]
  | exponent b n ih =>
    rw [program, postorder, List.map_append, List.append_assoc, ← program, ih]
    apply htoken
    simp [root, Node.token, Token.run, Postfix.act, Postfix.unary, style.build_eq_ofRoot, ofRoot]
  | addition l r ihl ihr =>
    rw [program, postorder, List.map_append, List.map_append, List.append_assoc, List.append_assoc,
      ← program, ← program, ihl, ihr]
    apply htoken
    simp [root, Node.token, Token.run, Postfix.act, Postfix.binary, style.build_eq_ofRoot, ofRoot]
  | multiplication l r ihl ihr =>
    rw [program, postorder, List.map_append, List.map_append, List.append_assoc, List.append_assoc,
      ← program, ← program, ihl, ihr]
    apply htoken
    simp [root, Node.token, Token.run, Postfix.act, Postfix.binary, style.build_eq_ofRoot, ofRoot]

/-- The program of a tree builds the tree. -/
theorem tree_program (style : Style) (e : Expr) :
    Postfix.Program.tree style e.program = .ok e := by
  have hrun := run_program style e [] []
  rw [List.append_nil] at hrun
  unfold Postfix.Program.tree
  rw [hrun]
  rfl

/-! ## Symbols determine the tree -/

private theorem map_token_eq {ds ds' : List Expr}
    (h : ds.map (fun d => d.root.symbol) = ds'.map fun d => d.root.symbol) :
    ds.map (fun d => d.root.token) = ds'.map fun d => d.root.token := by
  induction ds generalizing ds' with
  | nil => rw [List.map_eq_nil_iff.mp h.symm]
  | cons d ds ih =>
    -- There are as many symbols on both sides.
    cases ds' with
    | nil => cases h
    | cons d' ds' =>
      obtain ⟨hfirst, hrest⟩ := List.cons.inj h
      rw [List.map_cons, List.map_cons, Node.token_eq_of_symbol_eq hfirst, ih hrest]

/-- Trees whose nodes have the same symbols in post-order are the same. -/
theorem eq_of_symbols_eq {e₁ e₂ : Expr}
    (h : e₁.postorder.map (fun d => d.root.symbol) = e₂.postorder.map fun d => d.root.symbol) :
    e₁ = e₂ := by
  have hprogram : e₁.program = e₂.program := map_token_eq h
  have htree := tree_program .constructors e₁
  rw [hprogram, tree_program] at htree
  exact (Except.ok.inj htree).symm

end Expr
end Reckoner
