import Reckoner.Proofs.Expr.Measure
import Reckoner.Proofs.Turns
import Reckoner.Rendering

/-!
# Rendering from a stack

`Expr.render` follows the tree, and `Expr.renderStack` writes from a stack of pieces.  Here the loop
over the stack is taken apart into its turns: a turn takes the first piece off the stack, writes
what the piece starts with, and puts the pieces that it is still made of in its place.

The invariant is that what has been written, followed by what the pieces on the stack come to, is
the final text (`Writing.final_of_next`).  It holds whatever is on the stack, so that the loop may
stand in the middle of any tree.  A tree takes `2 * e.size - 1` turns (`Writing.load_of_next`):
every node takes one, and so does every text that is kept back until an operand has been written.

The text of a tree is also the value of an algebra, `layout`, which gives the text of a node from
the texts of its operands.
-/

namespace Reckoner

/-! ## The layout of a node -/

/-- The text of a node whose operands have been rendered. -/
def layout : Algebra String
  | .constant v => " " ++ decimal32 v ++ " "
  | .negate a => " -" ++ a ++ " "
  | .exponent a n => " " ++ a ++ " ^ " ++ decimal32 n
  | .addition a b => " (" ++ a ++ " + " ++ b ++ ") "
  | .multiplication a b => " (" ++ a ++ " * " ++ b ++ ") "

/-- Rendering lays every node out around the texts of its operands. -/
theorem Expr.render_eq_value (e : Expr) : e.render = e.value layout := by
  -- `renderTo_eq` moves the text in front of an operand out.
  induction e with
  | constant v => rfl
  | negate e ih =>
    rw [value_negate, ← ih, render, renderTo, renderTo_eq]
    rfl
  | exponent b n ih =>
    rw [value_exponent, ← ih, render, renderTo, renderTo_eq]
    rfl
  | addition l r ihl ihr =>
    rw [value_addition, ← ihl, ← ihr, render, renderTo, renderTo_eq, renderTo_eq]
    rfl
  | multiplication l r ihl ihr =>
    rw [value_multiplication, ← ihl, ← ihr, render, renderTo, renderTo_eq, renderTo_eq]
    rfl

/-! ## Pieces -/

namespace Piece

/-- What is written as soon as a piece is taken off the stack. -/
def start : Piece → String
  | .tree (.constant v) => " " ++ decimal32 v ++ " "
  | .tree (.negate _) => " -"
  | .tree (.exponent _ _) => " "
  | .tree (.addition _ _) => " ("
  | .tree (.multiplication _ _) => " ("
  | .text t => t
  | .power n => " ^ " ++ decimal32 n

/-- What is put in the place of a piece, in the order in which it is to be written. -/
def others : Piece → List Piece
  | .tree (.negate e) => [.tree e, .text " "]
  | .tree (.exponent b n) => [.tree b, .power n]
  | .tree (.addition l r) => [.tree l, .text " + ", .tree r, .text ") "]
  | .tree (.multiplication l r) => [.tree l, .text " * ", .tree r, .text ") "]
  | _ => []

/-- What a piece comes to. -/
def final : Piece → String
  | .tree e => e.render
  | .text t => t
  | .power n => " ^ " ++ decimal32 n

/-- What a stack comes to. -/
def finalAll (stack : List Piece) : String := String.join (stack.map final)

/-- The first piece comes first. -/
theorem finalAll_cons (p : Piece) (stack : List Piece) :
    finalAll (p :: stack) = p.final ++ finalAll stack := by
  simp [finalAll]

/-- Stacks come to what they come to one after the other. -/
theorem finalAll_append (stack stack' : List Piece) :
    finalAll (stack ++ stack') = finalAll stack ++ finalAll stack' := by
  simp [finalAll]

/-- A piece comes to its start and what is put in its place. -/
theorem final_eq (p : Piece) : p.final = p.start ++ finalAll p.others := by
  cases p with
  | text t => simp [final, start, others, finalAll]
  | power n => simp [final, start, others, finalAll]
  | tree e =>
    -- A tree comes to the layout of its root, in which the operands are trees themselves.
    rw [final, Expr.render_eq_value]
    cases e with
    | constant v => simp [start, others, finalAll, Expr.value_constant, layout]
    | negate e =>
      simp [start, others, finalAll, final, Expr.value_negate, Expr.render_eq_value, layout,
        String.append_assoc]
    | exponent b n =>
      simp [start, others, finalAll, final, Expr.value_exponent, Expr.render_eq_value, layout,
        String.append_assoc]
    | addition l r =>
      simp [start, others, finalAll, final, Expr.value_addition, Expr.render_eq_value, layout,
        String.append_assoc]
    | multiplication l r =>
      simp [start, others, finalAll, final, Expr.value_multiplication, Expr.render_eq_value, layout,
        String.append_assoc]

/-- The number of turns that a piece takes. -/
def turns : Piece → Nat
  | .tree e => 2 * e.size - 1
  | _ => 1

def turnsAll : List Piece → Nat
  | [] => 0
  | p :: stack => p.turns + turnsAll stack

/-- Stacks take their turns one after the other. -/
theorem turnsAll_append (stack stack' : List Piece) :
    turnsAll (stack ++ stack') = turnsAll stack + turnsAll stack' := by
  induction stack with
  | nil => simp [turnsAll]
  | cons p stack ih => simp [turnsAll, ih, Nat.add_assoc]

/-- A piece takes one turn of its own and those of what is put in its place. -/
theorem turns_eq (p : Piece) : p.turns = turnsAll p.others + 1 := by
  cases p with
  | text t => rfl
  | power n => rfl
  | tree e =>
    cases e with
    | constant v => simp [turns, others, turnsAll]
    | negate e =>
      -- Of two turns for every node but the root, one is for the node and one for the text behind
      -- it.
      have hpos := e.size_pos
      simp only [turns, others, turnsAll, Expr.size_negate]
      omega
    | exponent b n =>
      have hpos := b.size_pos
      simp only [turns, others, turnsAll, Expr.size_exponent]
      omega
    | addition l r =>
      -- Two texts are kept back, one between the operands and one behind them.
      have hposl := l.size_pos
      have hposr := r.size_pos
      simp only [turns, others, turnsAll, Expr.size_addition]
      omega
    | multiplication l r =>
      have hposl := l.size_pos
      have hposr := r.size_pos
      simp only [turns, others, turnsAll, Expr.size_multiplication]
      omega

/-- What `writeAll` does with the first piece is one turn. -/
theorem writeAll_cons (out : String) (p : Piece) (stack : List Piece) :
    writeAll out (p :: stack) = writeAll (out ++ p.start) (p.others ++ stack) := by
  cases p with
  | text t => rw [writeAll]; rfl
  | power n => rw [writeAll, String.append_assoc]; rfl
  | tree e =>
    cases e <;> rw [writeAll] <;> simp [start, others, String.append_assoc]

end Piece

/-! ## Turns of the loop -/

/-- A text that is being written, and what remains to be written. -/
structure Writing where
  out : String
  stack : List Piece

namespace Writing

/-- One turn: the first piece is taken off the stack. -/
inductive Next : Writing → Writing → Prop where
  | take (out : String) (p : Piece) (stack : List Piece) :
      Next ⟨out, p :: stack⟩ ⟨out ++ p.start, p.others ++ stack⟩

/-- What the text comes to. -/
def final (w : Writing) : String := w.out ++ Piece.finalAll w.stack

/-- What is to be written in the end does not change. -/
theorem final_of_next (w w' : Writing) (h : Next w w') : w'.final = w.final := by
  cases h with
  | take out p stack =>
    show out ++ p.start ++ Piece.finalAll (p.others ++ stack) = out ++ Piece.finalAll (p :: stack)
    rw [Piece.finalAll_append, Piece.finalAll_cons, Piece.final_eq, String.append_assoc,
      String.append_assoc]

/-- Every turn is one less that remains. -/
theorem load_of_next (w w' : Writing) (h : Next w w') :
    Piece.turnsAll w'.stack + 1 = Piece.turnsAll w.stack := by
  cases h with
  | take out p stack =>
    rw [Piece.turnsAll_append, Piece.turnsAll, Piece.turns_eq]
    omega

/-- The loop goes on as `writeAll` does. -/
theorem writeAll_of_next (w w' : Writing) (h : Next w w') :
    Piece.writeAll w'.out w'.stack = Piece.writeAll w.out w.stack := by
  cases h with
  | take out p stack => exact (Piece.writeAll_cons out p stack).symm

/-- As long as turns are left there is a piece to take. -/
theorem exists_next (w : Writing) (h : Piece.turnsAll w.stack ≠ 0) : ∃ w', Next w w' := by
  obtain ⟨out, stack⟩ := w
  cases stack with
  | nil => exact absurd rfl h
  | cons p stack => exact ⟨_, .take out p stack⟩

/-- No turn is left just if no piece is. -/
theorem turnsAll_eq_zero_iff {stack : List Piece} : Piece.turnsAll stack = 0 ↔ stack = [] := by
  cases stack with
  | nil => simp [Piece.turnsAll]
  | cons p stack => simp [Piece.turnsAll, Piece.turns_eq]

/-- The whole of a tree is to be written. -/
def ofTree (e : Expr) : Writing := ⟨"", [.tree e]⟩

/-- In the end the whole tree is written. -/
theorem final_ofTree (e : Expr) : (ofTree e).final = e.render := by
  simp [ofTree, final, Piece.finalAll, Piece.final]

/-- The turns at the start are those of the tree. -/
theorem turnsAll_ofTree (e : Expr) : Piece.turnsAll (ofTree e).stack = 2 * e.size - 1 := rfl

/-- The loop writes the whole text and stops. -/
theorem turns_ofTree (e : Expr) : Turns Next (2 * e.size - 1) (ofTree e) ⟨e.render, []⟩ := by
  obtain ⟨⟨out, stack⟩, hturns, hdone⟩ := Turns.exists_of_load load_of_next exists_next (ofTree e)
  obtain rfl := turnsAll_eq_zero_iff.mp hdone
  -- Nothing is left on the stack, so that the text that is there is the final one.
  have hfinal := hturns.keeps_eq final_of_next
  rw [final_ofTree] at hfinal
  have hout : out = e.render := by
    rw [← hfinal]
    simp [final, Piece.finalAll]
  rw [← hout]
  exact hturns

end Writing

namespace Expr

/-- What is written from the stack is the rendering. -/
theorem renderStack_eq (e : Expr) : e.renderStack = e.render := by
  have hwritten := (Writing.turns_ofTree e).keeps_eq Writing.writeAll_of_next
  rw [Piece.writeAll] at hwritten
  exact hwritten.symm

/-- **Rendering from a stack writes the rendering**, for every tree.  The rendering is what is
written after any other text, and it is the layout of the nodes around the texts of their operands.
The loop over the stack stops after `2 * e.size - 1` turns with the rendering written and nothing
left, and not before: at every turn on the way, what is written and what the pieces on the stack
come to is the rendering, and going on from there ends with the same text. -/
theorem renderStack_eq_render (e : Expr) :
    e.renderStack = e.render ∧
      e.render = e.value layout ∧ (∀ out, renderTo out e = out ++ e.render) ∧
      Turns Writing.Next (2 * e.size - 1) (.ofTree e) ⟨e.render, []⟩ ∧
      ∀ n w, Turns Writing.Next n (.ofTree e) w →
        w.out ++ Piece.finalAll w.stack = e.render ∧
          Piece.writeAll w.out w.stack = e.renderStack ∧
          (w.stack = [] ↔ n = 2 * e.size - 1) := by
  have hturns := Writing.turns_ofTree e
  refine ⟨e.renderStack_eq, e.render_eq_value, renderTo_eq e, hturns, ?turn⟩
  case turn =>
    intro n w hw
    refine ⟨?_, hw.keeps_eq Writing.writeAll_of_next, ?_⟩
    · rw [← Writing.final_ofTree e]
      exact hw.keeps_eq Writing.final_of_next
    · -- The turns taken and the turns left are those of the tree.
      have hload := hw.add_eq Writing.load_of_next
      rw [Writing.turnsAll_ofTree] at hload
      rw [← Writing.turnsAll_eq_zero_iff]
      omega

end Expr
end Reckoner
