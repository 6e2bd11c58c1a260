import Reckoner.Expr.Reading
import Reckoner.Proofs.Json.Scanning

/-!
# Trees are read back from their documents

The compact text of a tree's document is read back as the tree, as long as no more containers are
open at a time than a reader accepts; otherwise the text counts as malformed
(`Expr.ofJson_json`).  `Expr.nest` says how many containers are open at the deepest place: every
node opens an object, and the nodes with a pair of operands, or with base and exponent, open an
array in it.

Scanning does not limit nesting, so that the whole text becomes a draft first.  The draft is read
with `room` containers left to open (`Expr.readWithin`): one object takes one of them, whatever
its kind (`Expr.readAs_tagged`), and one array another one.
-/

namespace Reckoner

open Json (Document Draft Reading fault)

/-! ## Numbers -/

/-- The literal of a 32-bit integer is found as this integer. -/
private theorem found_int32 (v : Int32) :
    ∃ found, (Document.int32 v).draft.found = .ok found ∧ found.integer? = some v.toInt := by
  have hfound : ∀ found, Json.Found.ofNumeral? (.ofInt v.toInt) = some found →
      (Document.int32 v).draft.found = .ok found := by
    intro found h
    show (Draft.number (.ofInt v.toInt)).found = _
    rw [Draft.found, h]
  have hlower := v.le_toInt
  have hupper := v.toInt_lt
  have hnumber := Json.Numeral.number?_ofInt (i := v.toInt) (by omega) (by omega)
  -- Integers of either sign are found in their own way.
  by_cases hnegative : v.toInt < 0
  · refine ⟨.negative v.toInt, hfound _ ?_, rfl⟩
    simp [Json.Found.ofNumeral?, hnumber, hnegative]
  · have habs : (v.toInt.natAbs : Int) = v.toInt := by omega
    refine ⟨.natural v.toInt.natAbs, hfound _ ?_, congrArg some habs⟩
    simp [Json.Found.ofNumeral?, hnumber, hnegative]

theorem Json.readInt32_int32 (v : Int32) : Json.readInt32 (Document.int32 v).draft = .ok v := by
  obtain ⟨found, hfound, hinteger⟩ := found_int32 v
  have hvalue : toInt32? v.toInt = some v := toInt32?_eq_some_iff.mpr rfl
  simp [Json.readInt32, hfound, hinteger, hvalue, Json.orFault, bind, Except.bind, pure,
    Except.pure]

namespace Expr

/-! ## Documents of trees -/

/-- How many containers are open at the deepest place of a tree's document. -/
def nest : Expr → Nat
  | .constant _ => 1
  | .negate e => 1 + e.nest
  | .exponent b _ => 2 + b.nest
  | .addition l r => 2 + max l.nest r.nest
  | .multiplication l r => 2 + max l.nest r.nest

theorem wellFormed_document (e : Expr) : e.document.WellFormed := by
  induction e with
  | constant v => exact ⟨trivial, Json.Numeral.wellFormed_ofInt v.toInt, trivial⟩
  | negate e ih => exact ⟨trivial, ih, trivial⟩
  | exponent b n ih =>
    exact ⟨trivial, ⟨ih, Json.Numeral.wellFormed_ofInt n.toInt, trivial⟩, trivial⟩
  | addition l r ihl ihr => exact ⟨trivial, ⟨ihl, ihr, trivial⟩, trivial⟩
  | multiplication l r ihl ihr => exact ⟨trivial, ⟨ihl, ihr, trivial⟩, trivial⟩

/-! ## One container -/

theorem named_name (kind : Kind) : Json.named Kind.vocabulary kind.name = .ok kind := by
  unfold Json.named
  rw [show Kind.vocabulary.find? kind.name = some kind from Kind.ofName?_name kind]

/-- The object of a node takes one container, and its content is read with the others. -/
theorem readAs_tagged (room : Nat) (kind : Kind) (content : Document) :
    readAs (.direct (room + 1)) .tree (tagged kind content).draft =
      (readAs (.direct room) (wanted kind) content.draft).map (wrap kind) := by
  have hdraft : (tagged kind content).draft =
      .object [(.name "type", .text (some kind.name)), (.name "value", content.draft)] none := by
    simp [tagged, Document.draft, Document.memberDrafts]
  rw [hdraft]
  simp only [readAs, bind, Except.bind, Reading.enter, readMembers, Json.keyName, ↓reduceIte,
    Json.readChoice, Json.readChoiceDirect, named_name, readContent, String.reduceEq]
  -- The object closes behind its content, whatever has been read.
  cases readAs (.direct room) (wanted kind) content.draft with
  | error problem => rfl
  | ok e => rfl

/-- With no container left, the object of a node is one too many. -/
theorem readAs_tagged_zero (kind : Kind) (content : Document) :
    readAs (.direct 0) .tree (tagged kind content).draft = fault .malformed := by
  simp [tagged, Document.draft, readAs, Reading.enter, fault, bind, Except.bind]

theorem readAs_pair_zero (p : Pair) (items : List Document) :
    readAs (.direct 0) (.pair p) (Document.array items).draft = fault .malformed := by
  simp [Document.draft, readAs, Reading.enter, fault, bind, Except.bind]

/-- The array of base and exponent takes one container. -/
theorem readAs_base (room : Nat) (base : Document) (n : Int32) :
    readAs (.direct (room + 1)) (.pair .exponent) (Document.array [base, .int32 n]).draft =
      (readAs (.direct room) .tree base.draft).map (.exponent · n) := by
  simp only [Document.draft, Document.drafts, readAs, bind, Except.bind, Reading.enter, readPair,
    Json.readInt32_int32]
  cases readAs (.direct room) .tree base.draft with
  | error problem => rfl
  | ok e => simp; rfl

/-- The nodes with two operands, which are read alike. -/
def Pair.join : Pair → Option (Expr → Expr → Expr)
  | .exponent => none
  | .addition => some .addition
  | .multiplication => some .multiplication

/-- The array of two operands takes one container, and the left operand is read first. -/
theorem readAs_operands (room : Nat) {p : Pair} {node : Expr → Expr → Expr}
    (hp : p.join = some node) (left right : Document) :
    readAs (.direct (room + 1)) (.pair p) (Document.array [left, right]).draft =
      (readAs (.direct room) .tree left.draft).bind fun l =>
        (readAs (.direct room) .tree right.draft).map (node l) := by
  cases p with
  | exponent => cases hp
  | addition =>
    cases hp
    simp only [Document.draft, Document.drafts, readAs, bind, Except.bind, Reading.enter, readPair]
    cases readAs (.direct room) .tree left.draft with
    | error problem => rfl
    | ok l => cases readAs (.direct room) .tree right.draft <;> rfl
  | multiplication =>
    cases hp
    simp only [Document.draft, Document.drafts, readAs, bind, Except.bind, Reading.enter, readPair]
    cases readAs (.direct room) .tree left.draft with
    | error problem => rfl
    | ok l => cases readAs (.direct room) .tree right.draft <;> rfl

/-! ## Whole trees -/

/-- A tree is read from its document if there is room for it. -/
def ReadWithin (e : Expr) : Prop :=
  ∀ room, readAs (.direct room) .tree e.document.draft =
    if e.nest ≤ room then .ok e else fault .malformed

/-- The object of a node and the array in it need two containers. -/
theorem readAs_tagged_of_lt {room : Nat} (hroom : room < 2) {kind : Kind} {p : Pair}
    (hkind : wanted kind = .pair p) (items : List Document) :
    readAs (.direct room) .tree (tagged kind (.array items)).draft = fault .malformed := by
  match room with
  | 0 => exact readAs_tagged_zero kind _
  | 1 =>
    rw [readAs_tagged, hkind, readAs_pair_zero]
    rfl

/-- A power is read if there is room for its base below two containers. -/
theorem readAs_power {b : Expr} (hb : b.ReadWithin) (n : Int32) (room : Nat) :
    readAs (.direct room) .tree (tagged .exponent (.array [b.document, .int32 n])).draft =
      if 2 + b.nest ≤ room then .ok (.exponent b n) else fault .malformed := by
  -- There must be room for the object and the array.
  match room with
  | 0 | 1 => rw [readAs_tagged_of_lt (by decide) rfl, if_neg (by omega)]
  | room + 2 =>
    rw [readAs_tagged, wanted, readAs_base, hb]
    by_cases hroom : b.nest ≤ room
    · rw [if_pos hroom, if_pos (by omega)]
      rfl
    · rw [if_neg hroom, if_neg (by omega)]
      rfl

/-- A node with two operands is read if there is room for both below two containers. -/
theorem readAs_binary {l r : Expr} (hl : l.ReadWithin) (hr : r.ReadWithin) {kind : Kind} {p : Pair}
    {node : Expr → Expr → Expr} (hkind : wanted kind = .pair p) (hwrap : ∀ e, wrap kind e = e)
    (hp : p.join = some node) (room : Nat) :
    readAs (.direct room) .tree (tagged kind (.array [l.document, r.document])).draft =
      if 2 + max l.nest r.nest ≤ room then .ok (node l r) else fault .malformed := by
  match room with
  | 0 | 1 => rw [readAs_tagged_of_lt (by decide) hkind, if_neg (by omega)]
  | room + 2 =>
    rw [readAs_tagged, hkind, readAs_operands room hp, hl, hr]
    -- The right operand is only read if there was room for the left one.
    by_cases hleft : l.nest ≤ room
    · by_cases hright : r.nest ≤ room
      · have hroom : 2 + max l.nest r.nest ≤ room + 2 := by omega
        rw [if_pos hleft, if_pos hright, if_pos hroom]
        exact congrArg Except.ok (hwrap (node l r))
      · have hroom : ¬ 2 + max l.nest r.nest ≤ room + 2 := by omega
        rw [if_pos hleft, if_neg hright, if_neg hroom]
        rfl
    · have hroom : ¬ 2 + max l.nest r.nest ≤ room + 2 := by omega
      rw [if_neg hleft, if_neg hroom]
      rfl

theorem readWithin (e : Expr) : e.ReadWithin := by
  intro room
  -- Below a node there is less room than at the node.
  induction e generalizing room with
  | constant v =>
    cases room with
    | zero => exact readAs_tagged_zero .constant _
    | succ room =>
      have hread : readAs (.direct room) .constant (Document.int32 v).draft =
          .ok (.constant v) := by
        show (Json.readInt32 (Document.int32 v).draft).bind (fun i => .ok (constant i)) = _
        rw [Json.readInt32_int32]
        rfl
      rw [document, readAs_tagged, wanted, hread, nest, if_pos (Nat.le_add_left 1 room)]
      rfl
  | negate e ih =>
    cases room with
    | zero =>
      rw [nest, if_neg (by omega)]
      exact readAs_tagged_zero .negate _
    | succ room =>
      rw [document, readAs_tagged, wanted, ih room, nest]
      by_cases hroom : e.nest ≤ room
      · rw [if_pos hroom, if_pos (by omega)]
        rfl
      · rw [if_neg hroom, if_neg (by omega)]
        rfl
  | exponent b n ih => exact readAs_power ih n room
  | addition l r ihl ihr => exact readAs_binary ihl ihr rfl (fun _ => rfl) rfl room
  | multiplication l r ihl ihr => exact readAs_binary ihl ihr rfl (fun _ => rfl) rfl room

/-- **The round trip and its boundary**: the compact text of a tree's document is read back as the
tree if at most 127 containers are open at a time, and otherwise counts as malformed. -/
theorem ofJson_json (e : Expr) :
    ofJson e.json = if e.nest ≤ 127 then .ok e else .error (.fault .malformed) := by
  unfold ofJson Json.readText json
  rw [Json.scan_write e.wellFormed_document]
  show (readAs (.direct 127) .tree e.document.draft).bind (fun e => Except.ok e) = _
  rw [readWithin e 127]
  split <;> rfl

end Expr
end Reckoner
