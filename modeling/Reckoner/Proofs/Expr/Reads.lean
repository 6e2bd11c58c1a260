import Reckoner.Proofs.Expr.RoundTrip
import Reckoner.Proofs.Json.Drafts

/-!
# Drafts that are read as trees

The relation `Expr.Reads` has one rule for each way in which a draft is read with success: an array
or an object of the right members is a node, an array of two is a pair, and a number is a number.
`Expr.readAs_eq_ok_iff` says that these are all the ways, so that facts about everything that a
reader accepts can be proved by induction on the rules.

The members of an object matter only if they are called `type` or `value`; `Expr.Keeps` says which
ones these are.  An object is read as a node if it has one of each
(`Expr.readMembers_eq_ok_iff`), whatever there is in between.
-/

namespace Reckoner
namespace Expr

open Json

/-! ## Members that matter -/

/-- The members that a node has. -/
inductive Field where
  | type
  | value

def Field.name : Field → String
  | .type => "type"
  | .value => "value"

/-- Whether a member does not matter and can be passed over. -/
def Passed (key : Key) (value : Draft) : Prop :=
  ∃ name, key = .name name ∧ name ≠ "type" ∧ name ≠ "value" ∧ pass value = .ok ()

/-- Whether certain members are those that matter, the others being passed over. -/
inductive Keeps : List (Key × Draft) → List (Field × Draft) → Prop where
  | nil : Keeps [] []
  | kept (field : Field) {value : Draft} {members : List (Key × Draft)}
      {ms : List (Field × Draft)} :
      Keeps members ms → Keeps ((.name field.name, value) :: members) ((field, value) :: ms)
  | passed {key : Key} {value : Draft} {members : List (Key × Draft)}
      {ms : List (Field × Draft)} :
      Passed key value → Keeps members ms → Keeps ((key, value) :: members) ms

/-- Members that matter are members. -/
theorem Keeps.mem {members : List (Key × Draft)} {ms : List (Field × Draft)}
    (h : Keeps members ms) {field : Field} {value : Draft} (hmem : (field, value) ∈ ms) :
    (.name field.name, value) ∈ members := by
  induction h with
  | nil => cases hmem
  | kept _ _ ih =>
    rcases List.mem_cons.mp hmem with heq | hmem
    · obtain ⟨rfl, rfl⟩ := Prod.mk.inj heq
      exact List.mem_cons_self
    · exact List.mem_cons_of_mem _ (ih hmem)
  | passed _ _ ih => exact List.mem_cons_of_mem _ (ih hmem)

/-- What is done with a member depends on which of the two names it has, if any. -/
theorem member_eq_ok_iff {α : Type} {key : Key} {value : Draft}
    {onType onValue : String → Except Problem α} {next : Except Problem α} {a : α} :
    (do
      let name ← keyName key
      if name = "type" then onType name
      else if name = "value" then onValue name
      else do
        pass value
        next) = .ok a ↔
      key = .name "type" ∧ onType "type" = .ok a ∨
      key = .name "value" ∧ onValue "value" = .ok a ∨
      Passed key value ∧ next = .ok a := by
  simp only [bind_eq_ok_iff, keyName_eq_ok_iff, Passed]
  constructor
  · rintro ⟨name, rfl, h⟩
    -- The names are compared in this order, and they differ.
    split at h
    next htype => exact .inl ⟨by rw [htype], htype ▸ h⟩
    next htype =>
      split at h
      next hvalue => exact .inr (.inl ⟨by rw [hvalue], hvalue ▸ h⟩)
      next hvalue =>
        obtain ⟨hpass, hnext⟩ := bind_unit_eq_ok_iff.mp h
        exact .inr (.inr ⟨⟨name, rfl, htype, hvalue, hpass⟩, hnext⟩)
  · rintro (⟨rfl, h⟩ | ⟨rfl, h⟩ | ⟨⟨name, rfl, htype, hvalue, hpass⟩, h⟩)
    · exact ⟨"type", rfl, h⟩
    · exact ⟨"value", rfl, h⟩
    · refine ⟨name, rfl, ?_⟩
      rw [if_neg htype, if_neg hvalue]
      exact bind_unit_eq_ok_iff.mpr ⟨hpass, h⟩

/-- After the last member that matters there is none, and the object ends well. -/
theorem closeMembers_eq_ok_iff {damage : Option Damage} {members : List (Key × Draft)} :
    closeMembers damage members = .ok () ↔ Keeps members [] ∧ damage = none := by
  induction members with
  | nil =>
    rw [closeMembers, orFault_eq_ok_iff, ending_eq_ok_iff]
    exact ⟨fun h => ⟨.nil, h⟩, fun h => h.2⟩
  | cons member members ih =>
    obtain ⟨key, value⟩ := member
    simp only [closeMembers, bind_eq_ok_iff, keyName_eq_ok_iff]
    constructor
    · rintro ⟨name, rfl, h⟩
      split at h
      · exact absurd h (mismatch_ne_ok _ _)
      next hname =>
        obtain ⟨htype, hvalue⟩ := not_or.mp hname
        obtain ⟨hpass, hclose⟩ := bind_unit_eq_ok_iff.mp h
        obtain ⟨hkeeps, hdamage⟩ := ih.mp hclose
        exact ⟨.passed ⟨name, rfl, htype, hvalue, hpass⟩ hkeeps, hdamage⟩
    · rintro ⟨hkeeps, hdamage⟩
      cases hkeeps with
      | passed hpassed hkeeps =>
        obtain ⟨name, rfl, htype, hvalue, hpass⟩ := hpassed
        refine ⟨name, rfl, ?_⟩
        rw [if_neg (not_or.mpr ⟨htype, hvalue⟩)]
        exact bind_unit_eq_ok_iff.mpr ⟨hpass, ih.mpr ⟨hkeeps, hdamage⟩⟩

variable {r : Reading} {damage : Option Damage} {kind : Kind} {e : Expr}

/-- Behind `value` there is `type` and nothing else that matters. -/
theorem readKind_eq_ok_iff {members : List (Key × Draft)} :
    (∃ rest, readKind r damage members = .ok (kind, rest) ∧ closeMembers damage rest = .ok ()) ↔
      damage = none ∧
        ∃ tag, Keeps members [(.type, tag)] ∧ readChoice Kind.vocabulary r tag = .ok kind := by
  induction members with
  | nil =>
    constructor
    · rintro ⟨rest, h, -⟩
      exact absurd (bind_unit_eq_ok_iff.mp h).2 (mismatch_ne_ok _ _)
    · rintro ⟨-, tag, hkeeps, -⟩
      cases hkeeps
  | cons member members ih =>
    obtain ⟨key, value⟩ := member
    simp only [readKind, member_eq_ok_iff]
    constructor
    · rintro ⟨rest, ⟨rfl, h⟩ | ⟨-, h⟩ | ⟨hpassed, h⟩, hclose⟩
      · obtain ⟨kind, hchoice, h⟩ := bind_eq_ok_iff.mp h
        obtain ⟨rfl, rfl⟩ := Prod.mk.inj (pure_eq_ok_iff.mp h)
        obtain ⟨hkeeps, hdamage⟩ := closeMembers_eq_ok_iff.mp hclose
        exact ⟨hdamage, value, .kept .type hkeeps, hchoice⟩
      · -- A second `value` is one too many.
        exact absurd h (mismatch_ne_ok _ _)
      · obtain ⟨hdamage, tag, hkeeps, hchoice⟩ := ih.mp ⟨rest, h, hclose⟩
        exact ⟨hdamage, tag, .passed hpassed hkeeps, hchoice⟩
    · rintro ⟨hdamage, tag, hkeeps, hchoice⟩
      cases hkeeps with
      | kept _ hkeeps =>
        have hclose := closeMembers_eq_ok_iff.mpr ⟨hkeeps, hdamage⟩
        exact ⟨members, .inl ⟨rfl, bind_eq_ok_iff.mpr ⟨kind, hchoice, rfl⟩⟩, hclose⟩
      | passed hpassed hkeeps =>
        obtain ⟨rest, h, hclose⟩ := ih.mpr ⟨hdamage, tag, hkeeps, hchoice⟩
        exact ⟨rest, .inr (.inr ⟨hpassed, h⟩), hclose⟩

/-- Behind `type` there is `value` and nothing else that matters. -/
theorem readContent_eq_ok_iff {members : List (Key × Draft)} :
    readContent r kind damage members = .ok e ↔
      damage = none ∧ ∃ content d, Keeps members [(.value, content)] ∧
        readAs r (wanted kind) content = .ok d ∧ wrap kind d = e := by
  induction members with
  | nil =>
    constructor
    · intro h
      rw [readContent] at h
      exact absurd (bind_unit_eq_ok_iff.mp h).2 (mismatch_ne_ok _ _)
    · rintro ⟨-, content, d, hkeeps, -⟩
      cases hkeeps
  | cons member members ih =>
    obtain ⟨key, value⟩ := member
    simp only [readContent, member_eq_ok_iff]
    constructor
    · rintro (⟨-, h⟩ | ⟨rfl, h⟩ | ⟨hpassed, h⟩)
      · -- Likewise a second `type`.
        exact absurd h (mismatch_ne_ok _ _)
      · obtain ⟨d, hread, h⟩ := bind_eq_ok_iff.mp h
        obtain ⟨hclose, h⟩ := bind_unit_eq_ok_iff.mp h
        obtain ⟨hkeeps, hdamage⟩ := closeMembers_eq_ok_iff.mp hclose
        exact ⟨hdamage, value, d, .kept .value hkeeps, hread, pure_eq_ok_iff.mp h⟩
      · obtain ⟨hdamage, content, d, hkeeps, hread⟩ := ih.mp h
        exact ⟨hdamage, content, d, .passed hpassed hkeeps, hread⟩
    · rintro ⟨hdamage, content, d, hkeeps, hread, rfl⟩
      cases hkeeps with
      | kept _ hkeeps =>
        have hclose := closeMembers_eq_ok_iff.mpr ⟨hkeeps, hdamage⟩
        refine .inr (.inl ⟨rfl, bind_eq_ok_iff.mpr ⟨d, hread, ?_⟩⟩)
        exact bind_unit_eq_ok_iff.mpr ⟨hclose, rfl⟩
      | passed hpassed hkeeps =>
        exact .inr (.inr ⟨hpassed, ih.mpr ⟨hdamage, content, d, hkeeps, hread, rfl⟩⟩)

/-- How the content of a node is read, by which of its two members comes first. -/
inductive ReadsMembers (r : Reading) (members : List (Key × Draft)) (kind : Kind) (d : Expr) :
    Prop where
  | typeFirst {tag content : Draft} (keeps : Keeps members [(.type, tag), (.value, content)])
      (choice : readChoice Kind.vocabulary r tag = .ok kind)
      (content : readAs r (wanted kind) content = .ok d)
  -- The content is stored before the tag is read, and then read from the store.
  | valueFirst {tag content : Draft} (keeps : Keeps members [(.value, content), (.type, tag)])
      (stored : r.keep content = .ok ())
      (choice : readChoice Kind.vocabulary r tag = .ok kind)
      (content : readAs .stored (wanted kind) content = .ok d)

theorem ReadsMembers.passed {members : List (Key × Draft)} {d : Expr} {key : Key} {value : Draft}
    (hpassed : Passed key value) (h : ReadsMembers r members kind d) :
    ReadsMembers r ((key, value) :: members) kind d := by
  cases h with
  | typeFirst keeps choice content => exact .typeFirst (.passed hpassed keeps) choice content
  | valueFirst keeps stored choice content =>
    exact .valueFirst (.passed hpassed keeps) stored choice content

/-- An object is read as a node if it has one `type` and one `value`. -/
theorem readMembers_eq_ok_iff {members : List (Key × Draft)} :
    readMembers r damage members = .ok e ↔
      damage = none ∧ ∃ kind d, ReadsMembers r members kind d ∧ wrap kind d = e := by
  induction members with
  | nil =>
    constructor
    · intro h
      rw [readMembers] at h
      exact absurd (bind_unit_eq_ok_iff.mp h).2 (mismatch_ne_ok _ _)
    · rintro ⟨-, kind, d, h, -⟩
      cases h with
      | typeFirst keeps => cases keeps
      | valueFirst keeps => cases keeps
  | cons member members ih =>
    obtain ⟨key, value⟩ := member
    simp only [readMembers, member_eq_ok_iff]
    -- The first member that matters decides which of the two comes first.
    constructor
    · rintro (⟨rfl, h⟩ | ⟨rfl, h⟩ | ⟨hpassed, h⟩)
      · obtain ⟨kind, hchoice, h⟩ := bind_eq_ok_iff.mp h
        obtain ⟨hdamage, content, d, hkeeps, hread, hwrap⟩ := readContent_eq_ok_iff.mp h
        exact ⟨hdamage, kind, d, .typeFirst (.kept .type hkeeps) hchoice hread, hwrap⟩
      · obtain ⟨hkeep, h⟩ := bind_unit_eq_ok_iff.mp h
        obtain ⟨⟨kind, rest⟩, hkind, h⟩ := bind_eq_ok_iff.mp h
        obtain ⟨d, hread, h⟩ := bind_eq_ok_iff.mp h
        obtain ⟨hclose, h⟩ := bind_unit_eq_ok_iff.mp h
        obtain ⟨hdamage, tag, hkeeps, hchoice⟩ := readKind_eq_ok_iff.mp ⟨rest, hkind, hclose⟩
        exact ⟨hdamage, kind, d, .valueFirst (.kept .value hkeeps) hkeep hchoice hread,
          pure_eq_ok_iff.mp h⟩
      · obtain ⟨hdamage, kind, d, hreads, hwrap⟩ := ih.mp h
        exact ⟨hdamage, kind, d, hreads.passed hpassed, hwrap⟩
    · rintro ⟨hdamage, kind, d, h, rfl⟩
      -- The member at hand is the first one of those that matter, or it is passed over.
      cases h with
      | @typeFirst tag content keeps choice hread =>
        cases keeps with
        | kept _ keeps =>
          refine .inl ⟨rfl, bind_eq_ok_iff.mpr ⟨kind, choice, ?_⟩⟩
          exact readContent_eq_ok_iff.mpr ⟨hdamage, content, d, keeps, hread, rfl⟩
        | passed hpassed keeps =>
          have hrest := ih.mpr ⟨hdamage, kind, d, .typeFirst keeps choice hread, rfl⟩
          exact .inr (.inr ⟨hpassed, hrest⟩)
      | @valueFirst tag content keeps stored choice hread =>
        cases keeps with
        | kept _ keeps =>
          obtain ⟨rest, hkind, hclose⟩ := readKind_eq_ok_iff.mpr ⟨hdamage, tag, keeps, choice⟩
          refine .inr (.inl ⟨rfl, bind_unit_eq_ok_iff.mpr ⟨stored, ?_⟩⟩)
          refine bind_eq_ok_iff.mpr ⟨(kind, rest), hkind, bind_eq_ok_iff.mpr ⟨d, hread, ?_⟩⟩
          exact bind_unit_eq_ok_iff.mpr ⟨hclose, rfl⟩
        | passed hpassed keeps =>
          have hrest := ih.mpr ⟨hdamage, kind, d, .valueFirst keeps stored choice hread, rfl⟩
          exact .inr (.inr ⟨hpassed, hrest⟩)

/-! ## Items -/

/-- An array is read as a node if it holds a tag and the content that goes with it. -/
theorem readTagged_eq_ok_iff {items : List Draft} :
    readTagged r damage items = .ok e ↔ damage = none ∧ ∃ tag content kind d,
      items = [tag, content] ∧ readIdentifier Kind.vocabulary r tag = .ok kind ∧
        readAs r (wanted kind) content = .ok d ∧ wrap kind d = e := by
  constructor
  · intro h
    -- There must be two items, and not more.
    match items with
    | [] =>
      rw [readTagged] at h
      exact absurd h (tooShort_ne_ok _ _ _ _)
    | [tag] =>
      rw [readTagged] at h
      obtain ⟨kind, -, h⟩ := bind_eq_ok_iff.mp h
      exact absurd h (tooShort_ne_ok _ _ _ _)
    | tag :: content :: more =>
      rw [readTagged] at h
      obtain ⟨kind, htag, h⟩ := bind_eq_ok_iff.mp h
      obtain ⟨d, hread, h⟩ := bind_eq_ok_iff.mp h
      obtain ⟨hclose, hwrap⟩ := bind_unit_eq_ok_iff.mp h
      obtain ⟨rfl, hdamage⟩ := closeItems_eq_ok_iff.mp hclose
      exact ⟨hdamage, tag, content, kind, d, rfl, htag, hread, pure_eq_ok_iff.mp hwrap⟩
  · rintro ⟨hdamage, tag, content, kind, d, rfl, htag, hread, rfl⟩
    have hclose : r.closeItems 2 [] damage = .ok () := closeItems_eq_ok_iff.mpr ⟨rfl, hdamage⟩
    rw [readTagged]
    refine bind_eq_ok_iff.mpr ⟨kind, htag, bind_eq_ok_iff.mpr ⟨d, hread, ?_⟩⟩
    exact bind_unit_eq_ok_iff.mpr ⟨hclose, rfl⟩

/-- Reads the second item of a pair behind what the first one has been read as. -/
def readSecond (r : Reading) (left : Expr) (second : Draft) : Pair → Except Problem Expr
  | .exponent => (readInt32 second).map (.exponent left)
  | .addition => (readAs r .tree second).map (.addition left)
  | .multiplication => (readAs r .tree second).map (.multiplication left)

/-- The second item is a number or another operand, as the pair has it. -/
theorem readSecond_eq_ok_iff {p : Pair} {left : Expr} {second : Draft} :
    readSecond r left second p = .ok e ↔
      (∃ n, p = .exponent ∧ readInt32 second = .ok n ∧ .exponent left n = e) ∨
      ∃ node right, p.join = some node ∧ readAs r .tree second = .ok right ∧
        node left right = e := by
  cases p <;> simp [readSecond, map_eq_ok_iff, Pair.join]

theorem readPair_cons_cons (p : Pair) (first second : Draft) (more : List Draft) :
    readPair r p damage (first :: second :: more) = do
      let left ← readAs r .tree first
      let e ← readSecond r left second p
      r.closeItems 2 more damage
      return e := by
  rw [readPair]
  apply congrArg
  funext left
  cases p with
  | exponent =>
    rw [readSecond]
    cases readInt32 second <;> rfl
  | addition | multiplication =>
    rw [readSecond]
    cases readAs r .tree second <;> rfl

/-- An array is read as a pair if it holds the two parts. -/
theorem readPair_eq_ok_iff {p : Pair} {items : List Draft} :
    readPair r p damage items = .ok e ↔ damage = none ∧ ∃ first second left,
      items = [first, second] ∧ readAs r .tree first = .ok left ∧
        readSecond r left second p = .ok e := by
  constructor
  · intro h
    -- Likewise here.
    match items with
    | [] =>
      rw [readPair] at h
      exact absurd h (tooShort_ne_ok _ _ _ _)
    | [first] =>
      rw [readPair] at h
      obtain ⟨left, -, h⟩ := bind_eq_ok_iff.mp h
      exact absurd h (tooShort_ne_ok _ _ _ _)
    | first :: second :: more =>
      rw [readPair_cons_cons] at h
      obtain ⟨left, hfirst, h⟩ := bind_eq_ok_iff.mp h
      obtain ⟨d, hsecond, h⟩ := bind_eq_ok_iff.mp h
      obtain ⟨hclose, heq⟩ := bind_unit_eq_ok_iff.mp h
      obtain ⟨rfl, hdamage⟩ := closeItems_eq_ok_iff.mp hclose
      exact ⟨hdamage, first, second, left, rfl, hfirst, pure_eq_ok_iff.mp heq ▸ hsecond⟩
  · rintro ⟨hdamage, first, second, left, rfl, hfirst, hsecond⟩
    have hclose : r.closeItems 2 [] damage = .ok () := closeItems_eq_ok_iff.mpr ⟨rfl, hdamage⟩
    rw [readPair_cons_cons]
    refine bind_eq_ok_iff.mpr ⟨left, hfirst, bind_eq_ok_iff.mpr ⟨e, hsecond, ?_⟩⟩
    exact bind_unit_eq_ok_iff.mpr ⟨hclose, rfl⟩

/-! ## Values -/

theorem refuse_ne_ok (d : Draft) (expected : String) (e : Expr) :
    refuse d expected ≠ .ok e := by
  intro h
  obtain ⟨found, -, h⟩ := bind_eq_ok_iff.mp h
  exact mismatch_ne_ok _ _ h

/-- A constant is read from a number, and from nothing else. -/
theorem readAs_constant_eq_ok_iff {d : Draft} :
    readAs r .constant d = .ok e ↔ ∃ v, readInt32 d = .ok v ∧ .constant v = e := by
  cases d with
  | array items damage | object members damage =>
    simp [readAs, mismatch_ne_ok, readInt32, Draft.found, orFault, Found.integer?, bind,
      Except.bind]
  | null | bool _ | number _ | text _ | broken _ =>
    simp only [readAs, bind_eq_ok_iff, pure_eq_ok_iff]

/-- The ways in which a draft is read with success. -/
inductive Reads : Reading → Wanted → Draft → Expr → Prop where
  | number {r : Reading} {d : Draft} {v : Int32} (value : readInt32 d = .ok v) :
      Reads r .constant d (.constant v)
  -- The nodes: a tag, and the content that it asks for.
  | array {r inner : Reading} {tag content : Draft} {kind : Kind} {e : Expr}
      (enter : r.enter = .ok inner) (choice : readIdentifier Kind.vocabulary inner tag = .ok kind)
      (reads : Reads inner (wanted kind) content e) :
      Reads r .tree (.array [tag, content] none) (wrap kind e)
  | typeFirst {r inner : Reading} {members : List (Key × Draft)} {tag content : Draft}
      {kind : Kind} {e : Expr} (enter : r.enter = .ok inner)
      (keeps : Keeps members [(.type, tag), (.value, content)])
      (choice : readChoice Kind.vocabulary inner tag = .ok kind)
      (reads : Reads inner (wanted kind) content e) :
      Reads r .tree (.object members none) (wrap kind e)
  | valueFirst {r inner : Reading} {members : List (Key × Draft)} {tag content : Draft}
      {kind : Kind} {e : Expr} (enter : r.enter = .ok inner)
      (keeps : Keeps members [(.value, content), (.type, tag)])
      (stored : inner.keep content = .ok ())
      (choice : readChoice Kind.vocabulary inner tag = .ok kind)
      (reads : Reads .stored (wanted kind) content e) :
      Reads r .tree (.object members none) (wrap kind e)
  -- The pairs.
  | power {r inner : Reading} {first second : Draft} {base : Expr} {n : Int32}
      (enter : r.enter = .ok inner) (reads : Reads inner .tree first base)
      (value : readInt32 second = .ok n) :
      Reads r (.pair .exponent) (.array [first, second] none) (.exponent base n)
  | operands {r inner : Reading} {p : Pair} {node : Expr → Expr → Expr} {first second : Draft}
      {left right : Expr} (enter : r.enter = .ok inner) (join : p.join = some node)
      (readsLeft : Reads inner .tree first left) (readsRight : Reads inner .tree second right) :
      Reads r (.pair p) (.array [first, second] none) (node left right)

/-- A member that matters is nested less deeply than its object. -/
theorem nesting_lt_of_keeps {members : List (Key × Draft)} {ms : List (Field × Draft)}
    (h : Keeps members ms) {field : Field} {d : Draft} (hmem : (field, d) ∈ ms) :
    d.nesting < (Draft.object members none).nesting := by
  have hle := Draft.nesting_le_membersNesting (h.mem hmem)
  rw [Draft.nesting]
  omega

/-- A value is read by one of the rules. -/
theorem reads_of_readAs {w : Wanted} {d : Draft} (h : readAs r w d = .ok e) : Reads r w d e := by
  -- The parts of a value, which are read by a rule as well, are nested less deeply.
  induction hn : d.nesting using Nat.strongRecOn generalizing r w d e with
  | ind n ih =>
    have hpart : ∀ {r w part e}, part.nesting < d.nesting → readAs r w part = .ok e →
        Reads r w part e := by
      intro r w part e hless hread
      exact ih _ (hn ▸ hless) hread rfl
    -- A rule is found for each thing that may be wanted, and the draft must have its form.
    cases w with
    | constant =>
      obtain ⟨v, hread, rfl⟩ := readAs_constant_eq_ok_iff.mp h
      exact .number hread
    | tree =>
      cases d with
      | null | bool _ | number _ | text _ | broken _ =>
        rw [readAs] at h
        all_goals exact absurd h (refuse_ne_ok _ _ _)
      | array items damage =>
        rw [readAs] at h
        obtain ⟨inner, henter, h⟩ := bind_eq_ok_iff.mp h
        obtain ⟨rfl, tag, content, kind, e, rfl, hchoice, hread, rfl⟩ :=
          readTagged_eq_ok_iff.mp h
        refine .array henter hchoice (hpart ?_ hread)
        simp only [Draft.nesting, Draft.itemsNesting]
        omega
      | object members damage =>
        rw [readAs] at h
        obtain ⟨inner, henter, h⟩ := bind_eq_ok_iff.mp h
        obtain ⟨rfl, kind, e, hmembers, rfl⟩ := readMembers_eq_ok_iff.mp h
        cases hmembers with
        | typeFirst keeps choice hread =>
          have hless := nesting_lt_of_keeps keeps (List.mem_cons_of_mem _ List.mem_cons_self)
          exact .typeFirst henter keeps choice (hpart hless hread)
        | valueFirst keeps stored choice hread =>
          have hless := nesting_lt_of_keeps keeps List.mem_cons_self
          exact .valueFirst henter keeps stored choice (hpart hless hread)
    | pair p =>
      cases d with
      | null | bool _ | number _ | text _ | broken _ =>
        rw [readAs] at h
        all_goals exact absurd h (refuse_ne_ok _ _ _)
      | object members damage =>
        simp only [readAs] at h
        exact absurd h (mismatch_ne_ok _ _)
      | array items damage =>
        rw [readAs] at h
        obtain ⟨inner, henter, h⟩ := bind_eq_ok_iff.mp h
        obtain ⟨rfl, first, second, left, rfl, hfirst, hsecond⟩ := readPair_eq_ok_iff.mp h
        have hleft : Reads inner .tree first left := by
          refine hpart ?_ hfirst
          simp only [Draft.nesting, Draft.itemsNesting]
          omega
        rcases readSecond_eq_ok_iff.mp hsecond with
          ⟨n, rfl, hread, rfl⟩ | ⟨node, right, hjoin, hread, rfl⟩
        · exact .power henter hleft hread
        · refine .operands henter hjoin hleft (hpart ?_ hread)
          simp only [Draft.nesting, Draft.itemsNesting]
          omega

/-- The rules are all the ways in which a value is read with success. -/
theorem readAs_eq_ok_iff {w : Wanted} {d : Draft} : readAs r w d = .ok e ↔ Reads r w d e := by
  constructor
  · exact reads_of_readAs
  · intro h
    -- Each rule goes back to the reader that it stands for.
    induction h with
    | number value => exact readAs_constant_eq_ok_iff.mpr ⟨_, value, rfl⟩
    | array enter choice _ ih =>
      rw [readAs]
      refine bind_eq_ok_iff.mpr ⟨_, enter, ?_⟩
      exact readTagged_eq_ok_iff.mpr ⟨rfl, _, _, _, _, rfl, choice, ih, rfl⟩
    | typeFirst enter keeps choice _ ih =>
      rw [readAs]
      refine bind_eq_ok_iff.mpr ⟨_, enter, ?_⟩
      exact readMembers_eq_ok_iff.mpr ⟨rfl, _, _, .typeFirst keeps choice ih, rfl⟩
    | valueFirst enter keeps stored choice _ ih =>
      rw [readAs]
      refine bind_eq_ok_iff.mpr ⟨_, enter, ?_⟩
      exact readMembers_eq_ok_iff.mpr ⟨rfl, _, _, .valueFirst keeps stored choice ih, rfl⟩
    | power enter _ value ih =>
      rw [readAs]
      refine bind_eq_ok_iff.mpr ⟨_, enter, readPair_eq_ok_iff.mpr ⟨rfl, _, _, _, rfl, ih, ?_⟩⟩
      exact readSecond_eq_ok_iff.mpr (.inl ⟨_, rfl, value, rfl⟩)
    | operands enter join _ _ ihl ihr =>
      rw [readAs]
      refine bind_eq_ok_iff.mpr ⟨_, enter, readPair_eq_ok_iff.mpr ⟨rfl, _, _, _, rfl, ihl, ?_⟩⟩
      exact readSecond_eq_ok_iff.mpr (.inr ⟨_, _, join, ihr, rfl⟩)

end Expr
end Reckoner
