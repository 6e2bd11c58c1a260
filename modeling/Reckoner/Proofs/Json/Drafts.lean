import Reckoner.Json.Reading
import Reckoner.Proofs.Json.Scanning

/-!
# Drafts that are read with success

A reader that succeeds has met no fault: each of its steps has succeeded (`bind_eq_ok_iff`), and
each container that it has gone through ends well.  A value that has been stored is nested no
deeper than there was room for (`nesting_le_of_store`), although what is then read from the store
does not ask for room any more.

A text that is a document as a whole gives the draft of this document
(`document?_eq_some_iff`), whatever blanks there are in it, so that reading it is reading the draft
(`readText_eq_ok_iff_of_document?`).
-/

namespace Reckoner

/-- Two steps succeed if the first one does, and the second one on its result. -/
theorem bind_eq_ok_iff {ε α β : Type} {x : Except ε α} {f : α → Except ε β} {b : β} :
    (x >>= f) = .ok b ↔ ∃ a, x = .ok a ∧ f a = .ok b := by
  cases x <;> simp [bind, Except.bind]

/-- A first step without a result has only to succeed. -/
theorem bind_unit_eq_ok_iff {ε β : Type} {x : Except ε Unit} {f : Unit → Except ε β} {b : β} :
    (x >>= f) = .ok b ↔ x = .ok () ∧ f () = .ok b := by
  cases x <;> simp [bind, Except.bind]

/-- A step that only returns something succeeds with it. -/
theorem pure_eq_ok_iff {ε α : Type} {a b : α} : (pure a : Except ε α) = .ok b ↔ a = b := by
  simp [pure, Except.pure]

/-- A result that is changed afterwards is that of a step that succeeds. -/
theorem map_eq_ok_iff {ε α β : Type} {x : Except ε α} {f : α → β} {b : β} :
    x.map f = .ok b ↔ ∃ a, x = .ok a ∧ f a = b := by
  cases x <;> simp [Except.map]

namespace Json

variable {α : Type}

theorem fault_ne_ok (f : Fault) (a : α) : fault f ≠ .ok a := by simp [fault]

theorem mismatch_ne_ok (m : Mismatch) (a : α) : mismatch m ≠ .ok a := by simp [mismatch]

/-- Turning a fault into a problem does not touch a success. -/
theorem orFault_eq_ok_iff {x : Except Fault α} {a : α} : orFault x = .ok a ↔ x = .ok a := by
  cases x <;> simp [orFault, fault]

/-- A container ends well if its text does not break off. -/
theorem ending_eq_ok_iff {damage : Option Damage} :
    Draft.ending damage = .ok () ↔ damage = none := by
  cases damage <;> simp [Draft.ending]

/-- A member has a name that can be used only if it could be read. -/
theorem keyName_eq_ok_iff {key : Key} {name : String} :
    keyName key = .ok name ↔ key = .name name := by
  cases key <;> simp [keyName, fault]

/-- A container takes one of the places that are left. -/
theorem enter_direct_eq_ok_iff {room : Nat} {r : Reading} :
    (Reading.direct room).enter = .ok r ↔ ∃ left, room = left + 1 ∧ r = .direct left := by
  cases room with
  | zero => simp [Reading.enter, fault]
  | succ left => simp [Reading.enter, eq_comm]

/-- An array ends well behind the items that were asked for if there are no more. -/
theorem closeItems_eq_ok_iff {r : Reading} {count : Nat} {more : List Draft}
    {damage : Option Damage} :
    r.closeItems count more damage = .ok () ↔ more = [] ∧ damage = none := by
  cases more with
  | nil => simp [Reading.closeItems, orFault_eq_ok_iff, ending_eq_ok_iff]
  -- An item that is left over is a mistake, whether it is still in the text or already stored.
  | cons item more => cases r <;> simp [Reading.closeItems, fault, mismatch]

/-- An array that has too few items is a mistake even if it ends well. -/
theorem tooShort_ne_ok (count : Nat) (damage : Option Damage) (expected : String) (a : α) :
    tooShort count damage expected ≠ .ok a := by
  intro h
  exact mismatch_ne_ok _ _ (bind_unit_eq_ok_iff.mp h).2

/-! ## Nesting -/

namespace Draft

mutual

/-- How many containers are open at the deepest place of a draft. -/
def nesting : Draft → Nat
  | .array items _ => 1 + itemsNesting items
  | .object members _ => 1 + membersNesting members
  | _ => 0

def itemsNesting : List Draft → Nat
  | [] => 0
  | item :: items => max (nesting item) (itemsNesting items)

def membersNesting : List (Key × Draft) → Nat
  | [] => 0
  | (_, value) :: members => max (nesting value) (membersNesting members)

end

/-- A member is nested no deeper than the deepest of its object. -/
theorem nesting_le_membersNesting {key : Key} {value : Draft} {members : List (Key × Draft)}
    (h : (key, value) ∈ members) : value.nesting ≤ membersNesting members := by
  induction members with
  | nil => cases h
  | cons member members ih =>
    rw [membersNesting]
    rcases List.mem_cons.mp h with rfl | h
    · exact Nat.le_max_left _ _
    · exact Nat.le_trans (ih h) (Nat.le_max_right _ _)

end Draft

mutual

/-- A value is stored only if there is room for all containers in it. -/
theorem nesting_le_of_store {room : Nat} {d : Draft} (h : store room d = .ok ()) :
    d.nesting ≤ room := by
  cases d with
  | null | bool _ | number _ | text _ => exact Nat.zero_le room
  | broken damage => exact absurd h (fault_ne_ok _ _)
  -- A container takes a place, and what is in it is stored in those that are left.
  | array items damage =>
    cases room with
    | zero => exact absurd h (fault_ne_ok _ _)
    | succ room =>
      rw [store] at h
      obtain ⟨hitems, -⟩ := bind_unit_eq_ok_iff.mp h
      have hnesting := itemsNesting_le_of_storeItems hitems
      rw [Draft.nesting]
      omega
  | object members damage =>
    cases room with
    | zero => exact absurd h (fault_ne_ok _ _)
    | succ room =>
      rw [store] at h
      obtain ⟨hmembers, -⟩ := bind_unit_eq_ok_iff.mp h
      have hnesting := membersNesting_le_of_storeMembers hmembers
      rw [Draft.nesting]
      omega

/-- Likewise all items of an array. -/
theorem itemsNesting_le_of_storeItems {room : Nat} {items : List Draft}
    (h : storeItems room items = .ok ()) : Draft.itemsNesting items ≤ room := by
  cases items with
  | nil => exact Nat.zero_le room
  | cons item items =>
    rw [storeItems] at h
    obtain ⟨hitem, hitems⟩ := bind_unit_eq_ok_iff.mp h
    exact Nat.max_le.mpr ⟨nesting_le_of_store hitem, itemsNesting_le_of_storeItems hitems⟩

/-- Likewise the values of all members of an object; their names take no room. -/
theorem membersNesting_le_of_storeMembers {room : Nat} {members : List (Key × Draft)}
    (h : storeMembers room members = .ok ()) : Draft.membersNesting members ≤ room := by
  cases members with
  | nil => exact Nat.zero_le room
  | cons member members =>
    obtain ⟨key, value⟩ := member
    rw [storeMembers] at h
    -- The name comes first, then the value, and then the other members.
    obtain ⟨-, -, h⟩ := bind_eq_ok_iff.mp h
    obtain ⟨hvalue, hmembers⟩ := bind_unit_eq_ok_iff.mp h
    exact Nat.max_le.mpr ⟨nesting_le_of_store hvalue, membersNesting_le_of_storeMembers hmembers⟩

end

/-! ## Complete drafts -/

mutual

/-- The draft of a document is complete, and presents it. -/
theorem document?_draft (d : Document) : d.draft.document? = some d := by
  cases d with
  | null | bool _ | number _ | text _ => rfl
  | array items => simp [Document.draft, Draft.document?, documents?_drafts items]
  | object members => simp [Document.draft, Draft.document?, memberDocuments?_memberDrafts members]

/-- Likewise the drafts of items. -/
theorem documents?_drafts (items : List Document) :
    Draft.documents? (Document.drafts items) = some items := by
  cases items with
  | nil => rfl
  | cons item items =>
    simp [Document.drafts, Draft.documents?, document?_draft item, documents?_drafts items]

/-- Likewise the drafts of members. -/
theorem memberDocuments?_memberDrafts (members : List (String × Document)) :
    Draft.memberDocuments? (Document.memberDrafts members) = some members := by
  cases members with
  | nil => rfl
  | cons member members =>
    obtain ⟨name, value⟩ := member
    simp [Document.memberDrafts, Draft.memberDocuments?, document?_draft value,
      memberDocuments?_memberDrafts members]

end

mutual

/-- A complete draft is the draft of the document that it presents. -/
theorem eq_draft_of_document? {draft : Draft} {d : Document} (h : draft.document? = some d) :
    draft = d.draft := by
  cases draft with
  | null | bool _ | number _ =>
    rw [← Option.some.inj h]
    rfl
  | text text =>
    -- A text presents something only if all of it could be read.
    obtain ⟨t, rfl, rfl⟩ := Option.map_eq_some_iff.mp h
    rfl
  | broken damage => cases h
  | array items damage =>
    -- An array that breaks off presents nothing.
    cases damage with
    | some damage => cases h
    | none =>
      obtain ⟨ds, hitems, rfl⟩ := Option.map_eq_some_iff.mp h
      rw [eq_drafts_of_documents? hitems, Document.draft]
  | object members damage =>
    -- Nor does an object that breaks off.
    cases damage with
    | some damage => cases h
    | none =>
      obtain ⟨ds, hmembers, rfl⟩ := Option.map_eq_some_iff.mp h
      rw [eq_memberDrafts_of_memberDocuments? hmembers, Document.draft]

/-- Items that are complete are the drafts of what they present. -/
theorem eq_drafts_of_documents? {items : List Draft} {ds : List Document}
    (h : Draft.documents? items = some ds) : items = Document.drafts ds := by
  cases items with
  | nil =>
    rw [← Option.some.inj h]
    rfl
  | cons item items =>
    rw [Draft.documents?] at h
    split at h
    next d ds hitem hitems =>
      rw [← Option.some.inj h, Document.drafts, eq_draft_of_document? hitem,
        eq_drafts_of_documents? hitems]
    next => cases h

/-- Likewise members, each of which has a name. -/
theorem eq_memberDrafts_of_memberDocuments? {members : List (Key × Draft)}
    {ds : List (String × Document)} (h : Draft.memberDocuments? members = some ds) :
    members = Document.memberDrafts ds := by
  cases members with
  | nil =>
    rw [← Option.some.inj h]
    rfl
  | cons member members =>
    obtain ⟨key, value⟩ := member
    unfold Draft.memberDocuments? at h
    -- A name that could not be read, a value or another member that is not complete: in all these
    -- cases nothing is presented.
    split at h
    next name d ds hvalue hmembers =>
      rw [← Option.some.inj h, Document.memberDrafts, eq_draft_of_document? hvalue,
        eq_memberDrafts_of_memberDocuments? hmembers]
    next => cases h

end

/-! ## Texts -/

/-- A text is a document if the draft at its front is the one of the document and only blanks
follow. -/
theorem document?_eq_some_iff {text : String} {d : Document} :
    document? text = some d ↔ ∃ rest, scan text.toList = (d.draft, rest) ∧ skipGap rest = [] := by
  unfold document?
  obtain ⟨draft, rest⟩ := scan text.toList
  constructor
  · -- What is presented by the draft determines it.
    intro h
    simp only [List.isEmpty_iff] at h
    split at h
    next hrest => exact ⟨rest, by rw [eq_draft_of_document? h], hrest⟩
    next => cases h
  · rintro ⟨rest', hscan, hrest⟩
    obtain ⟨rfl, rfl⟩ := Prod.mk.inj hscan
    simp [hrest, document?_draft]

/-- The compact form of a document is a text of it. -/
theorem document?_write {d : Document} (hd : d.WellFormed) : document? d.write = some d :=
  document?_eq_some_iff.mpr ⟨[], scan_write hd, rfl⟩

/-- A text is read with success if the draft at its front is, and only blanks follow. -/
theorem readText_eq_ok_iff {read : Reading → Draft → Except Problem α} {text : String} {a : α} :
    readText read text = .ok a ↔ ∃ draft rest, scan text.toList = (draft, rest) ∧
      read (.direct nestingLimit) draft = .ok a ∧ skipGap rest = [] := by
  unfold readText
  obtain ⟨draft, rest⟩ := scan text.toList
  simp only [bind_eq_ok_iff, List.isEmpty_iff]
  constructor
  · rintro ⟨b, hread, h⟩
    split at h
    next hrest => exact ⟨draft, rest, rfl, pure_eq_ok_iff.mp h ▸ hread, hrest⟩
    -- Something behind the draft is a fault, even if the draft has been read with success.
    next => exact absurd h (fault_ne_ok _ _)
  · rintro ⟨draft', rest', hscan, hread, hrest⟩
    obtain ⟨rfl, rfl⟩ := Prod.mk.inj hscan
    exact ⟨a, hread, by rw [if_pos hrest]; rfl⟩

/-- Reading a text that is a document is reading the document. -/
theorem readText_eq_ok_iff_of_document? {read : Reading → Draft → Except Problem α} {text : String}
    {d : Document} (h : document? text = some d) {a : α} :
    readText read text = .ok a ↔ read (.direct nestingLimit) d.draft = .ok a := by
  obtain ⟨rest, hscan, hrest⟩ := document?_eq_some_iff.mp h
  rw [readText_eq_ok_iff]
  constructor
  · rintro ⟨draft, rest', hscan', hread, -⟩
    -- The text has one draft only.
    rw [hscan] at hscan'
    rwa [(Prod.mk.inj hscan').1]
  · intro hread
    exact ⟨d.draft, rest, hscan, hread, hrest⟩

end Json
end Reckoner
