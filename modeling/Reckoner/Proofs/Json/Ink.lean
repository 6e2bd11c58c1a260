import Reckoner.Json.Document
import Reckoner.Proofs.Json.Numeral
import Reckoner.Proofs.Json.Text

/-!
# The characters of a document

`Document.ink` lists the characters of the compact form by recursion on the document, so that
proofs about the text can follow the document (`Document.toList_write`).  A document can be read
back if its number literals are well-formed; its texts can be any.  No control character is ever
written, so that the compact form is a single line (`Document.le_toNat_of_mem_ink`).
-/

namespace Reckoner.Json
namespace Document

/-! ## Characters -/

mutual

/-- The characters of the compact form. -/
def ink : Document → List Char
  | .null => ['n', 'u', 'l', 'l']
  | .bool true => ['t', 'r', 'u', 'e']
  | .bool false => ['f', 'a', 'l', 's', 'e']
  | .number n => n.text.toList
  | .text t => literal t
  | .array items => '[' :: (itemsInk [] items ++ [']'])
  | .object members => '\x7b' :: (membersInk [] members ++ ['\x7d'])

/-- The characters of the items of an array, with a separator before the first one. -/
def itemsInk (separator : List Char) : List Document → List Char
  | [] => []
  | item :: items => separator ++ (ink item ++ itemsInk [','] items)

/-- The characters of the members of an object, with a separator before the first one. -/
def membersInk (separator : List Char) : List (String × Document) → List Char
  | [] => []
  | (name, value) :: members =>
    separator ++ (literal name ++ ':' :: (ink value ++ membersInk [','] members))

end

mutual

/-- Writing a document adds its characters to a text. -/
theorem toList_writeTo (out : String) (d : Document) :
    (writeTo out d).toList = out.toList ++ d.ink := by
  cases d with
  | null => simp [writeTo, ink]
  | bool value => cases value <;> simp [writeTo, ink]
  | number numeral => simp [writeTo, ink]
  | text text => simp [writeTo, ink, toList_writeText]
  -- The brackets stand around what is written of the items.
  | array items =>
    rw [writeTo, String.toList_push, toList_writeItems]
    simp [ink]
  | object members =>
    rw [writeTo, String.toList_push, toList_writeMembers]
    simp [ink]

/-- Writing items adds their characters to a text, each behind a separator. -/
theorem toList_writeItems (out separator : String) (items : List Document) :
    (writeItems out separator items).toList =
      out.toList ++ itemsInk separator.toList items := by
  cases items with
  | nil => simp [writeItems, itemsInk]
  | cons item items =>
    -- The first item is written behind its own separator, and those that follow behind commas.
    rw [writeItems, toList_writeItems, toList_writeTo]
    simp [itemsInk]

/-- Likewise writing members. -/
theorem toList_writeMembers (out separator : String) (members : List (String × Document)) :
    (writeMembers out separator members).toList =
      out.toList ++ membersInk separator.toList members := by
  cases members with
  | nil => simp [writeMembers, membersInk]
  | cons member members =>
    -- A member is its name, a colon and its value.
    obtain ⟨name, value⟩ := member
    rw [writeMembers, toList_writeMembers, toList_writeTo, String.toList_push, toList_writeText]
    simp [membersInk]

end

/-- The compact form has the characters of the document. -/
theorem toList_write (d : Document) : d.write.toList = d.ink := by
  rw [write, toList_writeTo]
  rfl

/-! ## Well-formed documents -/

mutual

/-- Whether all number literals are well-formed. -/
def WellFormed : Document → Prop
  | .number n => n.WellFormed
  | .array items => ItemsWellFormed items
  | .object members => MembersWellFormed members
  | _ => True

def ItemsWellFormed : List Document → Prop
  | [] => True
  | item :: items => WellFormed item ∧ ItemsWellFormed items

def MembersWellFormed : List (String × Document) → Prop
  | [] => True
  | (_, value) :: members => WellFormed value ∧ MembersWellFormed members

end

/-! ## Control characters -/

theorem le_toNat_of_isDigit {c : Char} (hc : isDigit c = true) : 0x20 ≤ c.toNat := by
  have h := (Char.isDigit_iff_toNat.mp hc).1
  exact Nat.le_trans (by decide) h

/-- No hexadecimal digit is a control character. -/
theorem le_toNat_digitChar : ∀ n < 16, 0x20 ≤ (Nat.digitChar n).toNat := by decide

/-- Control characters are escaped, and escapes have none. -/
theorem le_toNat_of_mem_escapedChar {c d : Char} (hmem : d ∈ escapedChar c) : 0x20 ≤ d.toNat := by
  unfold escapedChar at hmem
  -- Seven characters are escaped by a backslash and one other character.
  iterate 7
    split at hmem
    · simp only [List.mem_cons, List.not_mem_nil, or_false] at hmem
      rcases hmem with rfl | rfl <;> decide
  split at hmem
  -- The control characters among the rest are escaped by four digits.
  case isTrue =>
    have hdigit : ∀ k, 0x20 ≤ (Nat.digitChar (k % 16)).toNat := by
      intro k
      exact le_toNat_digitChar _ (Nat.mod_lt k (by decide))
    simp only [fourHexDigits, List.map_cons, List.map_nil, List.mem_cons, List.not_mem_nil,
      or_false] at hmem
    rcases hmem with rfl | rfl | rfl | rfl | rfl | rfl
    · decide
    · decide
    · exact hdigit _
    · exact hdigit _
    · exact hdigit _
    · exact hdigit _
  -- All others stand for themselves.
  case isFalse hcontrol =>
    rw [List.mem_singleton.mp hmem]
    exact Nat.le_of_not_lt hcontrol

/-- A text in quotes has no control character, whatever the text has. -/
theorem le_toNat_of_mem_literal {text : String} {c : Char} (hmem : c ∈ literal text) :
    0x20 ≤ c.toNat := by
  simp only [literal, List.mem_cons, List.mem_append, List.mem_flatMap, List.not_mem_nil,
    or_false] at hmem
  rcases hmem with rfl | ⟨d, -, hmem⟩ | rfl
  · decide
  · exact le_toNat_of_mem_escapedChar hmem
  · decide

theorem le_toNat_of_mem_digitRun {ds : List Char} (hds : DigitRun ds) {c : Char} (hmem : c ∈ ds) :
    0x20 ≤ c.toNat :=
  le_toNat_of_isDigit (hds.digits c hmem)

/-- Nor has a fraction, which is a point and digits. -/
theorem le_toNat_of_mem_fractionText {fraction : Option (List Char)}
    (hfraction : ∀ ds ∈ fraction, DigitRun ds) {c : Char}
    (hmem : c ∈ Numeral.fractionText fraction) : 0x20 ≤ c.toNat := by
  cases fraction with
  | none => cases hmem
  | some ds =>
    rcases List.mem_cons.mp hmem with rfl | hmem
    · decide
    · exact le_toNat_of_mem_digitRun (hfraction ds rfl) hmem

/-- Nor has an exponent, which is a letter, a sign and digits. -/
theorem le_toNat_of_mem_exponentText {exponent : Option (Bool × List Char)}
    (hexponent : ∀ x ∈ exponent, DigitRun x.2) {c : Char}
    (hmem : c ∈ Numeral.exponentText exponent) : 0x20 ≤ c.toNat := by
  rcases exponent with _ | ⟨_ | _, ds⟩
  · cases hmem
  · -- A positive exponent has no sign.
    rcases List.mem_cons.mp hmem with rfl | hmem
    · decide
    · exact le_toNat_of_mem_digitRun (hexponent _ rfl) hmem
  · rcases List.mem_cons.mp hmem with rfl | hmem
    · decide
    · -- A negative one has a sign in front of its digits.
      rcases List.mem_cons.mp hmem with rfl | hmem
      · decide
      · exact le_toNat_of_mem_digitRun (hexponent _ rfl) hmem

/-- A number literal has no control character. -/
theorem le_toNat_of_mem_numeral {n : Numeral} (hn : n.WellFormed) {c : Char}
    (hmem : c ∈ n.text.toList) : 0x20 ≤ c.toNat := by
  have hunsigned : c ∈ n.unsignedText [] → 0x20 ≤ c.toNat := by
    intro hmem
    simp only [Numeral.unsignedText, List.mem_append, List.not_mem_nil, or_false] at hmem
    rcases hmem with hmem | hmem | hmem
    · exact le_toNat_of_mem_digitRun hn.whole hmem
    · exact le_toNat_of_mem_fractionText hn.fraction hmem
    · exact le_toNat_of_mem_exponentText hn.exponent hmem
  -- A minus may come in front of the digits.
  rw [← List.append_nil n.text.toList, Numeral.toList_text_append] at hmem
  split at hmem
  · rcases List.mem_cons.mp hmem with rfl | hmem
    · decide
    · exact hunsigned hmem
  · exact hunsigned hmem

mutual

/-- No control character is written. -/
theorem le_toNat_of_mem_ink {d : Document} (hd : d.WellFormed) {c : Char} (hmem : c ∈ d.ink) :
    0x20 ≤ c.toNat := by
  cases d with
  -- The three words are gone through by character.
  | null =>
    simp only [ink, List.mem_cons, List.not_mem_nil, or_false] at hmem
    rcases hmem with rfl | rfl | rfl | rfl <;> decide
  | bool value =>
    cases value with
    | false =>
      simp only [ink, List.mem_cons, List.not_mem_nil, or_false] at hmem
      rcases hmem with rfl | rfl | rfl | rfl | rfl <;> decide
    | true =>
      simp only [ink, List.mem_cons, List.not_mem_nil, or_false] at hmem
      rcases hmem with rfl | rfl | rfl | rfl <;> decide
  | number numeral => exact le_toNat_of_mem_numeral hd hmem
  | text text => exact le_toNat_of_mem_literal hmem
  -- A container has two brackets around what it contains.
  | array items =>
    simp only [ink, List.mem_cons, List.mem_append, List.not_mem_nil, or_false] at hmem
    rcases hmem with rfl | hmem | rfl
    · decide
    · exact le_toNat_of_mem_itemsInk hd (by simp) hmem
    · decide
  | object members =>
    simp only [ink, List.mem_cons, List.mem_append, List.not_mem_nil, or_false] at hmem
    rcases hmem with rfl | hmem | rfl
    · decide
    · exact le_toNat_of_mem_membersInk hd (by simp) hmem
    · decide

/-- Items have no control character, if what separates them has none. -/
theorem le_toNat_of_mem_itemsInk {items : List Document} (hitems : ItemsWellFormed items)
    {separator : List Char} (hseparator : ∀ c ∈ separator, 0x20 ≤ c.toNat) {c : Char}
    (hmem : c ∈ itemsInk separator items) : 0x20 ≤ c.toNat := by
  cases items with
  | nil => cases hmem
  | cons item items =>
    -- The separator, the item, and the items that follow behind commas.
    simp only [itemsInk, List.mem_append] at hmem
    rcases hmem with hmem | hmem | hmem
    · exact hseparator c hmem
    · exact le_toNat_of_mem_ink hitems.1 hmem
    · exact le_toNat_of_mem_itemsInk hitems.2 (List.forall_mem_singleton.mpr (by decide)) hmem

/-- Likewise members. -/
theorem le_toNat_of_mem_membersInk {members : List (String × Document)}
    (hmembers : MembersWellFormed members) {separator : List Char}
    (hseparator : ∀ c ∈ separator, 0x20 ≤ c.toNat) {c : Char}
    (hmem : c ∈ membersInk separator members) : 0x20 ≤ c.toNat := by
  cases members with
  | nil => cases hmem
  | cons member members =>
    obtain ⟨name, value⟩ := member
    -- The separator, the name, the colon, the value, and the members that follow.
    simp only [membersInk, List.mem_append, List.mem_cons] at hmem
    rcases hmem with hmem | hmem | rfl | hmem | hmem
    · exact hseparator c hmem
    · exact le_toNat_of_mem_literal hmem
    · decide
    · exact le_toNat_of_mem_ink hmembers.1 hmem
    · exact le_toNat_of_mem_membersInk hmembers.2 (List.forall_mem_singleton.mpr (by decide)) hmem

end

end Document
end Reckoner.Json
