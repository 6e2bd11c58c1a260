import Reckoner.Json.Scanner
import Reckoner.Proofs.Json.Ink

/-!
# Documents are read back from their compact text

A scanner that is about to read a value, at the front of which stands the compact text of a
well-formed document, comes to the end of this text with the draft of the document, whatever
containers are open and whatever follows (`Scanner.run_ink`).  At the front of a text a document
is therefore read back as it was written (`scan_ink`), and so is a text that consists of it
(`scan_write`).
-/

namespace Reckoner.Json

/-! ## Tokens -/

/-- Only blanks are passed over. -/
theorem skipGap_cons {c : Char} (hc : isGap c = false) (cs : List Char) :
    skipGap (c :: cs) = c :: cs := by
  unfold skipGap
  rw [List.dropWhile_cons, hc]
  rfl

/-- What a number literal starts with starts no other token. -/
private theorem ne_of_numberStart {c : Char} (hc : c = '-' ∨ isDigit c = true) :
    ∀ d ∈ [' ', '\t', '\n', '\r', 'n', 't', 'f', '"', '[', ']', '\x7b'], c ≠ d := by
  -- None of these characters could start a number.
  have hother : ∀ d ∈ [' ', '\t', '\n', '\r', 'n', 't', 'f', '"', '[', ']', '\x7b'],
      ¬ (d = '-' ∨ isDigit d = true) := by simp [isDigit]
  intro d hd h
  exact hother d hd (h ▸ hc)

/-- A number literal is taken off the front of a text if nothing follows that could belong to it. -/
theorem scanScalar_number {n : Numeral} (hn : n.WellFormed) {rest : List Char}
    (hrest : NoNumeral rest) : scanScalar (n.text.toList ++ rest) = .ok (.number n, rest) := by
  obtain ⟨c, cs, htext, hc⟩ := Numeral.toList_text_eq_cons hn
  have hscan := Numeral.scan_text hn hrest
  have hne := ne_of_numberStart hc
  simp only [List.forall_mem_cons] at hne
  rw [htext, List.cons_append] at hscan ⊢
  unfold scanScalar
  -- As the first character starts neither a word nor a text, the number is tried.
  simp only [hne, if_false, hc, if_true, hscan]
  rfl

/-- A text in quotes is taken off the front of a text, whatever follows. -/
theorem scanScalar_text (text : String) (rest : List Char) :
    scanScalar (literal text ++ rest) = .ok (.text (some text), rest) := by
  have hscan := scanText_literal text rest
  unfold literal scanScalar
  simp only [List.cons_append, List.append_assoc, List.nil_append, Char.reduceEq, if_false,
    if_true, hscan]
  rfl

/-- A document starts with a character that is not passed over and ends no array. -/
theorem Document.ink_eq_cons {d : Document} (hd : d.WellFormed) :
    ∃ c cs, d.ink = c :: cs ∧ isGap c = false ∧ c ≠ ']' := by
  cases d with
  | null => exact ⟨_, _, rfl, by decide⟩
  | bool value => cases value <;> exact ⟨_, _, rfl, by decide⟩
  | number n =>
    obtain ⟨c, cs, htext, hc⟩ := Numeral.toList_text_eq_cons hd
    have hne := ne_of_numberStart hc
    simp only [List.forall_mem_cons] at hne
    exact ⟨c, cs, htext, by simp [isGap, hne], by simp [hne]⟩
  | text t => exact ⟨_, _, rfl, by decide⟩
  | array items => exact ⟨_, _, rfl, by decide⟩
  | object members => exact ⟨_, _, rfl, by decide⟩

namespace Scanner

/-! ## Steps -/

/-- A scanner comes to where it comes after its next step. -/
theorem run_of_next {s s' : Scanner} (h : s.step = .next s') : s.run = s'.run := by
  rw [run]
  split
  -- The step that is taken is the one that is known.
  next heq =>
    rw [h] at heq
    rw [Scan.next.inj heq]
  next heq =>
    rw [h] at heq
    cases heq

/-- A scanner that is done gives what it has. -/
theorem run_of_done {s : Scanner} {draft : Draft} {rest : List Char}
    (h : s.step = .done draft rest) : s.run = (draft, rest) := by
  rw [run]
  split
  next heq =>
    rw [h] at heq
    cases heq
  next heq =>
    rw [h] at heq
    cases heq
    rfl

/-- A value that is no container takes one step. -/
theorem run_scalar {cs rest : List Char} {d : Draft} (frames : List Frame)
    (hstart : ∃ c tail, cs = c :: tail ∧ isGap c = false ∧ c ≠ '[' ∧ c ≠ '\x7b')
    (h : scanScalar cs = .ok (d, rest)) :
    run ⟨.value, frames, cs⟩ = run ⟨.after d, frames, rest⟩ := by
  obtain ⟨c, tail, rfl, hgap, harray, hobject⟩ := hstart
  apply run_of_next
  show stepValue frames (skipGap (c :: tail)) = _
  rw [skipGap_cons hgap]
  unfold stepValue
  -- It opens no container, so that it is read as a whole.
  split
  next heq => exact absurd (List.cons.inj heq).1 harray
  next heq => exact absurd (List.cons.inj heq).1 hobject
  next => rw [h]

/-- The name of a member and its colon take one step. -/
theorem run_name (name : String) (before : List (Key × Draft)) (opened : Bool)
    (frames : List Frame) (rest : List Char) :
    run ⟨.key before opened, frames, literal name ++ ':' :: rest⟩ =
      run ⟨.value, .object before (.name name) :: frames, rest⟩ := by
  apply run_of_next
  -- The name is read up to its closing quote, and the colon stands right behind it.
  have hscan := scanText_literal name (':' :: rest)
  show stepKey before opened frames (skipGap (literal name ++ ':' :: rest)) = _
  unfold literal
  rw [List.cons_append, skipGap_cons rfl, List.append_assoc, List.singleton_append]
  simp only [stepKey, if_true, hscan]
  rfl

/-- An array that has just been opened and does not end goes on with its first item. -/
theorem run_firstItem {cs : List Char} (frames : List Frame)
    (hstart : ∃ c tail, cs = c :: tail ∧ isGap c = false ∧ c ≠ ']') :
    run ⟨.value, frames, '[' :: cs⟩ = run ⟨.value, .array [] :: frames, cs⟩ := by
  obtain ⟨c, tail, rfl, hgap, hend⟩ := hstart
  -- The bracket is taken first, without knowing whether there is an item.
  have hopen : run ⟨.value, frames, '[' :: c :: tail⟩ = run ⟨.item, frames, c :: tail⟩ :=
    run_of_next rfl
  rw [hopen]
  apply run_of_next
  show stepItem frames (skipGap (c :: tail)) = _
  -- The next character is not the other bracket, so that an item is expected.
  rw [skipGap_cons hgap]
  unfold stepItem
  split
  next heq => exact absurd (List.cons.inj heq).1 hend
  next heq => cases heq
  next => rfl

/-! ## Whole documents -/

open Document (itemsInk membersInk ItemsWellFormed MembersWellFormed)

/-- What stands behind an item ends its literal, if it is a number. -/
private theorem noNumeral_itemsInk (items : List Document) (rest : List Char) :
    NoNumeral (itemsInk [','] items ++ ']' :: rest) := by
  cases items with
  | nil => exact noNumeral_cons (by decide)
  | cons item items => exact noNumeral_cons (by decide)

/-- Likewise what stands behind the value of a member. -/
private theorem noNumeral_membersInk (members : List (String × Document)) (rest : List Char) :
    NoNumeral (membersInk [','] members ++ '\x7d' :: rest) := by
  cases members with
  | nil => exact noNumeral_cons (by decide)
  | cons member members => exact noNumeral_cons (by decide)

mutual

/-- A scanner comes from the start of a document to its end with the draft of the document. -/
theorem run_ink {d : Document} (hd : d.WellFormed) (frames : List Frame) {rest : List Char}
    (hrest : NoNumeral rest) :
    run ⟨.value, frames, d.ink ++ rest⟩ = run ⟨.after d.draft, frames, rest⟩ := by
  cases d with
  | null => exact run_scalar frames ⟨_, _, rfl, by decide⟩ rfl
  | bool value => cases value <;> exact run_scalar frames ⟨_, _, rfl, by decide⟩ rfl
  | number n =>
    -- A number is the only document whose end is told by what follows it.
    refine run_scalar frames ?_ (scanScalar_number hd hrest)
    obtain ⟨c, cs, htext, hc⟩ := Numeral.toList_text_eq_cons hd
    have hne := ne_of_numberStart hc
    simp only [List.forall_mem_cons] at hne
    refine ⟨c, cs ++ rest, ?_, ?_⟩
    · rw [Document.ink, htext, List.cons_append]
    · simp [isGap, hne]
  | text text => exact run_scalar frames ⟨_, _, rfl, by decide⟩ (scanScalar_text text rest)
  | array items =>
    cases items with
    -- An empty array is closed right after it has been opened.
    | nil => exact (run_of_next rfl).trans (run_of_next rfl)
    | cons item items =>
      -- The first item is read with the array as the innermost open container, and the others after
      -- it.
      obtain ⟨hitem, hitems⟩ := hd
      have hink : (Document.array (item :: items)).ink ++ rest =
          '[' :: (item.ink ++ (itemsInk [','] items ++ ']' :: rest)) := by
        simp [Document.ink, itemsInk]
      have hstart : ∃ c tail, item.ink ++ (itemsInk [','] items ++ ']' :: rest) = c :: tail ∧
          isGap c = false ∧ c ≠ ']' := by
        obtain ⟨c, cs, h, hc⟩ := Document.ink_eq_cons hitem
        exact ⟨c, cs ++ (itemsInk [','] items ++ ']' :: rest), by rw [h, List.cons_append], hc⟩
      rw [hink, run_firstItem frames hstart,
        run_ink hitem (.array [] :: frames) (noNumeral_itemsInk items rest),
        run_itemsInk hitems]
      rfl
  | object members =>
    cases members with
    -- Likewise an empty object.
    | nil => exact (run_of_next rfl).trans (run_of_next rfl)
    | cons member members =>
      obtain ⟨name, value⟩ := member
      -- The first name is read, then its value with the object as the innermost open container.
      obtain ⟨hvalue, hmembers⟩ := hd
      have hink : (Document.object ((name, value) :: members)).ink ++ rest =
          '\x7b' :: (literal name ++ ':' ::
            (value.ink ++ (membersInk [','] members ++ '\x7d' :: rest))) := by
        simp [Document.ink, membersInk]
      have hopen : ∀ cs, run ⟨.value, frames, '\x7b' :: cs⟩ = run ⟨.key [] true, frames, cs⟩ :=
        fun cs => run_of_next rfl
      rw [hink, hopen, run_name,
        run_ink hvalue (.object [] (.name name) :: frames) (noNumeral_membersInk members rest),
        run_membersInk hmembers]
      rfl

/-- A scanner comes from the end of an item to the end of its array. -/
theorem run_itemsInk {items : List Document} (hitems : ItemsWellFormed items) (value : Draft)
    (before : List Draft) (frames : List Frame) (rest : List Char) :
    run ⟨.after value, .array before :: frames, itemsInk [','] items ++ ']' :: rest⟩ =
      run ⟨.after (.array ((value :: before).reverse ++ Document.drafts items) none), frames,
        rest⟩ := by
  cases items with
  -- The bracket closes the array with the items that have been read.
  | nil =>
    rw [Document.drafts, List.append_nil]
    exact run_of_next rfl
  | cons item items =>
    -- The value joins the items before, and the next one is read in its place.
    obtain ⟨hitem, hitems⟩ := hitems
    have hink : itemsInk [','] (item :: items) ++ ']' :: rest =
        ',' :: (item.ink ++ (itemsInk [','] items ++ ']' :: rest)) := by
      simp [itemsInk]
    have hcomma : ∀ cs, run ⟨.after value, .array before :: frames, ',' :: cs⟩ =
        run ⟨.value, .array (value :: before) :: frames, cs⟩ := fun cs => run_of_next rfl
    rw [hink, hcomma,
      run_ink hitem (.array (value :: before) :: frames) (noNumeral_itemsInk items rest),
      run_itemsInk hitems, Document.drafts, List.reverse_cons, List.append_assoc]
    rfl

/-- A scanner comes from the end of a member to the end of its object. -/
theorem run_membersInk {members : List (String × Document)} (hmembers : MembersWellFormed members)
    (value : Draft) (key : Key) (before : List (Key × Draft)) (frames : List Frame)
    (rest : List Char) :
    run ⟨.after value, .object before key :: frames,
        membersInk [','] members ++ '\x7d' :: rest⟩ =
      run ⟨.after (.object (((key, value) :: before).reverse ++ Document.memberDrafts members)
        none), frames, rest⟩ := by
  cases members with
  -- The bracket closes the object with the members that have been read.
  | nil =>
    rw [Document.memberDrafts, List.append_nil]
    exact run_of_next rfl
  | cons member members =>
    obtain ⟨name, next⟩ := member
    -- The value joins the members before under its name, and the next name is read.
    obtain ⟨hnext, hmembers⟩ := hmembers
    have hink : membersInk [','] ((name, next) :: members) ++ '\x7d' :: rest =
        ',' :: (literal name ++ ':' ::
          (next.ink ++ (membersInk [','] members ++ '\x7d' :: rest))) := by
      simp [membersInk]
    have hcomma : ∀ cs, run ⟨.after value, .object before key :: frames, ',' :: cs⟩ =
        run ⟨.key ((key, value) :: before) false, frames, cs⟩ := fun cs => run_of_next rfl
    rw [hink, hcomma, run_name,
      run_ink hnext (.object ((key, value) :: before) (.name name) :: frames)
        (noNumeral_membersInk members rest),
      run_membersInk hmembers, Document.memberDrafts, List.reverse_cons, List.append_assoc]
    rfl

end

end Scanner

/-! ## Reading back -/

/-- A document is taken off the front of a text as it was written. -/
theorem scan_ink {d : Document} (hd : d.WellFormed) {rest : List Char} (hrest : NoNumeral rest) :
    scan (d.ink ++ rest) = (d.draft, rest) :=
  (Scanner.run_ink hd [] hrest).trans (Scanner.run_of_done rfl)

/-- The compact form of a document is taken off as a whole. -/
theorem scan_write {d : Document} (hd : d.WellFormed) :
    scan d.write.toList = (d.draft, []) := by
  have h := scan_ink hd noNumeral_nil
  rwa [List.append_nil, ← Document.toList_write] at h

end Reckoner.Json
