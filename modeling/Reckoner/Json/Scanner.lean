import Reckoner.Json.Draft

/-!
# From text to draft

A scanner takes a draft off the front of a text.  It keeps the containers that are still open on
a stack of its own, so that the nesting of a text is not limited by it, and every step takes at
least one character or settles that an array is not empty (`load_of_step`).
-/

namespace Reckoner.Json

/-- The characters that may stand between the tokens of a document. -/
def isGap (c : Char) : Bool := c == ' ' || c == '\t' || c == '\n' || c == '\r'

def skipGap (cs : List Char) : List Char := cs.dropWhile isGap

theorem length_skipGap (cs : List Char) : (skipGap cs).length ≤ cs.length :=
  (List.dropWhile_sublist _).length_le

/-- Takes the rest of a word off a text. -/
def scanWord : List Char → List Char → Except Damage (List Char)
  | [], cs => .ok cs
  | _ :: _, [] => .error ⟨.truncated, .truncated, .malformed⟩
  | w :: ws, c :: cs => if w = c then scanWord ws cs else .error (.always .malformed)

/-- Takes a value that is no container off a text. -/
def scanScalar (cs : List Char) : Except Damage (Draft × List Char) :=
  match cs with
  | [] => .error (.always .truncated)
  | c :: rest =>
    if c = 'n' then return (.null, ← scanWord ['u', 'l', 'l'] rest)
    else if c = 't' then return (.bool true, ← scanWord ['r', 'u', 'e'] rest)
    else if c = 'f' then return (.bool false, ← scanWord ['a', 'l', 's', 'e'] rest)
    else if c = '"' then do
      let (text, rest) ← scanText {} rest
      return (.text text, rest)
    else if c = '-' ∨ isDigit c then do
      let (n, rest) ← Numeral.scan cs
      return (.number n, rest)
    else .error (.always .malformed)

/-! ## Open containers -/

/-- A container that is still open, with the values before the one being read, latest first. -/
inductive Frame where
  | array (before : List Draft)
  | object (before : List (Key × Draft)) (key : Key)

/-- The container with one more value, ending here. -/
def Frame.close (value : Draft) (fault : Option Damage) : Frame → Draft
  | .array before => .array (value :: before).reverse fault
  | .object before key => .object ((key, value) :: before).reverse fault

/-- The draft that breaks off in a value, with all containers around it. -/
def breakOff (damage : Damage) (value : Draft) : List Frame → Draft
  | [] => value
  | frame :: frames => breakOff damage (frame.close value (some damage)) frames

/-! ## Steps -/

inductive Phase where
  /-- A value. -/
  | value
  /-- A value, or the end of an array that has just been opened. -/
  | item
  /-- The name of a member, or, if the object has just been opened, its end. -/
  | key (before : List (Key × Draft)) (opened : Bool)
  /-- What follows a value. -/
  | after (value : Draft)

structure Scanner where
  phase : Phase
  frames : List Frame
  rest : List Char

inductive Scan where
  | next (scanner : Scanner)
  /-- The draft, and the text after it. -/
  | done (draft : Draft) (rest : List Char)

namespace Scanner

/-- Ends with a value that breaks off. -/
def fail (damage : Damage) (value : Draft) (frames : List Frame) : Scan :=
  .done (breakOff damage value frames) []

/-- Reads a value; a container is opened. -/
def stepValue (frames : List Frame) (cs : List Char) : Scan :=
  match cs with
  | '[' :: rest => .next ⟨.item, frames, rest⟩
  | '\x7b' :: rest => .next ⟨.key [] true, frames, rest⟩
  | cs =>
    match scanScalar cs with
    | .ok (d, rest) => .next ⟨.after d, frames, rest⟩
    | .error damage => fail damage (.broken damage) frames

/-- Ends an array that has just been opened, or expects its first item. -/
def stepItem (frames : List Frame) (cs : List Char) : Scan :=
  match cs with
  | ']' :: rest => .next ⟨.after (.array [] none), frames, rest⟩
  | [] => fail (.always .truncated) (.array [] (some (.always .truncated))) frames
  | cs => .next ⟨.value, .array [] :: frames, cs⟩

/-- Expects the value of a member after its colon. -/
def stepColon (before : List (Key × Draft)) (key : Key) (frames : List Frame)
    (cs : List Char) : Scan :=
  match skipGap cs with
  | ':' :: rest => .next ⟨.value, .object before key :: frames, rest⟩
  | [] => fail (.always .truncated) (.broken (.always .truncated)) (.object before key :: frames)
  | _ => fail (.always .malformed) (.broken (.always .malformed)) (.object before key :: frames)

/-- Reads the name of a member, or ends an object that has just been opened. -/
def stepKey (before : List (Key × Draft)) (opened : Bool) (frames : List Frame)
    (cs : List Char) : Scan :=
  match cs with
  | [] =>
    let damage := Damage.always .truncated
    fail damage (.broken damage) (.object before (.broken damage) :: frames)
  | c :: rest =>
    if c = '"' then
      match scanText {} rest with
      | .ok (some name, rest) => stepColon before (.name name) frames rest
      | .ok (none, rest) => stepColon before .unpaired frames rest
      | .error damage => fail damage (.broken damage) (.object before (.broken damage) :: frames)
    else if c = '\x7d' ∧ opened then .next ⟨.after (.object [] none), frames, rest⟩
    else
      let damage := Damage.always .malformed
      fail damage (.broken damage) (.object before (.broken damage) :: frames)

/-- Goes on after a value: with the next one, or with the container that ends here. -/
def stepAfter (value : Draft) (frame : Frame) (frames : List Frame) (cs : List Char) : Scan :=
  match cs with
  | [] =>
    let damage := Damage.always .truncated
    fail damage (frame.close value (some damage)) frames
  | c :: rest =>
    match frame with
    | .array before =>
      if c = ',' then .next ⟨.value, .array (value :: before) :: frames, rest⟩
      else if c = ']' then .next ⟨.after (frame.close value none), frames, rest⟩
      else
        let damage := Damage.always .malformed
        fail damage (frame.close value (some damage)) frames
    | .object before key =>
      if c = ',' then .next ⟨.key ((key, value) :: before) false, frames, rest⟩
      else if c = '\x7d' then .next ⟨.after (frame.close value none), frames, rest⟩
      else
        let damage := Damage.always .malformed
        fail damage (frame.close value (some damage)) frames

def step (s : Scanner) : Scan :=
  match s.phase with
  | .value => stepValue s.frames (skipGap s.rest)
  | .item => stepItem s.frames (skipGap s.rest)
  | .key before opened => stepKey before opened s.frames (skipGap s.rest)
  | .after value =>
    match s.frames with
    | [] => .done value s.rest
    | frame :: frames => stepAfter value frame frames (skipGap s.rest)

/-! ## Every step makes progress -/

/-- A bound on the steps that remain. -/
def load (s : Scanner) : Nat :=
  match s.phase with
  -- Expecting an item takes a step, but no character.
  | .item => 2 * s.rest.length + 1
  | _ => 2 * s.rest.length

/-- A word is taken off the front. -/
theorem length_of_scanWord {ws cs rest : List Char} (h : scanWord ws cs = .ok rest) :
    rest.length ≤ cs.length := by
  fun_induction scanWord ws cs with
  | case1 => cases h; exact Nat.le_refl _
  -- A character that fits is taken, and then the others.
  | case3 w cs c ih =>
    have := ih h
    simp only [List.length_cons]
    omega
  | _ => cases h

/-- A value that is no container has at least one character. -/
theorem length_of_scanScalar {cs rest : List Char} {d : Draft}
    (h : scanScalar cs = .ok (d, rest)) : rest.length < cs.length := by
  unfold scanScalar at h
  split at h
  · cases h
  next c tail =>
    simp only [List.length_cons]
    -- The first character tells a word, a text or a number.
    split at h
    · rcases hw : scanWord ['u', 'l', 'l'] tail with x | rest' <;>
        simp [hw, bind, Except.bind, pure, Except.pure] at h
      have := length_of_scanWord hw
      obtain ⟨_, rfl⟩ := h
      omega
    split at h
    · rcases hw : scanWord ['r', 'u', 'e'] tail with x | rest' <;>
        simp [hw, bind, Except.bind, pure, Except.pure] at h
      have := length_of_scanWord hw
      obtain ⟨_, rfl⟩ := h
      omega
    split at h
    · rcases hw : scanWord ['a', 'l', 's', 'e'] tail with x | rest' <;>
        simp [hw, bind, Except.bind, pure, Except.pure] at h
      have := length_of_scanWord hw
      obtain ⟨_, rfl⟩ := h
      omega
    split at h
    · rcases hw : scanText {} tail with x | ⟨text, rest'⟩ <;>
        simp [hw, bind, Except.bind, pure, Except.pure] at h
      have := length_of_scanText hw
      obtain ⟨_, rfl⟩ := h
      omega
    split at h
    · rcases hw : Numeral.scan (c :: tail) with x | ⟨n, rest'⟩ <;>
        simp [hw, bind, Except.bind, pure, Except.pure] at h
      have := Numeral.length_of_scan hw
      obtain ⟨_, rfl⟩ := h
      simpa using this
    · cases h

/-- Nothing is read behind a place where a text breaks off. -/
theorem fail_ne_next {damage : Damage} {value : Draft} {frames : List Frame} {s : Scanner} :
    fail damage value frames ≠ .next s := by
  simp [fail]

/-- A value that is no container takes a character, and so does the start of one. -/
theorem load_of_stepValue {frames : List Frame} {cs : List Char} {s : Scanner}
    (h : stepValue frames cs = .next s) : s.load < 2 * cs.length := by
  unfold stepValue at h
  split at h
  · cases h; simp only [load, List.length_cons]; omega
  · cases h; simp only [load, List.length_cons]; omega
  · split at h
    -- The value has been taken off, and what follows it comes next.
    next heq =>
      cases h
      have := length_of_scanScalar heq
      simp only [load]
      omega
    · exact absurd h fail_ne_next

/-- The end of an array takes a character; that there is an item takes none. -/
theorem load_of_stepItem {frames : List Frame} {cs : List Char} {s : Scanner}
    (h : stepItem frames cs = .next s) : s.load ≤ 2 * cs.length := by
  unfold stepItem at h
  split at h
  · cases h; simp only [load, List.length_cons]; omega
  · exact absurd h fail_ne_next
  · -- An item is expected where nothing has been taken, but it is no longer open whether there is
    -- one.
    cases h; exact Nat.le_refl _

/-- A colon takes a character. -/
theorem load_of_stepColon {before : List (Key × Draft)} {key : Key} {frames : List Frame}
    {cs : List Char} {s : Scanner} (h : stepColon before key frames cs = .next s) :
    s.load < 2 * cs.length := by
  unfold stepColon at h
  have hl := length_skipGap cs
  split at h
  -- Blanks may stand in front of the colon.
  next heq =>
    cases h
    rw [heq] at hl
    simp only [List.length_cons] at hl
    simp only [load]
    omega
  · exact absurd h fail_ne_next
  · exact absurd h fail_ne_next

/-- A name takes characters, and so does the end of an object. -/
theorem load_of_stepKey {before : List (Key × Draft)} {opened : Bool} {frames : List Frame}
    {cs : List Char} {s : Scanner} (h : stepKey before opened frames cs = .next s) :
    s.load < 2 * cs.length := by
  unfold stepKey at h
  split at h
  · exact absurd h fail_ne_next
  next c tail =>
    simp only [List.length_cons]
    split at h
    · split at h
      -- Names that can be used and names that cannot are followed by a colon alike.
      next heq =>
        have := load_of_stepColon h
        have := length_of_scanText heq
        omega
      next heq =>
        have := load_of_stepColon h
        have := length_of_scanText heq
        omega
      · exact absurd h fail_ne_next
    · split at h
      · cases h; simp only [load]; omega
      · exact absurd h fail_ne_next

/-- A comma or the end of a container takes a character. -/
theorem load_of_stepAfter {value : Draft} {frame : Frame} {frames : List Frame}
    {cs : List Char} {s : Scanner} (h : stepAfter value frame frames cs = .next s) :
    s.load < 2 * cs.length := by
  unfold stepAfter at h
  split at h
  · exact absurd h fail_ne_next
  next c tail =>
    simp only [List.length_cons]
    -- The comma goes with the next value, of an array or an object.
    -- Otherwise only the bracket goes on.
    split at h <;> split at h
    case h_1.isTrue | h_2.isTrue => cases h; simp only [load]; omega
    all_goals
      split at h
      · cases h; simp only [load]; omega
      · exact absurd h fail_ne_next

/-- Every step leaves less to do. -/
theorem load_of_step {s s' : Scanner} (h : s.step = .next s') : s'.load < s.load := by
  have hl := length_skipGap s.rest
  unfold step at h
  split at h
  next heq =>
    have := load_of_stepValue h
    simp only [load, heq] at this ⊢
    omega
  next heq =>
    -- Nothing may have been taken, but an item is no longer only expected.
    have := load_of_stepItem h
    simp only [load, heq] at this ⊢
    omega
  next heq =>
    have := load_of_stepKey h
    simp only [load, heq] at this ⊢
    omega
  next heq =>
    split at h
    · cases h
    · have := load_of_stepAfter h
      simp only [load, heq] at this ⊢
      omega

def run (s : Scanner) : Draft × List Char :=
  match _h : s.step with
  | .next s' => run s'
  | .done draft rest => (draft, rest)
termination_by s.load
decreasing_by exact load_of_step _h

end Scanner

/-- Takes a draft off the front of a text. -/
def scan (cs : List Char) : Draft × List Char := Scanner.run ⟨.value, [], cs⟩

/-- The document that a text is, if nothing is wrong with it. -/
def document? (text : String) : Option Document :=
  match scan text.toList with
  | (draft, rest) => if (skipGap rest).isEmpty then draft.document? else none

end Reckoner.Json
