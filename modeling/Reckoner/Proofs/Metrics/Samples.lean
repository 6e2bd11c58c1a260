import Mathlib.Data.List.Basic
import Mathlib.Tactic.SplitIfs
import Reckoner.Metrics.Exposition
import Reckoner.Proofs.Metrics.Quantity

/-!
# Samples are read back

The line of a sample says to which labels its value belongs.  Labels can be any texts, but inside a
line no quote stands for itself, so that a label ends at the first quote which no backslash comes
before (`takeLabel_append`).  A line can therefore be read from left to right, whatever the labels
are (`Sample.Says.ofLine?_line`), and what a line starts with belongs to one pair of labels only
(`linePrefix_append_inj`).  No line has a line end in it (`Sample.Says.lineEnd_notMem_line`).
-/

namespace Reckoner.Metrics

/-! ## Label values -/

/-- A character as it is written inside a label value. -/
def labelInk (c : Char) : List Char :=
  if c = '\\' then ['\\', '\\']
  else if c = '\n' then ['\\', 'n']
  else if c = '"' then ['\\', '"']
  else [c]

/-- A label value is escaped character by character. -/
theorem toList_escapedLabel (text : String) :
    (escapedLabel text).toList = text.toList.flatMap labelInk := by
  -- What has been written so far is kept general for the induction.
  have hfold : ∀ (cs : List Char) (out : String), (cs.foldl (fun out c =>
      if c = '\\' then out ++ "\\\\"
      else if c = '\n' then out ++ "\\n"
      else if c = '"' then out ++ "\\\""
      else out.push c) out).toList = out.toList ++ cs.flatMap labelInk := by
    intro cs
    induction cs with
    | nil => simp
    | cons c cs ih =>
      intro out
      rw [List.foldl_cons, ih, List.flatMap_cons, ← List.append_assoc, labelInk]
      congr 1
      split_ifs <;> simp
  rw [escapedLabel, hfold]
  rfl

/-- Takes a label value off a text, up to the quote behind it. -/
def takeLabel : List Char → Option (List Char × List Char)
  | [] => none
  | c :: rest =>
    if c = '"' then some ([], rest)
    else if c = '\\' then
      match rest with
      | [] => none
      | e :: rest =>
        if e = '\\' then (takeLabel rest).map fun (cs, rest) => ('\\' :: cs, rest)
        else if e = 'n' then (takeLabel rest).map fun (cs, rest) => ('\n' :: cs, rest)
        else if e = '"' then (takeLabel rest).map fun (cs, rest) => ('"' :: cs, rest)
        else none
    else if c = '\n' then none
    else (takeLabel rest).map fun (cs, rest) => (c :: cs, rest)

/-- A character is read as it was, whichever way it is written. -/
theorem takeLabel_labelInk (c : Char) (rest : List Char) :
    takeLabel (labelInk c ++ rest) = (takeLabel rest).map fun (cs, rest) => (c :: cs, rest) := by
  unfold labelInk
  split_ifs with hbackslash hline hquote
  · rw [hbackslash]
    simp [takeLabel]
  · rw [hline]
    simp [takeLabel]
  · rw [hquote]
    simp [takeLabel]
  · -- Any other character stands for itself.
    rw [List.singleton_append, takeLabel.eq_def (c :: rest)]
    simp only [if_neg hquote, if_neg hbackslash, if_neg hline]

/-- A label value is read as it was, whatever follows its quote. -/
theorem takeLabel_append (cs rest : List Char) :
    takeLabel (cs.flatMap labelInk ++ '"' :: rest) = some (cs, rest) := by
  induction cs with
  | nil => rw [List.flatMap_nil, List.nil_append, takeLabel.eq_def]; rfl
  | cons c cs ih =>
    rw [List.flatMap_cons, List.append_assoc, takeLabel_labelInk, ih, Option.map_some]

/-- Line ends are escaped. -/
theorem lineEnd_notMem_flatMap_labelInk (cs : List Char) : '\n' ∉ cs.flatMap labelInk := by
  intro hmem
  obtain ⟨c, -, hmem⟩ := List.mem_flatMap.mp hmem
  unfold labelInk at hmem
  split_ifs at hmem with hbackslash hline hquote
  · exact absurd hmem (by decide)
  · exact absurd hmem (by decide)
  · exact absurd hmem (by decide)
  · exact hline (List.mem_singleton.mp hmem).symm

/-! ## What a line starts with -/

/-- What stands in front of the first label value. -/
def layerMark : List Char := "\x7bapp_layer=\"".toList

/-- What stands between the label values. -/
def functionMark : List Char := ",class_function=\"".toList

/-- The labels of a line, with the quote behind the second one. -/
def labelsInk (l : Labels) : List Char :=
  layerMark ++ (l.layer.toList.flatMap labelInk ++ '"' ::
    (functionMark ++ (l.function.toList.flatMap labelInk ++ ['"'])))

/-- What a line of a series starts with, up to the labels. -/
def linePrefix (series : String) (l : Labels) : List Char := series.toList ++ labelsInk l

/-- Takes labels off a text. -/
def takeLabels (cs : List Char) : Option (Labels × List Char) := do
  let cs ← layerMark.isPrefixOf? cs
  let (layer, cs) ← takeLabel cs
  let cs ← functionMark.isPrefixOf? cs
  let (function, cs) ← takeLabel cs
  return (⟨String.ofList layer, String.ofList function⟩, cs)

/-- A mark is taken off a text that starts with it. -/
theorem isPrefixOf?_append (cs rest : List Char) : cs.isPrefixOf? (cs ++ rest) = some rest :=
  List.isPrefixOf?_eq_some_iff_append_eq.mpr rfl

/-- Both label values are read, and what follows them is left. -/
theorem takeLabels_append (l : Labels) (rest : List Char) :
    takeLabels (labelsInk l ++ rest) = some (l, rest) := by
  have htext : labelsInk l ++ rest = layerMark ++ (l.layer.toList.flatMap labelInk ++ '"' ::
      (functionMark ++ (l.function.toList.flatMap labelInk ++ '"' :: rest))) := by
    simp [labelsInk]
  simp only [takeLabels, htext, isPrefixOf?_append, takeLabel_append, Option.bind_eq_bind,
    Option.bind_some, Option.pure_def, String.ofList_toList]

/-- What a line starts with belongs to one pair of labels, whatever goes on behind it. -/
theorem linePrefix_append_inj {series : String} {l l' : Labels} {rest rest' : List Char}
    (h : linePrefix series l ++ rest = linePrefix series l' ++ rest') : l = l' ∧ rest = rest' := by
  rw [linePrefix, linePrefix, List.append_assoc, List.append_assoc] at h
  -- Reading both sides gives the labels of each.
  have hlabels := congrArg takeLabels (List.append_cancel_left h)
  rw [takeLabels_append, takeLabels_append] at hlabels
  cases hlabels
  exact ⟨rfl, rfl⟩

/-! ## Lines -/

/-- What is read of a line: a series, the labels that a value of it belongs to, and the bound up to
which a histogram has counted. -/
structure Reading where
  series : String
  labels : Labels
  bound : Option String
  value : Quantity
  deriving DecidableEq

/-- What stands in front of a bound. -/
def boundMark : List Char := ",le=\"".toList

/-- What stands between the labels and the value. -/
def valueMark : List Char := "\x7d ".toList

/-- A bound as it is written. -/
def boundInk : Option String → List Char
  | some bound => boundMark ++ (bound.toList ++ ['"'])
  | none => []

/-- The characters of the line of a sample, from left to right. -/
theorem Sample.toList_line (s : Sample) :
    s.line.toList =
      linePrefix s.series s.labels ++ (boundInk s.bound ++ (valueMark ++ s.value.toList)) := by
  have hlayer : "\x7bapp_layer=\"".toList = layerMark := rfl
  have hfunction : "\",class_function=\"".toList = '"' :: functionMark := rfl
  have hquote : "\"".toList = ['"'] := rfl
  have hvalue : "\x7d ".toList = valueMark := rfl
  -- Only a sample of a bucket has a bound.
  have hbound : s.boundText.toList = boundInk s.bound := by
    have hmark : ",le=\"".toList = boundMark := rfl
    unfold boundText
    cases s.bound with
    | none => rfl
    | some bound =>
      simp only [String.toList_append, hmark, hquote, boundInk, List.append_assoc]
  simp only [line, String.toList_append, toList_escapedLabel, hlayer, hfunction, hquote, hvalue,
    hbound, linePrefix, labelsInk, List.append_assoc, List.cons_append, List.nil_append]

namespace Reading

/-- Takes a bound off a text, if there is one. -/
def takeBound (cs : List Char) : Option (Option String × List Char) :=
  match boundMark.isPrefixOf? cs with
  | some cs => (takeLabel cs).map fun (bound, cs) => (some (String.ofList bound), cs)
  | none => some (none, cs)

/-- Reads a line; the series ends where the labels begin. -/
def ofLine? (cs : List Char) : Option Reading := do
  let series := cs.takeWhile (· ≠ '\x7b')
  let (labels, cs) ← takeLabels (cs.dropWhile (· ≠ '\x7b'))
  let (bound, cs) ← takeBound cs
  let cs ← valueMark.isPrefixOf? cs
  let value ← Quantity.read? cs
  return ⟨String.ofList series, labels, bound, value⟩

/-- A bound is read if none of its characters has to be escaped. -/
theorem takeBound_append {bound : Option String}
    (hbound : ∀ text ∈ bound, ∀ c ∈ text.toList, labelInk c = [c]) (rest : List Char) :
    takeBound (boundInk bound ++ (valueMark ++ rest)) = some (bound, valueMark ++ rest) := by
  cases bound with
  | none => rfl
  | some bound =>
    -- The bound reads like a label value that needs no escapes.
    have hplain : bound.toList.flatMap labelInk = bound.toList := by
      rw [List.flatMap_congr (hbound bound rfl), List.flatMap_singleton']
    have htext : boundInk (some bound) ++ (valueMark ++ rest) =
        boundMark ++ (bound.toList.flatMap labelInk ++ '"' :: (valueMark ++ rest)) := by
      simp [boundInk, hplain]
    simp only [takeBound, htext, isPrefixOf?_append, takeLabel_append, Option.map_some,
      String.ofList_toList]

/-- The series of a line is what stands in front of the labels. -/
theorem span_series {series : String} (hseries : '\x7b' ∉ series.toList) (l : Labels)
    (rest : List Char) :
    (linePrefix series l ++ rest).takeWhile (· ≠ '\x7b') = series.toList ∧
      (linePrefix series l ++ rest).dropWhile (· ≠ '\x7b') = labelsInk l ++ rest := by
  have hinside : ∀ c ∈ series.toList, decide (c ≠ '\x7b') = true := by
    intro c hc
    rw [decide_eq_true_iff]
    rintro rfl
    exact hseries hc
  -- The labels start with a brace, which is in no name of a series.
  have hlabels : ∃ cs, labelsInk l ++ rest = '\x7b' :: cs := ⟨_, rfl⟩
  obtain ⟨cs, hcs⟩ := hlabels
  rw [linePrefix, List.append_assoc, List.takeWhile_append_of_pos hinside,
    List.dropWhile_append_of_pos hinside, hcs]
  constructor
  · rw [List.takeWhile_cons_of_neg (by decide), List.append_nil]
  · rw [List.dropWhile_cons_of_neg (by decide)]

end Reading

/-- Labels stand on one line, as line ends in them are escaped. -/
theorem lineEnd_notMem_labelsInk (l : Labels) : '\n' ∉ labelsInk l := by
  have hlayerMark : '\n' ∉ layerMark := by decide
  have hfunctionMark : '\n' ∉ functionMark := by decide
  simp only [labelsInk, List.mem_append, List.mem_cons, List.not_mem_nil, not_or]
  exact ⟨hlayerMark, lineEnd_notMem_flatMap_labelInk _, by decide, hfunctionMark,
    lineEnd_notMem_flatMap_labelInk _, by decide, not_false⟩

/-! ## Samples -/

/-- Names of series have no characters that mean something in a line. -/
def Plain (name : String) : Prop := ∀ c ∈ ['\x7b', '\n', '#'], c ∉ name.toList

/-- What a sample says: its value can be read, and nothing in front of it is in the way. -/
structure Sample.Says (s : Sample) (g : Reading) : Prop where
  series : s.series = g.series
  labels : s.labels = g.labels
  bound : s.bound = g.bound
  value : Quantity.read? s.value.toList = some g.value
  plain : Plain s.series
  /-- No character of a bound has to be escaped. -/
  unescaped : ∀ text ∈ s.bound, ∀ c ∈ text.toList, labelInk c = [c]

namespace Sample.Says

variable {s : Sample} {g : Reading}

/-- A line is read as what its sample says, whatever its labels are. -/
theorem ofLine?_line (h : s.Says g) : Reading.ofLine? s.line.toList = some g := by
  have hseries : '\x7b' ∉ s.series.toList := h.plain _ (by decide)
  -- The parts are taken off one after the other, each up to its mark.
  obtain ⟨htake, hdrop⟩ := Reading.span_series hseries s.labels
    (boundInk s.bound ++ (valueMark ++ s.value.toList))
  rw [← toList_line] at htake hdrop
  simp only [Reading.ofLine?, htake, hdrop, takeLabels_append,
    Reading.takeBound_append h.unescaped, isPrefixOf?_append, h.value, Option.bind_eq_bind,
    Option.bind_some, Option.pure_def, String.ofList_toList]
  rw [h.series, h.labels, h.bound]

/-- A line is told from a comment. -/
theorem line_ne_comment (h : s.Says g) (comment : List Char) :
    s.line.toList ≠ '#' :: comment := by
  intro heq
  have hmark : '#' ∉ s.series.toList := h.plain _ (by decide)
  rw [toList_line, linePrefix, List.append_assoc] at heq
  cases hseries : s.series.toList with
  | nil =>
    -- Without a series the line starts with the labels.
    rw [hseries] at heq
    exact absurd (List.cons.inj heq).1 (by decide)
  | cons c cs =>
    rw [hseries] at heq hmark
    exact hmark ((List.cons.inj heq).1 ▸ List.mem_cons_self)

/-- A line is a line, whatever its labels are. -/
theorem lineEnd_notMem_line (h : s.Says g) : '\n' ∉ s.line.toList := by
  have hseries : '\n' ∉ s.series.toList := h.plain _ (by decide)
  have hbound : '\n' ∉ boundInk s.bound := by
    cases hbound : s.bound with
    | none => exact List.not_mem_nil
    | some text =>
      have hmark : '\n' ∉ boundMark := by decide
      -- A line end would have been escaped.
      have htext : '\n' ∉ text.toList := by
        intro hmem
        exact absurd (h.unescaped text hbound _ hmem) (by decide)
      simp only [boundInk, List.mem_append, List.mem_cons, List.not_mem_nil, not_or]
      exact ⟨hmark, htext, by decide, not_false⟩
  have hmark : '\n' ∉ valueMark := by decide
  have hvalue : '\n' ∉ s.value.toList := Quantity.lineEnd_notMem_of_read? h.value
  simp only [toList_line, linePrefix, List.mem_append, not_or]
  exact ⟨⟨hseries, lineEnd_notMem_labelsInk _⟩, hbound, hmark, hvalue⟩

end Sample.Says

/-- A line starts as the lines of its own labels do, and as those of no other labels. -/
theorem linePrefix_isPrefix_iff (s : Sample) (l : Labels) :
    linePrefix s.series l <+: s.line.toList ↔ l = s.labels := by
  rw [s.toList_line]
  constructor
  · -- What a line starts with determines its labels.
    rintro ⟨rest, heq⟩
    exact (linePrefix_append_inj heq).1
  · rintro rfl
    exact List.prefix_append _ _

end Reckoner.Metrics
