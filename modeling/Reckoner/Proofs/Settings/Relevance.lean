import Reckoner.Proofs.Settings.Loading
import Reckoner.Settings.Config

/-!
# Which variables matter

A configuration is read from what its two sections have (`Config.ofValue_dictionary`), and as long
as a section is a dictionary, from what its known fields have (`readSection_congr`).  Variables that
are added beside these places change neither the configuration nor the problem that is reported, and
the order of variables matters only where the path of one leads to or through the path of another
(`Config.ofEnvironment_own`).
-/

namespace Reckoner.Settings

open Value (Below Beside Leads Sorted at? entries)

/-! ## Entries that are read -/

/-- The entries of some keys. -/
def only (keys : List String) (olds : List (String × Value)) : List (String × Value) :=
  olds.filter fun entry => keys.contains entry.1

/-- An entry stays if its key is one of them. -/
theorem only_cons (keys : List String) (entry : String × Value) (rest : List (String × Value)) :
    only keys (entry :: rest) =
      if keys.contains entry.1 then entry :: only keys rest else only keys rest := by
  unfold only
  rw [List.filter_cons]

/-- These keys have what they had, and others have nothing. -/
theorem lookup_only (keys : List String) (k : String) (olds : List (String × Value)) :
    (only keys olds).lookup k = if keys.contains k then olds.lookup k else none := by
  induction olds with
  | nil => exact (ite_self _).symm
  | cons entry rest ih =>
    obtain ⟨key, value⟩ := entry
    rw [only_cons, Value.lookup_cons]
    by_cases hk : k = key
    · -- The first entry is the one that is looked up, if it has stayed.
      subst hk
      split
      · rw [Value.lookup_cons, if_pos rfl, if_pos rfl]
      next hkeys => rw [ih, if_neg hkeys]
    · rw [if_neg hk]
      split
      · rw [Value.lookup_cons, if_neg hk, ih]
      · exact ih

/-- Sorted entries that have the same at some keys are the same there. -/
theorem only_congr {olds olds' : List (String × Value)} (h : Sorted olds) (h' : Sorted olds')
    {keys : List String} (hkeys : ∀ key ∈ keys, olds.lookup key = olds'.lookup key) :
    only keys olds = only keys olds' := by
  apply (h.filter _).ext (h'.filter _)
  intro k
  rw [← only, ← only, lookup_only, lookup_only]
  split
  next hk => exact hkeys k (List.contains_iff_mem.mp hk)
  next => rfl

/-- A reader that takes entries one by one and passes over those of other keys than its own. -/
structure ReadsOnly {α : Type} (keys : List String)
    (read : α → List (String × Value) → Except Problem α) : Prop where
  skip : ∀ a key value rest, keys.contains key = false → read a ((key, value) :: rest) = read a rest
  congr : ∀ entry rest rest', (∀ a, read a rest = read a rest') →
    ∀ a, read a (entry :: rest) = read a (entry :: rest')

/-- Such a reader reads the same from the entries of its keys alone. -/
theorem ReadsOnly.read_only {α : Type} {keys : List String}
    {read : α → List (String × Value) → Except Problem α} (h : ReadsOnly keys read)
    (olds : List (String × Value)) (a : α) : read a (only keys olds) = read a olds := by
  induction olds generalizing a with
  | nil => rfl
  | cons entry rest ih =>
    rw [only_cons]
    -- An entry of another key is left out, and would have been passed over.
    cases hkey : keys.contains entry.1 with
    | true => exact h.congr entry _ rest ih a
    | false => exact (ih a).trans (h.skip a entry.1 entry.2 rest hkey).symm

def evaluatorKeys : List String := ["strategy", "overflow"]

def outputKeys : List String := ["json", "metrics"]

def configKeys : List String := ["evaluation", "output"]

/-- A key that is neither of two is different from both. -/
theorem not_contains_pair {key a b : String} (h : [a, b].contains key = false) :
    key ≠ a ∧ key ≠ b := by
  simpa using h

theorem readsOnly_evaluatorEntries : ReadsOnly evaluatorKeys readEvaluatorEntries where
  skip e key value rest hkey := by
    obtain ⟨hstrategy, hoverflow⟩ := not_contains_pair hkey
    rw [readEvaluatorEntries, if_neg hstrategy, if_neg hoverflow]
  congr entry rest rest' hrest e := by simp only [readEvaluatorEntries, hrest]

theorem readsOnly_outputEntries : ReadsOnly outputKeys readOutputEntries where
  skip o key value rest hkey := by
    obtain ⟨hjson, hmetrics⟩ := not_contains_pair hkey
    rw [readOutputEntries, if_neg hjson, if_neg hmetrics]
  congr entry rest rest' hrest o := by simp only [readOutputEntries, hrest]

theorem readsOnly_configEntries : ReadsOnly configKeys readConfigEntries where
  skip c key value rest hkey := by
    obtain ⟨hevaluation, houtput⟩ := not_contains_pair hkey
    rw [readConfigEntries, if_neg hevaluation, if_neg houtput]
  congr entry rest rest' hrest c := by simp only [readConfigEntries, hrest]

/-! ## Sections -/

/-- Reads a section of a configuration, which has its default if it is not there. -/
def readSection {α : Type} (key : String) (default : α) (read : Value → Except Problem α) :
    Option Value → Except Problem α
  | none => .ok default
  | some value => below key (read value)

/-- Entries with one in front for what is at a place, if anything is. -/
def withEntry (key : String) (place : Option Value) (rest : List (String × Value)) :
    List (String × Value) :=
  match place with
  | some value => (key, value) :: rest
  | none => rest

/-- The entry in front counts for its key, if there is one. -/
theorem lookup_withEntry (key : String) (place : Option Value) (rest : List (String × Value))
    (k : String) :
    (withEntry key place rest).lookup k =
      if k = key then place.or (rest.lookup k) else rest.lookup k := by
  cases place with
  | none => exact (ite_self _).symm
  | some value => exact Value.lookup_cons key k value rest

/-- Up to two entries in the order of their keys are sorted. -/
theorem sorted_withEntries {key key' : String} (horder : key < key') (place place' : Option Value) :
    Sorted (withEntry key place (withEntry key' place' [])) := by
  have hsecond : Sorted (withEntry key' place' []) := by
    cases place' with
    | none => exact Sorted.nil
    | some value' => exact List.pairwise_singleton _ _
  cases place with
  | none => exact hsecond
  | some value =>
    refine List.pairwise_cons.mpr ⟨?_, hsecond⟩
    cases place' with
    | none => exact fun _ hmem => nomatch hmem
    | some value' =>
      intro entry hmem
      rw [List.mem_singleton.mp hmem]
      exact horder

/-- From entries for the two sections alone the sections are read one after the other. -/
theorem readConfigEntries_withEntries (place place' : Option Value) :
    readConfigEntries {} (withEntry "evaluation" place (withEntry "output" place' [])) = do
      let evaluation ← readSection "evaluation" {} readEvaluator place
      let output ← readSection "output" {} readOutput place'
      return { evaluation, output } := by
  -- The second section comes on top of whatever the first one has made of the defaults.
  have houtput : ∀ c : Config, readConfigEntries c (withEntry "output" place' []) = do
      let output ← readSection "output" c.output readOutput place'
      return { c with output } := by
    intro c
    cases place' with
    | none => rfl
    | some output =>
      rw [withEntry, readConfigEntries, if_neg (by decide), if_pos rfl, readSection]
      rfl
  cases place with
  | none => exact houtput {}
  | some evaluation =>
    rw [withEntry, readConfigEntries, if_pos rfl, readSection]
    -- A problem in the first section is reported before the second one is looked at.
    cases readEvaluator evaluation with
    | error problem => rfl
    | ok evaluation => exact houtput { evaluation }

/-- A configuration is read from its two sections, the evaluation first. -/
theorem Config.ofValue_dictionary {olds : List (String × Value)} (h : Sorted olds) :
    Config.ofValue (.dictionary olds) = do
      let evaluation ← readSection "evaluation" {} readEvaluator (olds.lookup "evaluation")
      let output ← readSection "output" {} readOutput (olds.lookup "output")
      return { evaluation, output } := by
  have hsections : only configKeys olds =
      withEntry "evaluation" (olds.lookup "evaluation")
        (withEntry "output" (olds.lookup "output") []) := by
    apply (h.filter _).ext (sorted_withEntries (by decide) _ _)
    intro k
    rw [← only, lookup_only, lookup_withEntry, lookup_withEntry, List.lookup_nil, Option.or_none]
    -- Both sides have the same at the two keys of the sections, and nothing elsewhere.
    by_cases hevaluation : k = "evaluation"
    · have hne : "evaluation" ≠ "output" := by decide
      subst hevaluation
      rw [if_neg hne, Option.or_none, if_pos rfl]
      rfl
    · rw [if_neg hevaluation]
      by_cases houtput : k = "output"
      · subst houtput
        rfl
      · rw [if_neg houtput, if_neg (by simp [configKeys, hevaluation, houtput])]
  rw [Config.ofValue, ← readsOnly_configEntries.read_only, hsections, readConfigEntries_withEntries]

/-- Sections that are dictionaries, or not there, and have the same at all known keys are read
alike. -/
theorem readSection_congr {α : Type} {name : String} {default : α}
    {read : Value → Except Problem α} {keys : List String}
    (hempty : read (.dictionary []) = .ok default)
    (honly : ∀ olds, read (.dictionary (only keys olds)) = read (.dictionary olds))
    {place place' : Option Value} {key : String} (hplace : Leads place [key])
    (hplace' : Leads place' [key])
    (hkeys : ∀ key ∈ keys, (entries place).lookup key = (entries place').lookup key) :
    readSection name default read place = readSection name default read place' := by
  -- A section that is not there is read like an empty one.
  have hread : ∀ {place : Option Value}, Leads place [key] →
      readSection name default read place =
        below name (read (.dictionary (only keys (entries place)))) := by
    intro place hplace
    rw [honly]
    cases place with
    | none => exact (congrArg (below name) hempty).symm
    | some value =>
      obtain ⟨olds, rfl, -⟩ := hplace.1 value rfl
      rfl
  rw [hread hplace, hread hplace', only_congr hplace.sorted hplace'.sorted hkeys]

/-! ## Settings that are read alike -/

/-- Where the sections are. -/
def sectionPaths : List (List String) := configKeys.map ([·])

/-- Where the known fields of the sections are. -/
def fieldPaths : List (List String) :=
  evaluatorKeys.map (["evaluation", ·]) ++ outputKeys.map (["output", ·])

theorem sectionPath_mem {key : String} (h : key ∈ configKeys) : [key] ∈ sectionPaths :=
  List.mem_map_of_mem h

theorem evaluatorPath_mem {key : String} (h : key ∈ evaluatorKeys) :
    ["evaluation", key] ∈ fieldPaths :=
  List.mem_append_left _ (List.mem_map_of_mem h)

theorem outputPath_mem {key : String} (h : key ∈ outputKeys) : ["output", key] ∈ fieldPaths :=
  List.mem_append_right _ (List.mem_map_of_mem h)

variable {settings settings' : Value}

/-- Only the sections of settings are read. -/
theorem Config.ofValue_congr_sections (h : Alike sectionPaths settings settings') :
    Config.ofValue settings = Config.ofValue settings' := by
  obtain ⟨hleads, hleads', hevaluation⟩ := h ["evaluation"] (sectionPath_mem (by decide))
  obtain ⟨-, -, houtput⟩ := h ["output"] (sectionPath_mem (by decide))
  obtain ⟨olds, rfl, hsorted⟩ := hleads.1 settings rfl
  obtain ⟨olds', rfl, hsorted'⟩ := hleads'.1 settings' rfl
  have hevaluation : olds.lookup "evaluation" = olds'.lookup "evaluation" := hevaluation
  have houtput : olds.lookup "output" = olds'.lookup "output" := houtput
  rw [ofValue_dictionary hsorted, ofValue_dictionary hsorted', hevaluation, houtput]

/-- Where the sections are dictionaries, only their known fields are read. -/
theorem Config.ofValue_congr_fields (h : Alike fieldPaths settings settings') :
    Config.ofValue settings = Config.ofValue settings' := by
  have hevaluator : ∀ olds, readEvaluator (.dictionary (only evaluatorKeys olds)) =
      readEvaluator (.dictionary olds) := fun olds => readsOnly_evaluatorEntries.read_only olds {}
  have houtput : ∀ olds, readOutput (.dictionary (only outputKeys olds)) =
      readOutput (.dictionary olds) := fun olds => readsOnly_outputEntries.read_only olds {}
  obtain ⟨hstrategy, hstrategy', -⟩ :=
    h ["evaluation", "strategy"] (evaluatorPath_mem (by decide))
  obtain ⟨hjson, hjson', -⟩ := h ["output", "json"] (outputPath_mem (by decide))
  obtain ⟨olds, rfl, hsorted⟩ := hstrategy.1 settings rfl
  obtain ⟨olds', rfl, hsorted'⟩ := hstrategy'.1 settings' rfl
  -- The fields of each section agree, and with them what is read from the section.
  have hreadEvaluator : readSection "evaluation" {} readEvaluator (olds.lookup "evaluation") =
      readSection "evaluation" {} readEvaluator (olds'.lookup "evaluation") := by
    refine readSection_congr ?empty hevaluator hstrategy.2 hstrategy'.2 ?keys
    case empty => rfl
    case keys =>
      intro key hkey
      exact (h _ (evaluatorPath_mem hkey)).2.2
  have hreadOutput : readSection "output" {} readOutput (olds.lookup "output") =
      readSection "output" {} readOutput (olds'.lookup "output") := by
    refine readSection_congr ?empty houtput hjson.2 hjson'.2 ?keys
    case empty => rfl
    case keys =>
      intro key hkey
      exact (h _ (outputPath_mem hkey)).2.2
  rw [ofValue_dictionary hsorted, ofValue_dictionary hsorted', hreadEvaluator, hreadOutput]

/-- Environments whose settings are read alike have the same configuration or problem. -/
theorem Config.ofEnvironment_congr {paths : List (List String)} {env env' : Environment}
    (hload : Option.Rel (Alike paths) (load? env) (load? env'))
    (hread : ∀ {settings settings'}, Alike paths settings settings' →
      Config.ofValue settings = Config.ofValue settings') :
    Config.ofEnvironment env = Config.ofEnvironment env' := by
  unfold Config.ofEnvironment
  generalize load? env = loaded, load? env' = loaded' at hload
  cases hload with
  | none => rfl
  | some halike => exact congrArg (·.mapError Failure.wrong) (hread halike)

/-! ## Variables without a bearing -/

/-- Why a variable has no bearing on a configuration, beside others: it is no setting, it is added
outside of the sections, or in a section that is a dictionary, it is added outside of the known
fields. -/
inductive Idle (others : Environment) (name : String) : Prop where
  | noSetting (h : path? name = none)
  | otherSection (key : String) (path : List String) (h : path? name = some (key :: path))
      (hother : key ∉ configKeys)
  | otherField (key field : String) (path : List String)
      (h : path? name = some (key :: field :: path)) (hother : [key, field] ∉ fieldPaths)
      (hbare : ∀ entry ∈ others, ∀ key ∈ configKeys, path? entry.1 ≠ some [key])

/-- Whether the text of a variable can be read, if the variable is a setting. -/
def Legible (name text : String) : Prop := path? name ≠ none → Value.ofText? text ≠ none

/-- A path is beside one that is not shorter and does not start with it. -/
theorem beside_of_not_prefix {path path' : List String} (hlength : path.length ≤ path'.length)
    (h : ¬path <+: path') : Beside path path' := by
  refine ⟨h, fun hstart => h ?_⟩
  obtain rfl := hstart.eq_of_length_le hlength
  exact List.prefix_rfl

/-- No variable is added above a section. -/
theorem not_blocks_sectionPaths (name : String) : ¬Blocks sectionPaths name := by
  rintro ⟨above, habove, path, hmem, hstart, hne⟩
  obtain ⟨key, -, rfl⟩ := List.mem_map.mp hmem
  -- Above a path of one key there is only the empty path, which no variable has.
  rcases List.prefix_cons_iff.mp hstart with rfl | ⟨rest, rfl, hrest⟩
  · exact path?_ne_nil name habove
  · rw [List.prefix_nil.mp hrest] at hne
    exact hne rfl

/-- Fields lie in sections. -/
theorem exists_of_mem_fieldPaths {path : List String} (h : path ∈ fieldPaths) :
    ∃ key ∈ configKeys, ∃ field, path = [key, field] := by
  rcases List.mem_append.mp h with h | h
  · obtain ⟨field, -, rfl⟩ := List.mem_map.mp h
    exact ⟨"evaluation", by decide, field, rfl⟩
  · obtain ⟨field, -, rfl⟩ := List.mem_map.mp h
    exact ⟨"output", by decide, field, rfl⟩

/-- A variable that is added above a field is added at its section. -/
theorem not_blocks_fieldPaths {name : String} (h : ∀ key ∈ configKeys, path? name ≠ some [key]) :
    ¬Blocks fieldPaths name := by
  rintro ⟨above, habove, path, hmem, hstart, hne⟩
  obtain ⟨key, hkey, field, rfl⟩ := exists_of_mem_fieldPaths hmem
  -- Above a path of two keys there are the empty path and that of the section.
  rcases List.prefix_cons_iff.mp hstart with rfl | ⟨rest, rfl, hrest⟩
  · exact path?_ne_nil name habove
  · rcases List.prefix_cons_iff.mp hrest with rfl | ⟨rest', rfl, hrest'⟩
    · exact h key hkey habove
    · rw [List.prefix_nil.mp hrest'] at hne
      exact hne rfl

/-- A variable that is added beside the sections changes nothing. -/
theorem Config.ofEnvironment_erase_of_aside {before after : Environment} {name text : String}
    (haside : Aside sectionPaths name text) :
    ofEnvironment (before ++ (name, text) :: after) = ofEnvironment (before ++ after) :=
  ofEnvironment_congr (load_erase haside fun entry _ => not_blocks_sectionPaths entry.1)
    ofValue_congr_sections

/-- A variable without a bearing changes neither the configuration nor the problem. -/
theorem Config.ofEnvironment_erase {before after : Environment} {name text : String}
    (hidle : Idle (before ++ after) name) (hlegible : Legible name text) :
    ofEnvironment (before ++ (name, text) :: after) = ofEnvironment (before ++ after) := by
  have hreadable : ∀ path, path? name = some path → Value.ofText? text ≠ none := by
    intro path hpath
    apply hlegible
    rw [hpath]
    exact Option.some_ne_none path
  cases hidle with
  -- What is no setting is not added at all.
  | noSetting h =>
    apply ofEnvironment_erase_of_aside
    intro path hpath
    rw [h] at hpath
    cases hpath
  -- What is added elsewhere is beside both sections.
  | otherSection key rest h hother =>
    apply ofEnvironment_erase_of_aside
    intro path hpath
    refine ⟨hreadable path hpath, ?_⟩
    intro path' hmem
    obtain ⟨key', hkey', rfl⟩ := List.mem_map.mp hmem
    rw [h] at hpath
    cases hpath
    refine beside_of_not_prefix (Nat.le_add_left 1 rest.length) ?_
    intro hstart
    exact hother ((List.cons_prefix_cons.mp hstart).1 ▸ hkey')
  | otherField key field rest h hother hbare =>
    -- Without a variable for a whole section, both sections are dictionaries.
    have haside : Aside fieldPaths name text := by
      intro path hpath
      refine ⟨hreadable path hpath, ?_⟩
      intro path' hmem
      obtain ⟨key', -, field', rfl⟩ := exists_of_mem_fieldPaths hmem
      rw [h] at hpath
      cases hpath
      refine beside_of_not_prefix (Nat.le_add_left 2 rest.length) ?_
      intro hstart
      obtain ⟨rfl, hrest⟩ := List.cons_prefix_cons.mp hstart
      obtain ⟨rfl, -⟩ := List.cons_prefix_cons.mp hrest
      exact hother hmem
    have hblocks : ∀ entry ∈ before ++ after, ¬Blocks fieldPaths entry.1 :=
      fun entry hmem => not_blocks_fieldPaths (hbare entry hmem)
    exact ofEnvironment_congr (load_erase haside hblocks) ofValue_congr_fields

/-- **A configuration depends on its own variables only, and not on their order.**  Variables
without a bearing can be added, removed and changed to any texts that can be read.  Variables of
which none is added at, above or below the place of another one can come in any order. -/
theorem Config.ofEnvironment_own :
    (∀ before after name text, Idle (before ++ after) name → Legible name text →
      ofEnvironment (before ++ (name, text) :: after) = ofEnvironment (before ++ after)) ∧
    (∀ before after name text text', Idle (before ++ after) name → Legible name text →
      Legible name text' →
      ofEnvironment (before ++ (name, text) :: after) =
        ofEnvironment (before ++ (name, text') :: after)) ∧
    ∀ env env' : Environment, env.Perm env' → env.Pairwise Apart →
      ofEnvironment env = ofEnvironment env' := by
  refine ⟨?erased, ?changed, ?ordered⟩
  case erased =>
    intro before after name text hidle hlegible
    exact ofEnvironment_erase hidle hlegible
  case changed =>
    intro before after name text text' hidle hlegible hlegible'
    -- With either text the variable can be left out.
    rw [ofEnvironment_erase hidle hlegible, ofEnvironment_erase hidle hlegible']
  case ordered =>
    intro env env' hperm hapart
    rw [ofEnvironment, ofEnvironment, load_perm hperm hapart]

/-- Only the first underscore makes a field of a section, so that a strategy of another name has no
bearing. -/
theorem strategyX_ofEnvironment :
    (Idle [("APP_OUTPUT_JSON", "true"), ("HOME", "/")] "APP_EVALUATION_STRATEGY_X" ∧
      Legible "APP_EVALUATION_STRATEGY_X" "true" ∧ Legible "APP_EVALUATION_STRATEGY_X" "[" ∧
      List.Pairwise Apart [("APP_OUTPUT_JSON", "true"), ("HOME", "/")]) ∧
    Config.ofEnvironment
        [("APP_OUTPUT_JSON", "true"), ("APP_EVALUATION_STRATEGY_X", "true"), ("HOME", "/")] =
      Config.ofEnvironment [("APP_OUTPUT_JSON", "true"), ("HOME", "/")] ∧
    Config.ofEnvironment
        [("APP_OUTPUT_JSON", "true"), ("APP_EVALUATION_STRATEGY_X", "true"), ("HOME", "/")] =
      Config.ofEnvironment
        [("APP_OUTPUT_JSON", "true"), ("APP_EVALUATION_STRATEGY_X", "["), ("HOME", "/")] ∧
    Config.ofEnvironment [("APP_OUTPUT_JSON", "true"), ("HOME", "/")] =
      Config.ofEnvironment [("HOME", "/"), ("APP_OUTPUT_JSON", "true")] := by
  have hjson : path? "APP_OUTPUT_JSON" = some ["output", "json"] := by decide
  have hhome : path? "HOME" = none := by decide
  have hpath : path? "APP_EVALUATION_STRATEGY_X" = some ["evaluation", "strategy_x"] := by decide
  have hidle : Idle [("APP_OUTPUT_JSON", "true"), ("HOME", "/")] "APP_EVALUATION_STRATEGY_X" := by
    refine .otherField "evaluation" "strategy_x" [] hpath (by decide) ?_
    intro entry hmem key _
    rcases List.mem_cons.mp hmem with rfl | hmem
    · rw [hjson]
      simp
    · rw [List.mem_singleton.mp hmem, hhome]
      exact (Option.some_ne_none _).symm
  have hlegible : Legible "APP_EVALUATION_STRATEGY_X" "true" := by
    have hvalue : Value.ofText? "true" = some (.bool true) := rfl
    intro _
    rw [hvalue]
    exact Option.some_ne_none _
  have hlegible' : Legible "APP_EVALUATION_STRATEGY_X" "[" := by
    have hvalue : Value.ofText? "[" = some (.text "[") := rfl
    intro _
    rw [hvalue]
    exact Option.some_ne_none _
  have hapart : List.Pairwise Apart [("APP_OUTPUT_JSON", "true"), ("HOME", "/")] := by
    apply List.pairwise_pair.mpr
    intro path path' _ hpath'
    rw [hhome] at hpath'
    cases hpath'
  obtain ⟨herased, hchanged, hordered⟩ := Config.ofEnvironment_own
  exact ⟨⟨hidle, hlegible, hlegible', hapart⟩,
    herased [("APP_OUTPUT_JSON", "true")] [("HOME", "/")] _ _ hidle hlegible,
    hchanged [("APP_OUTPUT_JSON", "true")] [("HOME", "/")] _ _ _ hidle hlegible hlegible',
    hordered _ _ (List.Perm.swap _ _ _) hapart⟩

/-- The path of a setting as it would be if blanks behind the prefix belonged to it. -/
def untrimmedPath? (name : String) : Option (List String) := do
  let key ← afterPrefix (trimBlank name.toList)
  let parts := splitDots (lowerCase (dotUnderscore key))
  if parts.any List.isEmpty then none else some (parts.map String.ofList)

/-- Blanks behind the prefix do not belong to a path: with them two variables would be beside each
other of which the later one counts, and a variable for a whole section would look like another one.
And a text that cannot be read shows, whatever its variable. -/
theorem Config.ofEnvironment_untrimmed :
    (untrimmedPath? "APP_OUTPUT_JSON" = some ["output", "json"] ∧
      untrimmedPath? "APP_ OUTPUT_JSON" = some [" output", "json"] ∧
      Beside ["output", "json"] [" output", "json"] ∧
      ofEnvironment [("APP_OUTPUT_JSON", "true"), ("APP_ OUTPUT_JSON", "false")] ≠
        ofEnvironment [("APP_ OUTPUT_JSON", "false"), ("APP_OUTPUT_JSON", "true")]) ∧
    (untrimmedPath? "APP_ EVALUATION" = some [" evaluation"] ∧
      untrimmedPath? "APP_EVALUATION_X" = some ["evaluation", "x"] ∧
      ofEnvironment [("APP_ EVALUATION", "x"), ("APP_EVALUATION_X", "true")] ≠
        ofEnvironment [("APP_ EVALUATION", "x")]) ∧
    untrimmedPath? "APP_UNUSED" = some ["unused"] ∧
      ofEnvironment [("APP_UNUSED", "\"日a\\n\"")] ≠ ofEnvironment [] := by
  have hjson : path? "APP_OUTPUT_JSON" = some ["output", "json"] := by decide
  have hjson' : path? "APP_ OUTPUT_JSON" = some ["output", "json"] := by decide
  have hbare : path? "APP_ EVALUATION" = some ["evaluation"] := by decide
  have hfield : path? "APP_EVALUATION_X" = some ["evaluation", "x"] := by decide
  have hunused : path? "APP_UNUSED" = some ["unused"] := by decide
  have htrue : Value.ofText? "true" = some (.bool true) := rfl
  have hfalse : Value.ofText? "false" = some (.bool false) := rfl
  have hx : Value.ofText? "x" = some (.text "x") := rfl
  have hbeside : Beside ["output", "json"] [" output", "json"] := by
    refine beside_of_not_prefix (Nat.le_refl 2) ?_
    decide
  refine ⟨⟨by decide, by decide, hbeside, ?order⟩, ⟨by decide, by decide, ?bare⟩, by decide, ?text⟩
  case order =>
    -- Both variables are added at the same place, and the later one counts.
    have hlast : ofEnvironment [("APP_OUTPUT_JSON", "true"), ("APP_ OUTPUT_JSON", "false")] =
        .ok {} := by
      rw [ofEnvironment, load?, foldlM_setting hjson htrue, foldlM_setting hjson' hfalse]
      rfl
    have hfirst : ofEnvironment [("APP_ OUTPUT_JSON", "false"), ("APP_OUTPUT_JSON", "true")] =
        .ok { output := { json := true } } := by
      rw [ofEnvironment, load?, foldlM_setting hjson' hfalse, foldlM_setting hjson htrue]
      rfl
    rw [hlast, hfirst]
    intro heq
    cases heq
  case bare =>
    -- A value that is no section is replaced by the section that is added below it.
    have hmerged : ofEnvironment [("APP_ EVALUATION", "x"), ("APP_EVALUATION_X", "true")] =
        .ok {} := by
      rw [ofEnvironment, load?, foldlM_setting hbare hx, foldlM_setting hfield htrue]
      rfl
    have halone : ofEnvironment [("APP_ EVALUATION", "x")] =
        .error (.wrong ⟨.sort (.text "x") "struct Evaluator", ["evaluation"]⟩) := by
      rw [ofEnvironment, load?, foldlM_setting hbare hx]
      rfl
    rw [hmerged, halone]
    intro heq
    cases heq
  case text =>
    have hunreadable : ofEnvironment [("APP_UNUSED", "\"日a\\n\"")] = .error .unreadable := by
      have htext : Value.ofText? "\"日a\\n\"" = none := rfl
      rw [ofEnvironment, load?, List.foldlM_cons, addVariable?_of_path?_eq_some hunused, htext]
      rfl
    have hempty : ofEnvironment [] = .ok {} := rfl
    rw [hunreadable, hempty]
    intro heq
    cases heq

end Reckoner.Settings
