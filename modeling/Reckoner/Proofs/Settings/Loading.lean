import Reckoner.Proofs.Settings.Merging
import Reckoner.Settings.Environment

/-!
# Loaded settings

What a variable does to settings depends on the path that its name gives and on what is there.
Settings that are alike on some paths stay so through any environment, as long as no variable is
added above one of these paths (`load_alike`), and a variable that is added beside all of them does
not show (`load_erase`).  Variables that are added beside each other can come in any order
(`load_perm`).
-/

namespace Reckoner.Settings

open Value (Below Beside Leads at? added)

/-! ## Paths of names -/

theorem splitDots_ne_nil (cs : List Char) : splitDots cs ≠ [] := by
  cases cs with
  | nil => exact List.cons_ne_nil _ _
  | cons c cs =>
    unfold splitDots
    split
    · exact List.cons_ne_nil _ _
    · split <;> exact List.cons_ne_nil _ _

/-- A setting has at least one key. -/
theorem path?_ne_nil (name : String) : path? name ≠ some [] := by
  intro h
  obtain ⟨key, -, hparts⟩ := Option.bind_eq_some_iff.mp h
  dsimp only at hparts
  split at hparts
  · cases hparts
  · exact splitDots_ne_nil _ (List.map_eq_nil_iff.mp (Option.some.inj hparts))

/-- Adding a variable that is no setting changes nothing. -/
theorem addVariable?_of_path?_eq_none {name : String} (h : path? name = none) (settings : Value)
    (text : String) : addVariable? settings (name, text) = some settings := by
  rw [addVariable?, h]

/-- A setting is added at its path. -/
theorem addVariable?_of_path?_eq_some {name : String} {path : List String}
    (h : path? name = some path) (settings : Value) (text : String) :
    addVariable? settings (name, text) =
      (Value.ofText? text).map fun value => added (some settings) value path := by
  rw [addVariable?, h]
  rfl

/-- A setting whose text can be read is added before the others. -/
theorem foldlM_setting {name text : String} {path : List String} {value : Value}
    (hpath : path? name = some path) (htext : Value.ofText? text = some value) (env : Environment)
    (settings : Value) :
    List.foldlM addVariable? settings ((name, text) :: env) =
      env.foldlM addVariable? (added (some settings) value path) := by
  rw [List.foldlM_cons, addVariable?_of_path?_eq_some hpath, htext]
  rfl

/-! ## Settings that are alike -/

/-- Whether settings have the same at some paths, which lead through dictionaries in both. -/
def Alike (paths : List (List String)) (settings settings' : Value) : Prop :=
  ∀ path ∈ paths, Leads (some settings) path ∧ Leads (some settings') path ∧
    at? (some settings) path = at? (some settings') path

/-- Whether a variable is added at a place on the way to one of some paths. -/
def Blocks (paths : List (List String)) (name : String) : Prop :=
  ∃ above, path? name = some above ∧ ∃ path ∈ paths, Below path above

variable {paths : List (List String)} {settings settings' : Value}

/-- What is at a path after an addition depends on what was there, unless it is made above. -/
theorem at?_added_congr {place place' : Option Value} {path path' : List String}
    (hbelow : ¬Below path path') (h : at? place path = at? place' path) (value : Value) :
    at? (some (added place value path')) path = at? (some (added place' value path')) path := by
  -- An addition that is not above the path is at it, below it or beside it.
  by_cases hstart : path <+: path'
  · obtain ⟨rest, rfl⟩ := hstart
    rw [Value.at?_added_below, Value.at?_added_below, h]
  · have hbeside : Beside path path' := by
      refine ⟨hstart, fun hstart' => hbelow ⟨hstart', ?_⟩⟩
      rintro rfl
      exact hstart hstart'
    rw [Value.at?_added_beside hbeside, Value.at?_added_beside hbeside, h]

theorem addVariable?_alike (h : Alike paths settings settings') {entry : String × String}
    (hblocks : ¬Blocks paths entry.1) :
    Option.Rel (Alike paths) (addVariable? settings entry) (addVariable? settings' entry) := by
  obtain ⟨name, text⟩ := entry
  cases hpath : path? name with
  | none =>
    rw [addVariable?_of_path?_eq_none hpath, addVariable?_of_path?_eq_none hpath]
    exact .some h
  | some path' =>
    rw [addVariable?_of_path?_eq_some hpath, addVariable?_of_path?_eq_some hpath]
    cases Value.ofText? text with
    | none => exact .none
    | some value =>
      apply Option.Rel.some
      intro path hmem
      -- The addition leaves the way to the path open and puts the same there on both sides.
      obtain ⟨hleads, hleads', hat⟩ := h path hmem
      have hbelow : ¬Below path path' := fun hbelow => hblocks ⟨path', hpath, path, hmem, hbelow⟩
      exact ⟨hleads.added hbelow value, hleads'.added hbelow value,
        at?_added_congr hbelow hat value⟩

/-- Settings that are alike stay so through an environment. -/
theorem load_alike {env : Environment} (h : Alike paths settings settings')
    (hblocks : ∀ entry ∈ env, ¬Blocks paths entry.1) :
    Option.Rel (Alike paths) (env.foldlM addVariable? settings)
      (env.foldlM addVariable? settings') := by
  induction env generalizing settings settings' with
  | nil => exact .some h
  | cons entry env ih =>
    obtain ⟨hentry, hblocks⟩ := List.forall_mem_cons.mp hblocks
    have hstep := addVariable?_alike h hentry
    rw [List.foldlM_cons, List.foldlM_cons]
    generalize addVariable? settings entry = loaded, addVariable? settings' entry = loaded'
      at hstep
    -- Either both settings fail to load, or both go on alike.
    cases hstep with
    | none => exact .none
    | some halike => exact ih halike hblocks

theorem alike_empty (paths : List (List String)) :
    Alike paths (.dictionary []) (.dictionary []) := by
  intro path _
  exact ⟨Value.leads_empty path, Value.leads_empty path, rfl⟩

/-! ## Variables that do not show -/

/-- Whether a variable is added beside some paths, with a text that can be read, if it is a setting
at all. -/
def Aside (paths : List (List String)) (name text : String) : Prop :=
  ∀ path', path? name = some path' →
    Value.ofText? text ≠ none ∧ ∀ path ∈ paths, Beside path path'

theorem addVariable?_aside (h : Alike paths settings settings) {name text : String}
    (haside : Aside paths name text) :
    ∃ settings', addVariable? settings (name, text) = some settings' ∧
      Alike paths settings' settings := by
  cases hpath : path? name with
  | none => exact ⟨settings, addVariable?_of_path?_eq_none hpath settings text, h⟩
  | some path' =>
    obtain ⟨hreadable, hbeside⟩ := haside path' hpath
    obtain ⟨value, hvalue⟩ := Option.ne_none_iff_exists'.mp hreadable
    refine ⟨added (some settings) value path', ?_, ?_⟩
    · rw [addVariable?_of_path?_eq_some hpath, hvalue, Option.map_some]
    · intro path hmem
      obtain ⟨hleads, -, -⟩ := h path hmem
      have hbelow : ¬Below path path' := fun hbelow => (hbeside path hmem).2 hbelow.1
      exact ⟨hleads.added hbelow value, hleads,
        Value.at?_added_beside (hbeside path hmem) _ value⟩

/-- A variable that is added beside some paths does not show there. -/
theorem load_erase {before after : Environment} {name text : String}
    (haside : Aside paths name text) (hblocks : ∀ entry ∈ before ++ after, ¬Blocks paths entry.1) :
    Option.Rel (Alike paths) (load? (before ++ (name, text) :: after))
      (load? (before ++ after)) := by
  rw [List.forall_mem_append] at hblocks
  have hbefore := load_alike (alike_empty paths) hblocks.1
  simp only [load?, List.foldlM_append, List.foldlM_cons]
  -- If the variables before cannot be loaded, the one in question does not matter.
  cases hloaded : before.foldlM addVariable? (.dictionary []) with
  | none => exact .none
  | some settings =>
    rw [hloaded] at hbefore
    cases hbefore with
    | some halike =>
      obtain ⟨settings', hadded, halike'⟩ := addVariable?_aside halike haside
      simp only [Option.bind_eq_bind, Option.bind_some, hadded]
      exact load_alike halike' hblocks.2

/-! ## The order of variables -/

/-- Whether two variables are added beside each other, if both are settings. -/
def Apart (entry entry' : String × String) : Prop :=
  ∀ path path', path? entry.1 = some path → path? entry'.1 = some path' → Beside path path'

theorem Apart.symm {entry entry' : String × String} (h : Apart entry entry') :
    Apart entry' entry :=
  fun path path' hpath hpath' => (h path' path hpath' hpath).symm

/-- Whether the paths of some variables lead through dictionaries. -/
def Open (settings : Value) (env : Environment) : Prop :=
  ∀ entry ∈ env, ∀ path, path? entry.1 = some path → Leads (some settings) path

/-- Adding a variable leaves the paths of variables that are apart from it open. -/
theorem Open.added {env : Environment} {entry : String × String} (h : Open settings env)
    (hapart : ∀ entry' ∈ env, Apart entry entry')
    (hadded : addVariable? settings entry = some settings') : Open settings' env := by
  obtain ⟨name, text⟩ := entry
  intro entry' hmem path' hpath'
  cases hpath : path? name with
  | none =>
    rw [addVariable?_of_path?_eq_none hpath] at hadded
    cases hadded
    exact h entry' hmem path' hpath'
  | some path =>
    rw [addVariable?_of_path?_eq_some hpath] at hadded
    obtain ⟨value, -, rfl⟩ := Option.map_eq_some_iff.mp hadded
    apply (h entry' hmem path' hpath').added
    rintro ⟨hstart, -⟩
    exact (hapart entry' hmem path path' hpath hpath').1 hstart

/-- Variables that are apart can be added in either order. -/
theorem addVariable?_comm {entry entry' : String × String} (hapart : Apart entry entry')
    (hleads : ∀ path, path? entry.1 = some path → Leads (some settings) path) :
    ((addVariable? settings entry).bind fun settings => addVariable? settings entry') =
      (addVariable? settings entry').bind fun settings => addVariable? settings entry := by
  obtain ⟨name, text⟩ := entry
  obtain ⟨name', text'⟩ := entry'
  cases hpath : path? name with
  | none =>
    simp only [addVariable?_of_path?_eq_none hpath, Option.bind_some, Option.bind_fun_some]
  | some path =>
    cases hpath' : path? name' with
    | none =>
      simp only [addVariable?_of_path?_eq_none hpath', Option.bind_some, Option.bind_fun_some]
    | some path' =>
      simp only [addVariable?_of_path?_eq_some hpath, addVariable?_of_path?_eq_some hpath']
      -- A text that cannot be read stops loading, whenever it comes.
      cases Value.ofText? text with
      | none => cases Value.ofText? text' <;> rfl
      | some value =>
        cases Value.ofText? text' with
        | none => rfl
        | some value' =>
          simp only [Option.map_some, Option.bind_some,
            Value.added_comm (hleads path hpath) (hapart path path' hpath hpath')]

theorem foldlM_perm {env env' : Environment} (hperm : env.Perm env') (hapart : env.Pairwise Apart)
    (hopen : Open settings env) :
    env.foldlM addVariable? settings = env'.foldlM addVariable? settings := by
  -- The settings change on the way, and the paths of what is still to come stay open.
  induction hperm generalizing settings with
  | nil => rfl
  | @cons entry env env' _ ih =>
    obtain ⟨hentry, hapart⟩ := List.pairwise_cons.mp hapart
    rw [List.foldlM_cons, List.foldlM_cons]
    cases hadded : addVariable? settings entry with
    | none => rfl
    | some settings' =>
      apply ih hapart
      apply Open.added _ hentry hadded
      intro entry' hmem
      exact hopen entry' (List.mem_cons_of_mem _ hmem)
  | swap entry entry' env =>
    -- Two neighbours are exchanged, and the rest follows from the same settings.
    have hswap : Apart entry' entry := (List.pairwise_cons.mp hapart).1 entry List.mem_cons_self
    have hcomm := addVariable?_comm hswap (hopen entry' List.mem_cons_self)
    simp only [List.foldlM_cons, Option.bind_eq_bind, ← Option.bind_assoc]
    rw [hcomm]
  | trans hperm hperm' ih ih' =>
    rw [ih hapart hopen]
    apply ih' ((hperm.pairwise_iff Apart.symm).mp hapart)
    intro entry hmem
    exact hopen entry (hperm.mem_iff.mpr hmem)

/-- Variables that are apart from each other can come in any order. -/
theorem load_perm {env env' : Environment} (hperm : env.Perm env') (hapart : env.Pairwise Apart) :
    load? env = load? env' :=
  foldlM_perm hperm hapart fun _ _ path _ => Value.leads_empty path

end Reckoner.Settings
