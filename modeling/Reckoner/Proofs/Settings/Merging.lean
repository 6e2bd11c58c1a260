import Reckoner.Settings.Value

/-!
# Merged settings

What is at a path of keys is a value or nothing, and a value that is added at a path is merged with
what is there (`Value.added`).  A path is not touched by what is added beside it
(`Value.at?_added_beside`), and what is added below it is merged with what was there
(`Value.at?_added_below`).  Two values that are added beside each other can be added in either order
(`Value.added_comm`).

This rests on the order of the entries of a dictionary.  Dictionaries in which each key stands once
and in its place are told by what their keys have (`Value.Sorted.ext`), and paths lead through such
dictionaries only, as long as nothing was added at a place on their way (`Value.Leads.added`).
-/

namespace Reckoner.Settings.Value

/-! ## Dictionaries -/

/-- Entries in the order of their keys, each key once. -/
def Sorted (entries : List (String × Value)) : Prop := entries.Pairwise (·.1 < ·.1)

/-- The first entry hides what is behind it under the same key. -/
theorem lookup_cons (key k : String) (value : Value) (entries : List (String × Value)) :
    ((key, value) :: entries).lookup k = if k = key then some value else entries.lookup k := by
  rw [List.lookup_cons]
  by_cases hk : k = key
  · rw [if_pos hk, beq_iff_eq.mpr hk]
  · rw [if_neg hk, beq_eq_false_iff_ne.mpr hk]

/-- A key in front of all keys has nothing. -/
theorem lookup_eq_none_of_lt {key : String} {entries : List (String × Value)}
    (h : ∀ entry ∈ entries, key < entry.1) : entries.lookup key = none := by
  rw [List.lookup_eq_none_iff]
  intro entry hentry
  rw [bne_iff_ne]
  intro heq
  exact String.lt_irrefl key (heq ▸ h entry hentry)

/-- An entry that is put has its key; what other keys have stays. -/
theorem lookup_put (key k : String) (value : Value) (entries : List (String × Value)) :
    (put key value entries).lookup k = if k = key then some value else entries.lookup k := by
  induction entries with
  | nil => exact lookup_cons key k value []
  | cons entry rest ih =>
    obtain ⟨key', value'⟩ := entry
    unfold put
    split
    -- The entry takes the place of the one with its key.
    next hkey =>
      rw [lookup_cons, lookup_cons, hkey]
      split <;> rfl
    next hkey =>
      split
      · -- It goes in front of an entry with a greater key.
        rw [lookup_cons]
      · -- It goes further back, and the first entry stays.
        rw [lookup_cons, lookup_cons, ih]
        split
        next hk => rw [if_neg (hk ▸ hkey)]
        next => rfl

/-- Nothing but the entry that is put is new. -/
theorem mem_put {key : String} {value : Value} {entries : List (String × Value)}
    {entry : String × Value} (h : entry ∈ put key value entries) :
    entry = (key, value) ∨ entry ∈ entries := by
  induction entries with
  | nil => exact Or.inl (List.mem_singleton.mp h)
  | cons first rest ih =>
    unfold put at h
    split at h
    · -- The entry replaces the first one.
      rcases List.mem_cons.mp h with h | h
      · exact Or.inl h
      · exact Or.inr (List.mem_cons_of_mem _ h)
    · split at h
      · -- Or it goes in front of all.
        exact List.mem_cons.mp h
      · -- Or it belongs somewhere among the rest.
        rcases List.mem_cons.mp h with h | h
        · exact Or.inr (h ▸ List.mem_cons_self)
        · exact (ih h).imp_right (List.mem_cons_of_mem _)

namespace Sorted

theorem nil : Sorted [] := List.Pairwise.nil

/-- An entry is put where it belongs. -/
theorem put {entries : List (String × Value)} (h : Sorted entries) (key : String) (value : Value) :
    Sorted (Value.put key value entries) := by
  induction entries with
  | nil => exact List.pairwise_singleton _ _
  | cons entry rest ih =>
    obtain ⟨hfirst, hrest⟩ := List.pairwise_cons.mp h
    unfold Value.put
    split
    -- The key stays the same, and with it the order.
    next hkey => exact List.pairwise_cons.mpr ⟨hkey ▸ hfirst, hrest⟩
    next hkey =>
      split
      -- The entry goes to the front, as its key is smaller than the first one.
      next hlt =>
        refine List.pairwise_cons.mpr ⟨?_, h⟩
        intro other hother
        rcases List.mem_cons.mp hother with rfl | hother
        · exact hlt
        · exact String.lt_trans hlt (hfirst other hother)
      next hlt =>
        refine List.pairwise_cons.mpr ⟨?_, ih hrest⟩
        intro other hother
        -- A key that is neither equal nor smaller is greater than the first one.
        rcases mem_put hother with rfl | hother
        · rcases Std.lt_trichotomy entry.1 key with hkeys | hkeys | hkeys
          · exact hkeys
          · exact absurd hkeys hkey
          · exact absurd hkeys hlt
        · exact hfirst other hother

theorem filter {entries : List (String × Value)} (h : Sorted entries)
    (keep : String × Value → Bool) : Sorted (entries.filter keep) :=
  List.Pairwise.filter keep h

/-- Sorted entries are told by what their keys have. -/
theorem ext {entries entries' : List (String × Value)} (h : Sorted entries) (h' : Sorted entries')
    (hlookup : ∀ key, entries.lookup key = entries'.lookup key) : entries = entries' := by
  induction entries generalizing entries' with
  | nil =>
    cases entries' with
    | nil => rfl
    | cons entry' rest' =>
      -- The key of an entry has something, unlike on the side without entries.
      have hfirst := hlookup entry'.1
      rw [lookup_cons, if_pos rfl] at hfirst
      cases hfirst
  | cons entry rest ih =>
    obtain ⟨key, value⟩ := entry
    obtain ⟨hfirst, hrest⟩ := List.pairwise_cons.mp h
    cases entries' with
    | nil =>
      have hfirst := hlookup key
      rw [lookup_cons, if_pos rfl] at hfirst
      cases hfirst
    | cons entry' rest' =>
      obtain ⟨key', value'⟩ := entry'
      obtain ⟨hfirst', hrest'⟩ := List.pairwise_cons.mp h'
      -- The smaller of two different first keys would have nothing on the other side.
      rcases Std.lt_trichotomy key key' with hkeys | rfl | hkeys
      · have hnone : ((key', value') :: rest').lookup key = none := by
          apply lookup_eq_none_of_lt
          refine List.forall_mem_cons.mpr ⟨hkeys, ?_⟩
          intro other hother
          exact String.lt_trans hkeys (hfirst' other hother)
        rw [← hlookup, lookup_cons, if_pos rfl] at hnone
        cases hnone
      · -- The first keys agree, and so do their values; behind them the keys have what they had.
        have hvalue := hlookup key
        rw [lookup_cons, lookup_cons, if_pos rfl, if_pos rfl, Option.some.injEq] at hvalue
        rw [hvalue]
        congr 1
        apply ih hrest hrest'
        intro k
        by_cases hk : k = key
        · rw [hk, lookup_eq_none_of_lt hfirst, lookup_eq_none_of_lt hfirst']
        · have hother := hlookup k
          rwa [lookup_cons, lookup_cons, if_neg hk, if_neg hk] at hother
      · have hnone : ((key, value) :: rest).lookup key' = none := by
          apply lookup_eq_none_of_lt
          refine List.forall_mem_cons.mpr ⟨hkeys, ?_⟩
          intro other hother
          exact String.lt_trans hkeys (hfirst other hother)
        rw [hlookup, lookup_cons, if_pos rfl] at hnone
        cases hnone

/-- Of two entries with the same key the later one counts. -/
theorem put_put {entries : List (String × Value)} (h : Sorted entries) (key : String)
    (value value' : Value) :
    Value.put key value' (Value.put key value entries) = Value.put key value' entries := by
  apply ((h.put _ _).put _ _).ext (h.put _ _)
  intro k
  simp only [lookup_put]
  split <;> rfl

/-- Entries with different keys can be put in either order. -/
theorem put_comm {entries : List (String × Value)} (h : Sorted entries) {key key' : String}
    (hne : key ≠ key') (value value' : Value) :
    Value.put key' value' (Value.put key value entries) =
      Value.put key value (Value.put key' value' entries) := by
  apply ((h.put _ _).put _ _).ext ((h.put _ _).put _ _)
  intro k
  simp only [lookup_put]
  by_cases hk : k = key
  · rw [hk, if_neg hne, if_pos rfl, if_pos rfl]
  · rw [if_neg hk, if_neg hk]

end Sorted

/-! ## Paths -/

/-- The entries of what is at a place; none unless it is a dictionary. -/
def entries : Option Value → List (String × Value)
  | some (.dictionary entries) => entries
  | _ => []

theorem entries_dictionary (olds : List (String × Value)) :
    entries (some (.dictionary olds)) = olds := rfl

/-- What is at a path below a place. -/
def at? (place : Option Value) : List String → Option Value
  | [] => place
  | key :: path => at? ((entries place).lookup key) path

/-- What is at a place after a value has been added at a path below it. -/
def added (place : Option Value) (value : Value) (path : List String) : Value :=
  match place with
  | some old => old.merge (nest value path)
  | none => nest value path

/-- A value that is added below a key is added to what the key has, and nothing else changes. -/
theorem added_cons (place : Option Value) (value : Value) (key : String) (path : List String) :
    added place value (key :: path) =
      .dictionary (put key (added ((entries place).lookup key) value path) (entries place)) := by
  cases place with
  | none => rfl
  | some old =>
    -- What is at the place is merged with if it is a dictionary, and replaced by one if it is not.
    cases old with
    | dictionary olds =>
      rw [added, nest, merge, mergeEntries, mergeEntries]
      rfl
    | _ => rfl

/-- Whether one path starts like another one and goes on. -/
def Below (path above : List String) : Prop := above <+: path ∧ above ≠ path

/-- Whether neither of two paths starts with the other one. -/
def Beside (path path' : List String) : Prop := ¬path <+: path' ∧ ¬path' <+: path

theorem Beside.symm {path path' : List String} (h : Beside path path') : Beside path' path :=
  ⟨h.2, h.1⟩

/-- Paths that start with the same key part behind it. -/
theorem Beside.of_cons {key : String} {path path' : List String}
    (h : Beside (key :: path) (key :: path')) : Beside path path' := by
  constructor
  · intro hstart
    exact h.1 (List.cons_prefix_cons.mpr ⟨rfl, hstart⟩)
  · intro hstart
    exact h.2 (List.cons_prefix_cons.mpr ⟨rfl, hstart⟩)

/-- What is added beside a path does not touch it. -/
theorem at?_added_beside {path path' : List String} (h : Beside path path') (place : Option Value)
    (value : Value) : at? (some (added place value path')) path = at? place path := by
  induction path generalizing path' place with
  | nil => exact absurd List.nil_prefix h.1
  | cons key path ih =>
    cases path' with
    | nil => exact absurd List.nil_prefix h.2
    | cons key' path' =>
      -- Both paths go on below the same key, or the addition is made under another one.
      rw [added_cons, at?, at?, entries_dictionary, lookup_put]
      by_cases hkey : key = key'
      · subst hkey
        rw [if_pos rfl, ih h.of_cons]
      · rw [if_neg hkey]

/-- What is added below a path is merged with what is there. -/
theorem at?_added_below (path rest : List String) (place : Option Value) (value : Value) :
    at? (some (added place value (path ++ rest))) path =
      some (added (at? place path) value rest) := by
  induction path generalizing place with
  | nil => rfl
  | cons key path ih =>
    rw [List.cons_append, added_cons, at?, at?, entries_dictionary, lookup_put, if_pos rfl, ih]

/-- Whether a path leads through nothing but sorted dictionaries, as far as it goes. -/
def Leads (place : Option Value) : List String → Prop
  | [] => True
  | key :: path =>
    (∀ value ∈ place, ∃ entries, value = .dictionary entries ∧ Sorted entries) ∧
      Leads ((entries place).lookup key) path

/-- Where a path goes on there are sorted entries, or none. -/
theorem Leads.sorted {place : Option Value} {key : String} {path : List String}
    (h : Leads place (key :: path)) : Sorted (entries place) := by
  cases place with
  | none => exact Sorted.nil
  | some value =>
    obtain ⟨entries, rfl, hsorted⟩ := h.1 value rfl
    exact hsorted

/-- Where nothing is, no path is in the way. -/
theorem leads_none (path : List String) : Leads none path := by
  induction path with
  | nil => trivial
  | cons key path ih => exact ⟨fun _ hvalue => (nomatch hvalue), ih⟩

/-- Nor is it in an empty dictionary. -/
theorem leads_empty (path : List String) : Leads (some (.dictionary [])) path := by
  cases path with
  | nil => trivial
  | cons key path =>
    refine ⟨?_, leads_none path⟩
    rintro _ ⟨⟩
    exact ⟨[], rfl, Sorted.nil⟩

/-- A path still leads through dictionaries unless something was added on its way. -/
theorem Leads.added {place : Option Value} {path path' : List String} (h : Leads place path)
    (hbelow : ¬Below path path') (value : Value) :
    Leads (some (Value.added place value path')) path := by
  induction path generalizing path' place with
  | nil => trivial
  | cons key path ih =>
    cases path' with
    | nil => exact absurd ⟨List.nil_prefix, List.cons_ne_nil key path ∘ Eq.symm⟩ hbelow
    | cons key' path' =>
      rw [added_cons]
      constructor
      · rintro _ ⟨⟩
        exact ⟨_, rfl, h.sorted.put _ _⟩
      · rw [entries_dictionary, lookup_put]
        by_cases hkey : key = key'
        · subst hkey
          rw [if_pos rfl]
          apply ih h.2
          rintro ⟨hstart, hne⟩
          exact hbelow ⟨List.cons_prefix_cons.mpr ⟨rfl, hstart⟩, hne ∘ List.tail_eq_of_cons_eq⟩
        · rw [if_neg hkey]
          exact h.2

/-- Values that are added beside each other can be added in either order. -/
theorem added_comm {place : Option Value} {path path' : List String} (h : Leads place path)
    (hbeside : Beside path path') (value value' : Value) :
    added (some (added place value path)) value' path' =
      added (some (added place value' path')) value path := by
  induction path generalizing path' place with
  | nil => exact absurd List.nil_prefix hbeside.1
  | cons key path ih =>
    cases path' with
    | nil => exact absurd List.nil_prefix hbeside.2
    | cons key' path' =>
      simp only [added_cons, entries_dictionary, lookup_put]
      by_cases hkey : key = key'
      · -- What was added first is merged with at the same key, and only the last entry remains.
        subst hkey
        simp only [if_true, h.sorted.put_put, ih h.2 hbeside.of_cons]
      · -- Under different keys the additions do not meet.
        simp only [if_neg hkey, if_neg (Ne.symm hkey), h.sorted.put_comm hkey]

end Reckoner.Settings.Value
