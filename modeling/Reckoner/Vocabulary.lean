/-!
# Vocabularies

Values that are chosen by a word, in the order in which messages list the words.
-/

namespace Reckoner

/-- Words and the values that they choose. -/
abbrev Vocabulary (α : Type) := List (String × α)

namespace Vocabulary

variable {α : Type}

/-- The vocabulary of some values, each under its own name. -/
def ofNames (values : List α) (name : α → String) : Vocabulary α :=
  values.map fun a => (name a, a)

def words (v : Vocabulary α) : List String := v.map (·.1)

/-- The value that a word chooses. -/
def find? (v : Vocabulary α) (word : String) : Option α := v.lookup word

def at? (v : Vocabulary α) (n : Nat) : Option α := (v[n]?).map (·.2)

end Vocabulary

/-- A choice of words as messages list it. -/
def alternatives (words : List String) : String :=
  match words.map fun word => "`" ++ word ++ "`" with
  | [a] => a
  | [a, b] => a ++ " or " ++ b
  | all => "one of " ++ ", ".intercalate all

end Reckoner
