/-!
# Faults of a text

A text that is not a JSON document either goes wrong at some character or ends too early.  Which
of the two it is can depend on what the value is wanted for: a value that is only passed over is
looked at less closely than one that is read, and where a name is wanted, the first character of
anything else is wrong already.
-/

namespace Reckoner.Json

/-- How a text fails to be a document. -/
inductive Fault where
  /-- It goes wrong at some character. -/
  | malformed
  /-- It ends too early. -/
  | truncated
  deriving DecidableEq

/-- The fault that is met when the value is read, when it is passed over, and when a name is
wanted. -/
structure Damage where
  read : Fault
  skip : Fault
  name : Fault
  deriving DecidableEq

def Damage.always (fault : Fault) : Damage := ⟨fault, fault, fault⟩

end Reckoner.Json
