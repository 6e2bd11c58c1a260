import Reckoner.Metrics.Registry

/-!
# Ledgers of measures

A ledger is a registry together with the measures that have been made on it, which are referred
to by their positions.
-/

namespace Reckoner.Metrics

/-- The measures made so far and the registry that they count in. -/
structure Ledger where
  measures : Array Measure := #[]
  registry : Registry := []

namespace Ledger

/-- Makes a measure on some labels. -/
def create (layer function : String) (ledger : Ledger) : Ledger :=
  let (m, registry) := Measure.create layer function ledger.registry
  ⟨ledger.measures.push m, registry⟩

/-- Makes another measure on the labels of a measure. -/
def copy (m : Measure) (ledger : Ledger) : Ledger :=
  { ledger with measures := ledger.measures.push m }

/-- Lets a recorded call change the registry. -/
def onRegistry {α : Type} (call : Registry → α × Registry) (ledger : Ledger) : α × Ledger :=
  let (a, registry) := call ledger.registry
  (a, { ledger with registry })

def tallies (ledger : Ledger) : List Tally :=
  ledger.measures.toList.map (·.tally ledger.registry)

end Ledger

end Reckoner.Metrics
