import Reckoner.Calculator.Run
import Reckoner.Text.Utf8

/-!
# The program

Reads the environment of the process, prints the report, and exits with its code.
-/

namespace Reckoner

/-! ## The environment -/

/-- The entries of a block of environment variables, each of which ends with a null byte. -/
def splitEntries (block : List UInt8) : List (List UInt8) :=
  block.foldr (fun b entries =>
    if b = 0 then [] :: entries
    else
      match entries with
      | [] => [[b]]
      | entry :: entries => (b :: entry) :: entries) []

/-- The name and the text of an entry, which are separated by the first equals sign behind the
first byte.  Bytes that are no text are replaced in this entry alone. -/
def splitEntry? : List UInt8 → Option (String × String)
  | [] => none
  | b :: rest =>
    match rest.dropWhile (· ≠ 0x3D) with
    | [] => none
    | _ :: text => some (Utf8.decode (b :: rest.takeWhile (· ≠ 0x3D)), Utf8.decode text)

def readEnvironment : IO Settings.Environment := do
  let block ← IO.FS.readBinFile "/proc/self/environ"
  return .ofList ((splitEntries block.toList).filterMap splitEntry?)

/-! ## The clock -/

/-- How long it takes to compute something. -/
def timed {α : Type} (compute : Unit → α) : IO Metrics.Duration := do
  let start ← IO.monoNanosNow
  let _ ← IO.lazyPure compute
  let stop ← IO.monoNanosNow
  return ⟨stop - start⟩

/-- Makes the calls of the report once beforehand for the time that they take, as what is computed
cannot look at the clock. -/
def rehearse (env : Settings.Environment) : IO Calculator.Timing := do
  match Settings.Config.ofEnvironment env with
  | .error _ => return {}
  | .ok config =>
    let rendering ← timed fun _ => Calculator.sample.render
    let evaluating ← timed fun _ => config.evaluation.evaluate Calculator.sample
    return ⟨rendering, evaluating⟩

end Reckoner

def main : IO UInt32 := do
  let env ← Reckoner.readEnvironment
  let exit := Reckoner.Calculator.execute env (← Reckoner.rehearse env)
  IO.print exit.output
  return exit.code
