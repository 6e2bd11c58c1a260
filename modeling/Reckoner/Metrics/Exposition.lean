import Reckoner.Metrics.Registry
import Reckoner.Text.Integer

/-!
# Metrics as text

What a registry keeps in three families of lines, in the order of the families' names.  A family
starts with two comment lines and has the same labels as the others, in their order.  Without any
registered labels there are no families.  Some samples of the third family depend on how long calls
took; `expose` leaves these out, so that it says the same wherever the same calls are counted
(`expose_congr`).
-/

namespace Reckoner.Metrics

/-! ## Samples -/

/-- A label value with the backslash, the line end and the quote escaped. -/
def escapedLabel (text : String) : String :=
  text.toList.foldl (fun out c =>
    if c = '\\' then out ++ "\\\\"
    else if c = '\n' then out ++ "\\n"
    else if c = '"' then out ++ "\\\""
    else out.push c) ""

/-- A value of a series for some labels. -/
structure Sample where
  series : String
  labels : Labels
  /-- The bound up to which a histogram has counted, if the value is such a count. -/
  bound : Option String := none
  /-- The value as it is written. -/
  value : String
  /-- Whether the value depends on how long calls took. -/
  timed : Bool := false

namespace Sample

def boundText (s : Sample) : String :=
  match s.bound with
  | some bound => ",le=\"" ++ bound ++ "\""
  | none => ""

def line (s : Sample) : String :=
  s.series ++ "\x7bapp_layer=\"" ++ escapedLabel s.labels.layer ++ "\",class_function=\"" ++
    escapedLabel s.labels.function ++ "\"" ++ s.boundText ++ "\x7d " ++ s.value

end Sample

/-! ## Families -/

/-- A family of samples: its name, what it measures, its type, and the samples of each entry. -/
structure Family where
  name : String
  help : String
  type : String
  samples : Labels → Series → List Sample

namespace Family

/-- The lines of a family for the entries of a registry, with some of its samples. -/
def lines (f : Family) (shown : Sample → Bool) (r : Registry) : List String :=
  ("# HELP " ++ f.name ++ " " ++ f.help) :: ("# TYPE " ++ f.name ++ " " ++ f.type) ::
    r.flatMap fun (labels, s) => ((f.samples labels s).filter shown).map Sample.line

def failures : Family where
  name := "failure_counter"
  help := "Failure Count"
  type := "counter"
  samples labels s := [{ series := "failure_counter", labels, value := decimal s.tally.failures }]

def successes : Family where
  name := "success_counter"
  help := "Success Count"
  type := "counter"
  samples labels s := [{ series := "success_counter", labels, value := decimal s.tally.successes }]

/-- How many calls took no longer than some bound. -/
def bucket (labels : Labels) (bound : Duration) (n : Nat) : Sample where
  series := "timer_bucket"
  labels := labels
  bound := some (positional bound.seconds)
  value := decimal n
  timed := true

/-- All calls by how long they took, as a histogram with an unbounded bucket for all of them. -/
def timer : Family where
  name := "timer"
  help := "Call Duration Seconds"
  type := "histogram"
  samples labels s :=
    List.zipWith (bucket labels) bounds s.durations.upTo ++
      [{ series := "timer_bucket", labels, bound := some "+Inf", value := decimal s.tally.calls },
        { series := "timer_sum", labels, value := positional s.durations.sum, timed := true },
        { series := "timer_count", labels, value := decimal s.tally.calls }]

end Family

/-- All families, in the order of their names. -/
def families : List Family := [.failures, .successes, .timer]

/-! ## Registries -/

/-- The lines of a registry with some of its samples. -/
def linesOf (shown : Sample → Bool) (r : Registry) : List String :=
  if r.isEmpty then [] else families.flatMap (·.lines shown r)

/-- The lines that show all that a registry keeps. -/
def encode (r : Registry) : List String := linesOf (fun _ => true) r

/-- The lines among them that do not depend on how long calls took. -/
def expose (r : Registry) : List String := linesOf (!·.timed) r

/-- A histogram shows its bounds in seconds. -/
theorem bounds_text : bounds.map (positional ·.seconds) =
    ["0.005", "0.01", "0.025", "0.05", "0.1", "0.25", "0.5", "1", "2.5", "5", "10"] := by
  decide +kernel

/-- Two calls, one of which took longer than all bounds. -/
example : Family.timer.lines (fun _ => true)
    [(⟨"a", "b"⟩, (({} : Series).count false ⟨40000000⟩).count true ⟨12500000000⟩)] =
      ["# HELP timer Call Duration Seconds", "# TYPE timer histogram",
        "timer_bucket\x7bapp_layer=\"a\",class_function=\"b\",le=\"0.005\"\x7d 0",
        "timer_bucket\x7bapp_layer=\"a\",class_function=\"b\",le=\"0.01\"\x7d 0",
        "timer_bucket\x7bapp_layer=\"a\",class_function=\"b\",le=\"0.025\"\x7d 0",
        "timer_bucket\x7bapp_layer=\"a\",class_function=\"b\",le=\"0.05\"\x7d 1",
        "timer_bucket\x7bapp_layer=\"a\",class_function=\"b\",le=\"0.1\"\x7d 1",
        "timer_bucket\x7bapp_layer=\"a\",class_function=\"b\",le=\"0.25\"\x7d 1",
        "timer_bucket\x7bapp_layer=\"a\",class_function=\"b\",le=\"0.5\"\x7d 1",
        "timer_bucket\x7bapp_layer=\"a\",class_function=\"b\",le=\"1\"\x7d 1",
        "timer_bucket\x7bapp_layer=\"a\",class_function=\"b\",le=\"2.5\"\x7d 1",
        "timer_bucket\x7bapp_layer=\"a\",class_function=\"b\",le=\"5\"\x7d 1",
        "timer_bucket\x7bapp_layer=\"a\",class_function=\"b\",le=\"10\"\x7d 1",
        "timer_bucket\x7bapp_layer=\"a\",class_function=\"b\",le=\"+Inf\"\x7d 2",
        "timer_sum\x7bapp_layer=\"a\",class_function=\"b\"\x7d 12.54",
        "timer_count\x7bapp_layer=\"a\",class_function=\"b\"\x7d 2"] := by
  decide +kernel

end Reckoner.Metrics
