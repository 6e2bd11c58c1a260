/-!
# Log lines

What a computation reports beside its result, as values.
-/

namespace Reckoner

inductive Level where
  | info
  | debug
  deriving DecidableEq

def Level.name : Level → String
  | .info => "INFO"
  | .debug => "DEBUG"

structure LogLine where
  level : Level
  message : String
  deriving DecidableEq

/-- A log line with its level in front. -/
def LogLine.text (line : LogLine) : String := line.level.name ++ " " ++ line.message

end Reckoner
