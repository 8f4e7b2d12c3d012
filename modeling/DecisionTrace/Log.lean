/-!
# Log records

What a computation has to say beside its result. Records are part of what functions return; the
outer layer decides where they go and which levels are shown.
-/

namespace DecisionTrace

/-- The part of the library that speaks. -/
inductive LogChannel where
  | reading
  | search
  | replay
  | collection
  | generation
  | command
deriving DecidableEq, Repr

/-- The weight of a record, lightest first. -/
inductive LogLevel where
  | debug
  | info
  | warning
  | error
deriving DecidableEq, Repr

/-- The name of a level. -/
def LogLevel.label : LogLevel → String
  | .debug => "DEBUG"
  | .info => "INFO"
  | .warning => "WARNING"
  | .error => "ERROR"

/-- A message of some weight from some part of the library. -/
structure LogRecord where
  channel : LogChannel
  level : LogLevel
  text : String
deriving DecidableEq, Repr

/-- The line of a record on a console. -/
def LogRecord.line (r : LogRecord) : String :=
  r.level.label ++ ": " ++ r.text ++ "\n"

end DecisionTrace
