/-!
# Log entries

What the library reports while it works, as data: a level and a message.
-/

namespace ChipEight

/-- How much a log entry matters. -/
inductive LogLevel
  | debug
  | info
  | error
  deriving DecidableEq, Repr

/-- One message of a log. -/
structure LogEntry where
  /-- How much it matters. -/
  level : LogLevel
  /-- What happened. -/
  message : String
  deriving DecidableEq, Repr

end ChipEight
