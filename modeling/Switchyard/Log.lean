/-!
# Log lines

What the parts of the engine and the units write for its operators: the part that writes, how
serious it is, and the message.
-/

namespace Switchyard

/-- How serious a log line is. -/
inductive LogLevel
  | debug
  | info
  | warning
  | error
  deriving DecidableEq, Repr

def LogLevel.label : LogLevel → String
  | .debug => "DEBUG"
  | .info => "INFO"
  | .warning => "WARNING"
  | .error => "ERROR"

/-- One line of the log. -/
structure LogLine where
  part : String
  level : LogLevel
  message : String
  deriving DecidableEq, Repr

end Switchyard
