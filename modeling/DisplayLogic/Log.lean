/-!
# Log records

A record of the log is a text at one of three levels. What is worth a record is decided where it
happens; this module only says what a record is and how it is shown.
-/

namespace DisplayLogic

/-- How important a record is. -/
inductive LogLevel where
  | trace
  | debug
  | warning
deriving DecidableEq, Inhabited

namespace LogLevel

def name : LogLevel → String
  | trace => "TRACE"
  | debug => "DEBUG"
  | warning => "WARN"

end LogLevel

/-- A record of the log. -/
structure LogRecord where
  level : LogLevel
  text : String
deriving DecidableEq, Inhabited

namespace LogRecord

def line (r : LogRecord) : String := r.level.name ++ " " ++ r.text

end LogRecord

end DisplayLogic
