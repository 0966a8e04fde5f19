/-!
# Log lines

What the service reports about its own work: a level, a message and named fields.  Logs are values
that operations return; writing them out is the caller's business.
-/

namespace Gatehouse

inductive LogLevel where
  | info | warn | error
  deriving DecidableEq, Repr

def LogLevel.name : LogLevel → String
  | .info => "INFO"
  | .warn => "WARN"
  | .error => "ERROR"

/-- One line. -/
structure LogLine where
  level : LogLevel
  message : String
  fields : List (String × String)
  /-- Whether the line begins with the time that the request took. -/
  timed : Bool := false
  deriving DecidableEq, Repr

namespace LogLine

def info (message : String) (fields : List (String × String)) : LogLine :=
  { level := .info, message, fields }

def warn (message : String) (fields : List (String × String)) : LogLine :=
  { level := .warn, message, fields }

def error (message : String) (fields : List (String × String)) : LogLine :=
  { level := .error, message, fields }

/-- The text of a line about a request that took `elapsed`, in milliseconds. -/
def text (line : LogLine) (elapsed : String) : String :=
  if line.timed then s!"{elapsed} ms {line.message}" else line.message

end LogLine

abbrev Log := List LogLine

end Gatehouse
