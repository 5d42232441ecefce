import DeviceProtocol.Fault
set_option autoImplicit false

namespace DeviceProtocol

inductive LogLevel where
  | debug
  | warning
  | error
  deriving DecidableEq, Repr

def LogLevel.name : LogLevel → String
  | .debug => "DEBUG"
  | .warning => "WARNING"
  | .error => "ERROR"

inductive LogEvent where
  | error (entry : ReportEntry)
  | warning (message : String)
  | trace (message : String)
  deriving DecidableEq, Repr

namespace ReportEntry

/-- The entry as one line. A line without a file is no place. -/
def text (e : ReportEntry) : String :=
  match e.file, e.line with
  | none, _ | some [], _ => e.message
  | some file, some line => s!"'{file.str}' line {line}: {e.message}"
  | some file, none => s!"'{file.str}': {e.message}"

end ReportEntry

namespace LogEvent

def level : LogEvent → LogLevel
  | error _ => .error
  | warning _ => .warning
  | trace _ => .debug

def text : LogEvent → String
  | error entry => entry.text
  | warning message => message
  | trace message => message

/-- The entries of a fault. Other failures are not reported. -/
def ofFailure : Failure → List LogEvent
  | .fault f => f.entries.map error
  | _ => []

end LogEvent

/-- Where events go. -/
inductive LogSink where
  | collected
  | own
  | common
  deriving DecidableEq, Repr

def LogSink.accepts : LogSink → LogEvent → Bool
  | .common, .trace _ => false
  | .common, _ => true
  | _, .warning _ => false
  | _, _ => true

end DeviceProtocol
