import Inference.Span

/-!
# Inference.Diagnostic

What the checker tells its user. Diagnostics are kept in lists, in the order they were found.
-/

namespace Inference

/-- After a recoverable problem checking goes on; after a fatal one the table itself is broken. -/
inductive Severity where
  | recoverable
  | fatal
  deriving DecidableEq

def Severity.text : Severity → String
  | .recoverable => "error"
  | .fatal => "fatal"

structure Diagnostic where
  message : String
  span : Span
  severity : Severity
  deriving DecidableEq

namespace Diagnostic

def recoverable (message : String) (span : Span) : Diagnostic := ⟨message, span, .recoverable⟩

def isFatal (d : Diagnostic) : Bool := d.severity == .fatal

def isRecoverable (d : Diagnostic) : Bool := d.severity == .recoverable

def text (d : Diagnostic) : String :=
  d.span.text ++ ": " ++ d.severity.text ++ ": " ++ d.message

end Diagnostic

def countMessage (message : String) (ds : List Diagnostic) : Nat :=
  ds.countP fun d => d.message == message

end Inference
