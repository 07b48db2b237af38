/-!
# Inference.Span

Where something stands in the checked program.
-/

namespace Inference

/-- A stretch of the program text, with the line and column it starts at. -/
structure Span where
  start : Nat := 0
  stop : Nat := 0
  line : Nat := 0
  column : Nat := 0
  deriving DecidableEq, Inhabited

namespace Span

def point (line column : Nat) : Span := { line, column }

def text (s : Span) : String := toString s.line ++ ":" ++ toString s.column

end Span
end Inference
