import Inference.Diagnostic
import Inference.Handle

/-!
# Inference.Check.Problem

What can be wrong with a judgment. A fault says what, in the names the program uses; a problem is
a fault with the line and column it is found at.

* `Problem.message`, `Problem.severity`, `Problem.diagnostic`: how a problem is told.
-/

namespace Inference

inductive Fault where
  | unknownJudgment (id : JudgmentId)
  | unknownProduction (id : ProductionId)
  | missingProduction (judgment : String)
  /-- The production of the judgment names another judgment. -/
  | foreignProduction (judgment : String)
  | unknownCategory (name : String) (category : CategoryId)
  | assumptionNotInForm (judgment name : String)
  /-- The conclusion of a rule is not an instance of the judgment it introduces. -/
  | conclusionMismatch (rule judgment : String)
  /-- A clause and the form of its production differ in length. -/
  | arityMismatch (clause : String) (expected actual : Nat)
  | elementMismatch (clause expected actual : String)
  /-- One name is used at two categories within a rule. -/
  | inconsistentVariable (name first second : String)
  deriving DecidableEq

namespace Fault

def message : Fault → String
  | unknownJudgment id => "Unknown judgment " ++ id.text
  | unknownProduction id => "Unknown production " ++ id.text
  | missingProduction judgment => "Judgment '" ++ judgment ++ "' has no form"
  | foreignProduction judgment =>
    "Form of judgment '" ++ judgment ++ "' belongs to another judgment"
  | unknownCategory name category =>
    "Nonterminal '" ++ name ++ "' has unknown syntax " ++ category.text
  | assumptionNotInForm judgment name =>
    "Judgment '" ++ judgment ++ "' assumes '" ++ name ++ "', which is not in its form"
  | conclusionMismatch rule judgment =>
    "Conclusion of rule '" ++ rule ++ "' is not a '" ++ judgment ++ "' clause"
  | arityMismatch clause expected actual =>
    "Clause '" ++ clause ++ "' has " ++ toString actual ++ " elements, its form has " ++
      toString expected
  | elementMismatch clause expected actual =>
    "Expected '" ++ expected ++ "', found '" ++ actual ++ "' in clause '" ++ clause ++ "'"
  | inconsistentVariable name first second =>
    "Variable '" ++ name ++ "' is used as both " ++ first ++ " and " ++ second

/-- Only a handle that leads nowhere is fatal: then the table itself is broken. -/
def severity : Fault → Severity
  | unknownJudgment _ | unknownProduction _ => .fatal
  | _ => .recoverable

end Fault

structure Problem where
  fault : Fault
  line : Nat
  column : Nat
  deriving DecidableEq

namespace Problem

/-- A fault found at a span. Of the span only line and column are kept. -/
def ofFault (fault : Fault) (span : Span) : Problem := ⟨fault, span.line, span.column⟩

def span (p : Problem) : Span := .point p.line p.column

def severity (p : Problem) : Severity := p.fault.severity

def message (p : Problem) : String :=
  p.fault.message ++ " at line " ++ toString p.line ++ ", column " ++ toString p.column

def diagnostic (p : Problem) : Diagnostic := ⟨p.message, p.span, p.severity⟩

end Problem
end Inference
