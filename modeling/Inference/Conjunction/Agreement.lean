import Inference.Diagnostic
import Inference.Registry.Basic

/-!
# Inference.Conjunction.Agreement

Judgments that are conjoined should speak of one context and make one assumption. The first value
seen is the one the conjunction takes; every later value that differs is told as a diagnostic.

* `Registry.agree`: the context and the assumption of a list of judgments.
-/

namespace Inference

def contextsMustAgree : String := "All contexts in a conjunction must be the same"

def assumptionsMustAgree : String := "cannot conjoin judgments with different assumptions"

structure Agreement where
  /-- The first occurrence of a context in the forms of the judgments. -/
  context : Option Nonterminal := none
  /-- The first assumption that one of the judgments makes. -/
  assumption : Option Nonterminal := none
  /-- One diagnostic for each occurrence that disagrees. -/
  diagnostics : List Diagnostic := []
  deriving DecidableEq

namespace Agreement

def holds (a : Agreement) : Bool := a.diagnostics.isEmpty

def seeContext (span : Span) (a : Agreement) (nt : Nonterminal) : Agreement :=
  match a.context with
  | none => { a with context := some nt }
  | some first =>
    if first.val = nt.val then a
    else { a with diagnostics := a.diagnostics ++ [.recoverable contextsMustAgree span] }

def seeAssumption (span : Span) (a : Agreement) (nt : Nonterminal) : Agreement :=
  match a.assumption with
  | none => { a with assumption := some nt }
  | some first =>
    if first.val = nt.val then a
    else { a with diagnostics := a.diagnostics ++ [.recoverable assumptionsMustAgree span] }

end Agreement

namespace Registry

def contextsOf (r : Registry) (id : JudgmentId) : List Nonterminal :=
  match r.formOf? id with
  | some f => r.contextsIn f
  | none => []

/-- Finds the context and the assumption that judgments share. All contexts are seen before the
first assumption. Judgments without a form have no contexts but may make an assumption; those that
are unknown are passed over. -/
def agree (r : Registry) (parts : List JudgmentId) (span : Span) : Agreement :=
  let seen := (parts.flatMap r.contextsOf).foldl (Agreement.seeContext span) {}
  (parts.filterMap r.assumptionOf?).foldl (Agreement.seeAssumption span) seen

end Registry
end Inference
