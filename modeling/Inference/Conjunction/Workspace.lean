import Inference.Config.Basic
import Inference.Conjunction.Agreement
import Inference.Conjunction.Assembly
import Inference.Conjunction.Cache
import Inference.Conjunction.Registration
import Inference.Conjunction.Renaming

/-!
# Inference.Conjunction.Workspace

A declaration table together with the conjunctions that were made in it. A conjunction is made once
for each ordered list of components; asking again gives the same judgment.

* `Workspace.synthesize`: the conjunction of a list of judgments.
* `Workspace.seedTrivial`: the conjunction of no judgments, which holds trivially.
-/

namespace Inference

structure Synthesis where
  judgment : JudgmentId
  diagnostics : List Diagnostic
  /-- Whether this request made the conjunction. -/
  fresh : Bool
  deriving DecidableEq

structure Workspace where
  registry : Registry := {}
  config : Config := {}
  cache : Cache := {}
  deriving DecidableEq

namespace Registry

/-- The forms of the components. Each has to be a judgment of the table, not to occur among those
before it, and to have a form. -/
def componentForms (r : Registry) (seen : List JudgmentId) :
    List JudgmentId → Except SynthesisError (List Form)
  | [] => .ok []
  | part :: parts =>
    if r.hasJudgment part then
      if part ∈ seen then .error (.duplicateComponent part)
      else
        match r.formOf? part with
        | none => .error (.missingForm part)
        | some form =>
          match r.componentForms (part :: seen) parts with
          | .error e => .error e
          | .ok forms => .ok (form :: forms)
    else .error (.unknownJudgment part)

/-- The assumption of a conjunction: the one that its components make, under the name it goes by in
the joined form. -/
def conjoinedAssumption (a : Agreement) (renamed : Renamed) : Option Nonterminal :=
  a.assumption.map fun nt =>
    if a.context.map (·.val) = some nt.val then nt else (renamed.renamed? nt.val).getD nt

/-- The conjunction of judgments with the given forms, not yet entered into the table. The
diagnostics are those on which the judgments disagree. -/
def construct (r : Registry) (config : Config) (span : Span) (parts : List JudgmentId)
    (forms : List Form) : Construction × List Diagnostic :=
  let agreement := r.agree parts span
  let renamed := NameSupply.empty.rename r forms agreement.context span
  ({ name := r.unusedName (r.conjunctionName parts config.label)
     components := parts
     premises := renamed.components
     form := .assemble renamed.components config.separator span
     assumption := conjoinedAssumption agreement renamed
     span },
   agreement.diagnostics)

end Registry

namespace Workspace

/-- The conjunction of the components in this order. One that was made before is given again
without a word; otherwise the request is checked before anything is written. -/
def synthesize (w : Workspace) (span : Span) (parts : List JudgmentId) :
    Workspace × Except SynthesisError Synthesis :=
  match w.cache.get? parts with
  | some judgment => (w, .ok ⟨judgment, [], false⟩)
  | none =>
    match w.registry.componentForms [] parts with
    | .error e => (w, .error e)
    | .ok forms =>
      let (construction, disagreements) := w.registry.construct w.config span parts forms
      match w.registry.register construction w.config.validate with
      | (registry, .error e) => ({ w with registry }, .error e)
      | (registry, .ok (judgment, problems)) =>
        ({ w with registry, cache := (w.cache.insert parts judgment).1 },
          .ok ⟨judgment, disagreements ++ problems, true⟩)

def seedTrivial (w : Workspace) : Workspace × Except SynthesisError Synthesis :=
  w.synthesize {} []

def trivial (w : Workspace) : Workspace × Except SynthesisError JudgmentId :=
  let (w, answer) := w.seedTrivial
  (w, answer.map (·.judgment))

/-- Forgets the conjunctions. Their judgments stay in the table. -/
def clear (w : Workspace) : Workspace := { w with cache := {} }

end Workspace
end Inference
