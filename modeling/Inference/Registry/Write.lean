import Inference.Registry.Basic

/-!
# Inference.Registry.Write

The six ways to write to the declaration table. Each gives back the table it leaves, together with
its answer: a handle, or the reason why it is refused. An entry is put on its list and, if it has a
name to be found by, into the index of its kind.

* `addCategory`, `reserve`, `define`, `assume`, `setOrigin`, `addRule`: the writes.
* `DeclarationError`: why a declaration is refused.
-/

namespace Inference

inductive DeclarationError where
  | duplicateCategory (name : String)
  | duplicateJudgment (name : String)
  | unknownCategory (id : CategoryId)
  | unknownJudgment (id : JudgmentId)
  | unknownJudgmentName (name : String)
  | unknownProduction (id : ProductionId)
  | alreadyDefined (judgment : JudgmentId)
  | missingProduction (judgment : JudgmentId)
  | unknownAssumption (word : String)
  | missingConclusion (rule : String)
  deriving DecidableEq

def DeclarationError.message : DeclarationError → String
  | duplicateCategory name => "Duplicate syntax name: " ++ name
  | duplicateJudgment name => "Duplicate judgment name: " ++ name
  | unknownCategory id => "Unknown syntax: " ++ id.text
  | unknownJudgment id => "Unknown judgment: " ++ id.text
  | unknownJudgmentName name => "Unknown judgment name: " ++ name
  | unknownProduction id => "Unknown production: " ++ id.text
  | alreadyDefined j => "Judgment " ++ j.text ++ " already has a production"
  | missingProduction j => "Judgment " ++ j.text ++ " has no production"
  | unknownAssumption word =>
    "Assumption '" ++ word ++ "' is not a nonterminal of any declared syntax"
  | missingConclusion rule => "Rule '" ++ rule ++ "' has no conclusion"

namespace Registry

/-- Changes one judgment, if there is one at the handle. -/
def modifyJudgment (r : Registry) (id : JudgmentId) (f : Judgment → Judgment) : Registry :=
  { r with judgments := r.judgments.modify id.index f }

def undeclaredIn? (r : Registry) (f : Form) : Option Nonterminal :=
  f.nonterminals.find? fun nt => (r.category? nt.val.category).isNone

def danglingIn? (r : Registry) (clauses : List Clause) : Option Clause :=
  clauses.find? fun c => (r.production? c.production).isNone

def addCategory (r : Registry) (name : String) (isContext : Bool) (span : Span) :
    Registry × Except DeclarationError CategoryId :=
  if r.categoryNames.contains name then (r, .error (.duplicateCategory name))
  else
    let category : Category := { id := ⟨r.categories.length⟩, name, isContext, span }
    ({ r with
        categoryNames := r.categoryNames.insert name category.id
        categories := r.categories ++ [category] }, .ok category.id)

/-- Adds a judgment that has no form yet. Its handle is needed before a production can name it. -/
def reserve (r : Registry) (name : String) (span : Span) :
    Registry × Except DeclarationError JudgmentId :=
  if r.judgmentNames.contains name then (r, .error (.duplicateJudgment name))
  else
    let judgment : Judgment := { id := ⟨r.judgments.length⟩, name, span }
    ({ r with
        judgmentNames := r.judgmentNames.insert name judgment.id
        judgments := r.judgments ++ [judgment] }, .ok judgment.id)

/-- Gives a judgment its form. This can be done once. -/
def define (r : Registry) (judgment : JudgmentId) (name : String) (form : Form) :
    Registry × Except DeclarationError ProductionId :=
  match r.judgment? judgment with
  | none => (r, .error (.unknownJudgment judgment))
  | some j =>
    match j.production with
    | some _ => (r, .error (.alreadyDefined judgment))
    | none =>
      match r.undeclaredIn? form with
      | some nt => (r, .error (.unknownCategory nt.val.category))
      | none =>
        let production : Production := { id := ⟨r.productions.length⟩, name, judgment, form }
        let extended : Registry := { r with productions := r.productions ++ [production] }
        (extended.modifyJudgment judgment fun j => { j with production := some production.id },
          .ok production.id)

def assume (r : Registry) (judgment : JudgmentId) (assumption : Option Nonterminal) :
    Registry × Except DeclarationError Unit :=
  match assumption.filter fun nt => (r.category? nt.val.category).isNone with
  | some nt => (r, .error (.unknownCategory nt.val.category))
  | none =>
    match r.judgment? judgment with
    | none => (r, .error (.unknownJudgment judgment))
    | some _ => (r.modifyJudgment judgment fun j => { j with assumption }, .ok ())

def setOrigin (r : Registry) (judgment : JudgmentId) (origin : Origin) :
    Registry × Except DeclarationError Unit :=
  match r.judgment? judgment with
  | none => (r, .error (.unknownJudgment judgment))
  | some _ => (r.modifyJudgment judgment fun j => { j with origin }, .ok ())

def addRule (r : Registry) (name : String) (judgment : JudgmentId) (premises : List Clause)
    (conclusion : Clause) (span : Span) : Registry × Except DeclarationError RuleId :=
  match r.judgment? judgment with
  | none => (r, .error (.unknownJudgment judgment))
  | some _ =>
    match r.danglingIn? (premises ++ [conclusion]) with
    | some c => (r, .error (.unknownProduction c.production))
    | none =>
      let rule : Rule := { id := ⟨r.rules.length⟩, name, judgment, premises, conclusion, span }
      let extended : Registry := { r with rules := r.rules ++ [rule] }
      (extended.modifyJudgment judgment fun j => { j with rules := j.rules ++ [rule.id] },
        .ok rule.id)

end Registry
end Inference
