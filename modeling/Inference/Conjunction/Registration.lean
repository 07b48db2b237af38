import Inference.Check.Checker
import Inference.Registry.Write

/-!
# Inference.Conjunction.Registration

Entering a conjunction into the declaration table: a judgment, its production, and one rule that
concludes the joined form from one premise for each component.

* `Registry.register`: enters a conjunction, and checks it when asked to.
-/

namespace Inference

/-- Everything needed to declare one conjunction. -/
structure Construction where
  /-- The name of the judgment, of its production and of its rule. -/
  name : String
  components : List JudgmentId
  premises : List (List Element)
  form : Form
  assumption : Option Nonterminal
  span : Span
  deriving DecidableEq

inductive SynthesisError where
  | unknownJudgment (id : JudgmentId)
  | duplicateComponent (id : JudgmentId)
  | missingForm (id : JudgmentId)
  | declaration (e : DeclarationError)
  deriving DecidableEq

def SynthesisError.message : SynthesisError → String
  | unknownJudgment id => "unknown judgment " ++ id.text ++ " in conjunction"
  | duplicateComponent id => "judgment " ++ id.text ++ " appears more than once in conjunction"
  | missingForm id => "judgment " ++ id.text ++ " has no form to conjoin"
  | declaration e => "registry error: " ++ e.message

namespace Registry

/-- The premises of a conjunction, each over the production of its component. What has no partner
in the other list is left out. -/
def premiseClauses (r : Registry) (span : Span) :
    List JudgmentId → List (List Element) → Except SynthesisError (List Clause)
  | component :: components, elements :: premises =>
    match r.judgment? component with
    | none => .error (.unknownJudgment component)
    | some j =>
      match j.production with
      | none => .error (.missingForm component)
      | some production =>
        match r.premiseClauses span components premises with
        | .error e => .error e
        | .ok clauses => .ok ({ elements, span, production } :: clauses)
  | _, _ => .ok []

/-- Enters a conjunction. The judgment is reserved first, so that its production can name it. The
first write that is refused ends it, with the table as it is by then. With `validate` the new
judgment is checked at the end. -/
def register (r : Registry) (k : Construction) (validate : Bool) :
    Registry × Except SynthesisError (JudgmentId × List Diagnostic) :=
  match r.premiseClauses k.span k.components k.premises with
  | .error e => (r, .error e)
  | .ok clauses =>
    match r.reserve k.name k.span with
    | (reserved, .error e) => (reserved, .error (.declaration e))
    | (reserved, .ok id) =>
      match reserved.define id k.name k.form with
      | (defined, .error e) => (defined, .error (.declaration e))
      | (defined, .ok production) =>
        match defined.assume id k.assumption with
        | (assumed, .error e) => (assumed, .error (.declaration e))
        | (assumed, .ok ()) =>
          match assumed.setOrigin id (.conjunction k.components) with
          | (placed, .error e) => (placed, .error (.declaration e))
          | (placed, .ok ()) =>
            let conclusion : Clause := { elements := k.form.elements, span := k.span, production }
            match placed.addRule k.name id clauses conclusion k.span with
            | (entered, .error e) => (entered, .error (.declaration e))
            | (entered, .ok _) =>
              (entered, .ok (id, if validate then (entered.check id).1 else []))

end Registry
end Inference
