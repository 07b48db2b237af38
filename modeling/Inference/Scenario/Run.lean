import Inference.Registry.Declaration
import Inference.Scenario.Assertion

/-!
# Inference.Scenario.Run

Scenarios declare a program and then ask a session for conjunctions, step by step, holding what each
step gives against an assertion. A scenario ends with the first step whose assertion fails.

* `Scenario.run`: runs a scenario.
* `Run.result`: whether all assertions held, or the first error.
-/

namespace Inference

structure Step where
  name : String
  components : List String
  span : Span
  /-- Whether the session is set back to its start before the step. -/
  resetBefore : Bool := false
  assertion : Assertion

structure Scenario where
  name : String
  declarations : List Declaration := []
  config : Config := {}
  steps : List Step := []

structure Run where
  result : Except ScenarioError Unit
  /-- The outcomes that custom checks were asked about, in order. -/
  inspected : List Outcome := []

structure ScenarioState where
  session : Session
  /-- The steps that succeeded since the last reset, with their judgments. -/
  results : List (String × JudgmentId) := []

/-- The outcome of a conjunction. Its rule is the first of the judgment. -/
def Registry.outcome (r : Registry) (id : JudgmentId) (diagnostics : List Diagnostic)
    (fresh : Bool) : Outcome where
  name := ((r.judgment? id).map (·.name)).getD ""
  form := ((r.formOf? id).map (·.text)).getD ""
  premises := ((r.rulesFor id).head?.map fun rule => rule.premises.map (·.text)).getD []
  conclusion := ((r.rulesFor id).head?.map fun rule => rule.conclusion.text).getD ""
  context := (r.contextOf? id).map (·.val.name)
  assumption := (r.assumptionOf? id).map (·.val.name)
  diagnostics := diagnostics
  fresh := fresh

namespace ScenarioState

def judgmentOf? (st : ScenarioState) (step : String) : Option JudgmentId :=
  (st.results.find? (·.1 == step)).map (·.2)

def reset (st : ScenarioState) : Except ScenarioError ScenarioState :=
  match st.session.reset with
  | (_, .error e) => .error (.session e)
  | (session, .ok ()) => .ok { session := session.takeDiagnostics.1 }

/-- Compares the judgment of a step with those of other steps. With `same` they must be equal, and
otherwise they must differ. -/
def checkIdentity (st : ScenarioState) (step : String) (judgment : JudgmentId) (same : Bool) :
    List String → Except ScenarioError Unit
  | [] => .ok ()
  | other :: others =>
    match st.judgmentOf? other with
    | none => .error (.stepNotFound other)
    | some earlier =>
      if (earlier == judgment) = same then st.checkIdentity step judgment same others
      else
        let relation := if same then "the same as" else "different from"
        .error (.assertionFailed step ("expected judgment " ++ judgment.text ++ " to be " ++
          relation ++ " step '" ++ other ++ "' (" ++ earlier.text ++ ")"))

/-- Records the judgment of a step. A later step of the same name takes the place of an earlier
one. -/
def record (st : ScenarioState) (step : String) (judgment : JudgmentId) : ScenarioState :=
  { st with results := (step, judgment) :: st.results }

/-- Asks for the conjunction of a step. Only when it is there are the diagnostics of the session
taken. -/
def request (st : ScenarioState) (step : Step) :
    ScenarioState × Except String (JudgmentId × Outcome) :=
  match st.session.synthesizeNamed step.span step.components with
  | (session, .error e) => ({ st with session }, .error e.message)
  | (session, .ok judgment) =>
    let fresh := decide (st.session.conjunctionCount < session.conjunctionCount)
    let (session, diagnostics) := session.takeDiagnostics
    ({ st with session }, .ok (judgment, session.registry.outcome judgment diagnostics fresh))

def runStep (st : ScenarioState) (step : Step) : Except ScenarioError ScenarioState :=
  match st.request step with
  | (st, .error message) =>
    match step.assertion.verify step.name (.error message) with
    | .error e => .error e
    | .ok () => .ok st
  | (st, .ok (judgment, outcome)) =>
    match step.assertion.verify step.name (.ok outcome) with
    | .error e => .error e
    | .ok () =>
      match st.checkIdentity step.name judgment true step.assertion.sameAs with
      | .error e => .error e
      | .ok () =>
        match st.checkIdentity step.name judgment false step.assertion.differsFrom with
        | .error e => .error e
        | .ok () => .ok (st.record step.name judgment)

def inspected (st : ScenarioState) (step : Step) : List Outcome :=
  step.assertion.inspected ((st.request step).2.map (·.2))

def prepare (st : ScenarioState) (step : Step) : Except ScenarioError ScenarioState :=
  if step.resetBefore then st.reset else .ok st

def runSteps (st : ScenarioState) : List Step → Run
  | [] => { result := .ok () }
  | step :: steps =>
    match st.prepare step with
    | .error e => { result := .error e }
    | .ok ready =>
      match ready.runStep step with
      | .error e => { result := .error e, inspected := ready.inspected step }
      | .ok st =>
        let rest := st.runSteps steps
        { rest with inspected := ready.inspected step ++ rest.inspected }

end ScenarioState

namespace Scenario

/-- The state before the first step. What making the trivial conjunction found is not under
test. -/
def setup (s : Scenario) : Except ScenarioError ScenarioState :=
  match Registry.ofDeclarations s.declarations with
  | .error e => .error (.setup s.name e.message)
  | .ok registry =>
    match Session.start 1 registry s.config with
    | .error e => .error (.session e)
    | .ok session => .ok { session := session.takeDiagnostics.1 }

def run (s : Scenario) : Run :=
  match s.setup with
  | .error e => { result := .error e }
  | .ok st => st.runSteps s.steps

end Scenario
end Inference
