import Inference.Proofs.Session.Reset
import Inference.Scenario.Run

/-!
# Inference.Proofs.Scenario.Restart

A scenario that sets its session back runs the steps after that as a scenario of their own. All that
a step does to the session is to ask it for things, so that setting it back gives the session that
the scenario started with; and the judgments of earlier steps are forgotten with it.

* `Continues`: the session of a scenario is one that was started and asked for things.
* `continues_runStep`, `continues_prepare`: every step keeps it so.
* `Run.andThen`, `run_restart`: a run with a restart is one run and then another.
-/

namespace Inference

/-- The steps with the session set back before the first of them. -/
def Step.startOver : List Step → List Step
  | [] => []
  | step :: steps => { step with resetBefore := true } :: steps

/-- A run and after it another one, which only takes place when all assertions of the first held. -/
def Run.andThen (first second : Run) : Run :=
  match first.result with
  | .error _ => first
  | .ok () => { second with inspected := first.inspected ++ second.inspected }

namespace ScenarioState

/-- The session is one that was started before and then asked for things. -/
def Continues (s : Session) (st : ScenarioState) : Prop :=
  ∃ requests, st.session = s.run requests

def initial (s : Session) : ScenarioState := { session := s.takeDiagnostics.1 }

variable {s : Session} {st st' : ScenarioState} {step : Step}

theorem continues_initial (s : Session) : (initial s).Continues s := ⟨[.takeDiagnostics], rfl⟩

theorem Continues.run (h : st.Continues s) (requests : List SessionRequest)
    (hst' : st'.session = st.session.run requests) : st'.Continues s := by
  obtain ⟨earlier, h⟩ := h
  refine ⟨earlier ++ requests, ?_⟩
  rw [hst', h, Session.run, Session.run, Session.run, List.foldl_append]

theorem continues_request (h : st.Continues s) (step : Step) :
    (st.request step).1.Continues s := by
  rcases hs : st.session.synthesizeNamed step.span step.components with ⟨session, e | judgment⟩
  · refine h.run [.synthesizeNamed step.span step.components] ?_
    simp [request, Session.run, Session.perform, hs]
  · refine h.run [.synthesizeNamed step.span step.components, .takeDiagnostics] ?_
    simp [request, Session.run, Session.perform, hs]

theorem continues_runStep (h : st.Continues s) (hstep : st.runStep step = .ok st') :
    st'.Continues s := by
  have hrequest := continues_request h step
  simp only [runStep] at hstep
  split at hstep
  · rename_i asked message hs
    rw [hs] at hrequest
    split at hstep
    · cases hstep
    · cases hstep
      exact hrequest
  · rename_i asked judgment outcome hs
    rw [hs] at hrequest
    split at hstep
    · cases hstep
    split at hstep
    · cases hstep
    split at hstep
    · cases hstep
    cases hstep
    exact hrequest

/-! ## Setting back -/

section Reset

variable {id : Nat} {registry : Registry} {config : Config}

theorem reset_of_continues (hs : Session.start id registry config = .ok s)
    (h : st.Continues s) : st.reset = .ok (initial s) := by
  obtain ⟨requests, h⟩ := h
  rw [reset, h, Session.reset_of_start hs]
  rfl

theorem continues_prepare (hs : Session.start id registry config = .ok s) (h : st.Continues s)
    (hready : st.prepare step = .ok st') : st'.Continues s := by
  rw [prepare] at hready
  split at hready
  · rw [reset_of_continues hs h] at hready
    cases hready
    exact continues_initial s
  · cases hready
    exact h

theorem prepare_initial (hs : Session.start id registry config = .ok s) (step : Step) :
    (initial s).prepare step = .ok (initial s) := by
  rw [prepare]
  split
  · exact reset_of_continues hs (continues_initial s)
  · rfl

/-- Steps that start over run as they do from the state before the first step. -/
theorem runSteps_startOver (hs : Session.start id registry config = .ok s) (h : st.Continues s)
    (steps : List Step) : st.runSteps (Step.startOver steps) = (initial s).runSteps steps := by
  cases steps with
  | nil => rfl
  | cons step steps =>
    have hready : st.prepare { step with resetBefore := true } = .ok (initial s) := by
      rw [prepare, if_pos rfl, reset_of_continues hs h]
    rw [Step.startOver, runSteps, runSteps, hready, prepare_initial hs]
    rfl

theorem runSteps_append_startOver (hs : Session.start id registry config = .ok s)
    (h : st.Continues s) (before after : List Step) :
    st.runSteps (before ++ Step.startOver after) =
      (st.runSteps before).andThen ((initial s).runSteps after) := by
  induction before generalizing st with
  | nil => rw [List.nil_append, runSteps_startOver hs h]; rfl
  | cons step before ih =>
    rw [List.cons_append, runSteps, runSteps]
    cases hready : st.prepare step with
    | error e => rfl
    | ok ready =>
      have hcontinues := continues_prepare hs h hready
      cases hstep : ready.runStep step with
      | error e =>
        simp only [hstep]
        rfl
      | ok next =>
        simp only [hstep]
        rw [ih (continues_runStep hcontinues hstep)]
        cases hrest : (next.runSteps before).result with
        | error e => simp [Run.andThen, hrest]
        | ok _ => simp [Run.andThen, hrest]

end Reset

end ScenarioState

namespace Scenario

open ScenarioState

theorem setup_eq_ok {sc : Scenario} {st : ScenarioState} (h : sc.setup = .ok st) :
    ∃ registry s, Registry.ofDeclarations sc.declarations = .ok registry ∧
      Session.start 1 registry sc.config = .ok s ∧ st = initial s := by
  simp only [setup] at h
  split at h
  · cases h
  rename_i registry hregistry
  split at h
  · cases h
  rename_i s hs
  cases h
  exact ⟨registry, s, hregistry, hs, rfl⟩

/-- A scenario in which the session is set back after some of the steps runs like two scenarios over
the same program, one with the steps before and one with those after it. If an assertion fails among
the steps before it, or the program cannot be declared, that is all; otherwise the steps after it
have the result that they have on their own, and their custom checks are asked about the same
outcomes. -/
theorem run_restart (sc : Scenario) (name : String) (before after : List Step) :
    run { sc with steps := before ++ Step.startOver after } =
      (run { sc with steps := before }).andThen (run { sc with name, steps := after }) := by
  cases hsetup : setup { sc with steps := before } with
  | error e =>
    have hwhole : setup { sc with steps := before ++ Step.startOver after } = .error e := hsetup
    rw [run, run, hwhole, hsetup]
    rfl
  | ok st =>
    obtain ⟨registry, s, hregistry, hs, rfl⟩ := setup_eq_ok hsetup
    have hwhole : setup { sc with steps := before ++ Step.startOver after } = .ok (initial s) :=
      hsetup
    have hsecond : setup { sc with name, steps := after } = .ok (initial s) := by
      simp only [setup]
      simp only at hregistry hs
      rw [hregistry]
      simp only
      rw [hs]
      rfl
    rw [run, run, run, hwhole, hsetup, hsecond]
    exact runSteps_append_startOver hs (continues_initial s) before after

end Scenario
end Inference
