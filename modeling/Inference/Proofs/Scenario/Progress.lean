import Inference.Proofs.Registry.Declaration
import Inference.Proofs.Scenario.Restart
import Mathlib.Data.List.Induction

/-!
# Inference.Proofs.Scenario.Progress

How far a scenario gets. Each step is asked of the state that the steps before it lead to, and its
assertion decides whether there is a state after it.

* `runStep_of_ok`, `runStep_of_error`: what a step does when its assertion holds.
* `Scenario.stateAfter`: the state after steps whose assertions all held; `passes_iff`, a run has no
  error exactly when there is one.
* `Scenario.Gives`: what a step of a scenario gives when it comes after given steps.
* `continues_stateAfter`: the session of every state that a scenario gets to.
-/

namespace Inference

namespace ScenarioState

/-- The judgments of the other steps are the given one, or none of them is. -/
def Compares (st : ScenarioState) (judgment : JudgmentId) (same : Bool) (others : List String) :
    Prop :=
  ∀ other ∈ others, ∃ earlier, st.judgmentOf? other = some earlier ∧ (earlier == judgment) = same

/-- The state after steps whose assertions all held. -/
def after (st : ScenarioState) : List Step → Except ScenarioError ScenarioState
  | [] => .ok st
  | step :: steps =>
    match st.prepare step with
    | .error e => .error e
    | .ok ready =>
      match ready.runStep step with
      | .error e => .error e
      | .ok next => next.after steps

variable {st st' : ScenarioState} {step : Step}

theorem eq_of_prepare (hreset : step.resetBefore = false) (h : st.prepare step = .ok st') :
    st' = st := by
  rw [prepare, hreset] at h
  cases h
  rfl

theorem checkIdentity_eq_ok_iff (name : String) {judgment : JudgmentId} {same : Bool}
    {others : List String} :
    st.checkIdentity name judgment same others = .ok () ↔ st.Compares judgment same others := by
  induction others with
  | nil => simp [checkIdentity, Compares]
  | cons other others ih =>
    rw [Compares, List.forall_mem_cons, ← Compares, ← ih, checkIdentity]
    split
    · rename_i hnone
      simp [hnone]
    · rename_i earlier hearlier
      split
      · rename_i hsame
        simp [hearlier, hsame]
      · rename_i hdiffers
        simp [hearlier, hdiffers]

theorem runStep_of_ok {asked : ScenarioState} {judgment : JudgmentId} {outcome : Outcome}
    (h : st.request step = (asked, .ok (judgment, outcome))) : st.runStep step = .ok st' ↔
      step.assertion.verify step.name (.ok outcome) = .ok () ∧
      asked.Compares judgment true step.assertion.sameAs ∧
      asked.Compares judgment false step.assertion.differsFrom ∧
      st' = asked.record step.name judgment := by
  simp only [runStep, h, ← checkIdentity_eq_ok_iff step.name]
  constructor
  · intro hstep
    split at hstep
    · cases hstep
    rename_i hverify
    split at hstep
    · cases hstep
    rename_i hsame
    split at hstep
    · cases hstep
    rename_i hdiffers
    cases hstep
    exact ⟨hverify, hsame, hdiffers, rfl⟩
  · rintro ⟨hverify, hsame, hdiffers, rfl⟩
    rw [hverify, hsame, hdiffers]

theorem runStep_of_error {asked : ScenarioState} {message : String}
    (h : st.request step = (asked, .error message)) (hstep : st.runStep step = .ok st') :
    st' = asked := by
  simp only [runStep, h] at hstep
  split at hstep
  · cases hstep
  · cases hstep
    rfl

/-- The session and the results after a step are those that the request leaves, with the judgment of
the step among the results. -/
theorem runStep_eq (hstep : st.runStep step = .ok st') :
    st'.session = (st.request step).1.session ∧
    st'.results = match (st.request step).2 with
      | .error _ => (st.request step).1.results
      | .ok (judgment, _) => (step.name, judgment) :: (st.request step).1.results := by
  rcases hrequest : st.request step with ⟨asked, message | ⟨judgment, outcome⟩⟩
  · cases runStep_of_error hrequest hstep
    exact ⟨rfl, rfl⟩
  · obtain ⟨_, _, _, rfl⟩ := (runStep_of_ok hrequest).mp hstep
    exact ⟨rfl, rfl⟩

theorem request_of_ok {asked : ScenarioState} {judgment : JudgmentId} {outcome : Outcome}
    (h : st.request step = (asked, .ok (judgment, outcome))) :
    ∃ session, st.session.synthesizeNamed step.span step.components = (session, .ok judgment) ∧
      asked = { st with session := session.takeDiagnostics.1 } ∧
      outcome.fresh = decide (st.session.conjunctionCount < session.conjunctionCount) := by
  rw [request] at h
  split at h
  · cases h
  · rename_i session _ hanswer
    cases h
    exact ⟨session, hanswer, rfl, rfl⟩

theorem form_of_request {asked : ScenarioState} {judgment : JudgmentId} {outcome : Outcome}
    (h : st.request step = (asked, .ok (judgment, outcome))) {form : Form}
    (hform : asked.session.registry.formOf? judgment = some form) : outcome.form = form.text := by
  rw [request] at h
  split at h
  · cases h
  · cases h
    simp only [Registry.outcome, hform, Option.map_some, Option.getD_some]

theorem request_of_error {asked : ScenarioState} {message : String}
    (h : st.request step = (asked, .error message)) :
    ∃ session e, st.session.synthesizeNamed step.span step.components = (session, .error e) ∧
      asked = { st with session } := by
  rw [request] at h
  split at h
  · rename_i session e hanswer
    cases h
    exact ⟨session, e, hanswer, rfl⟩
  · cases h

theorem request_results (st : ScenarioState) (step : Step) :
    (st.request step).1.results = st.results := by
  rw [request]
  split <;> rfl

theorem judgmentOf?_runStep_self {judgment : JudgmentId} {outcome : Outcome}
    (hstep : st.runStep step = .ok st') (hgiven : (st.request step).2 = .ok (judgment, outcome)) :
    st'.judgmentOf? step.name = some judgment := by
  have hresults := (runStep_eq hstep).2
  rw [hgiven] at hresults
  simp [judgmentOf?, hresults]

theorem judgmentOf?_runStep_of_ne {name : String} (hstep : st.runStep step = .ok st')
    (hne : step.name ≠ name) : st'.judgmentOf? name = st.judgmentOf? name := by
  have hresults := (runStep_eq hstep).2
  rw [judgmentOf?, judgmentOf?, hresults, ← request_results st step]
  split
  · rfl
  · simp [hne]

theorem compares_insert_iff {judgment : JudgmentId} {same : Bool} {front back : List String}
    {other : String} : st.Compares judgment same (front ++ other :: back) ↔
      st.Compares judgment same (front ++ back) ∧
        ∃ earlier, st.judgmentOf? other = some earlier ∧ (earlier == judgment) = same := by
  simp only [Compares, List.forall_mem_append, List.forall_mem_cons]
  constructor
  · rintro ⟨hfront, hother, hback⟩
    exact ⟨⟨hfront, hback⟩, hother⟩
  · rintro ⟨⟨hfront, hback⟩, hother⟩
    exact ⟨hfront, hother, hback⟩

/-! ## Many steps -/

theorem runSteps_result (st : ScenarioState) (steps : List Step) :
    (st.runSteps steps).result = (st.after steps).map fun _ => () := by
  induction steps generalizing st with
  | nil => rfl
  | cons step steps ih =>
    rw [runSteps, after]
    cases st.prepare step with
    | error e => rfl
    | ok ready =>
      cases hnext : ready.runStep step with
      | error e =>
        simp only [hnext]
        rfl
      | ok next =>
        simp only [hnext]
        exact ih next

theorem after_concat {steps : List Step} : st.after (steps ++ [step]) = .ok st' ↔
    ∃ last ready, st.after steps = .ok last ∧ last.prepare step = .ok ready ∧
      ready.runStep step = .ok st' := by
  induction steps generalizing st with
  | nil =>
    rw [List.nil_append, after, after]
    cases hready : st.prepare step with
    | error e => simp [hready]
    | ok ready =>
      cases hnext : ready.runStep step with
      | error e => simp [hready, hnext]
      | ok next => simp [hready, hnext, after]
  | cons first steps ih =>
    rw [List.cons_append, after, after]
    cases st.prepare first with
    | error e => simp
    | ok ready =>
      cases hnext : ready.runStep first with
      | error e => simp [hnext]
      | ok next =>
        simp only [hnext]
        exact ih

end ScenarioState

namespace Scenario

open ScenarioState

/-- The state of a scenario over the same program after the given steps, when all their assertions
held. -/
def stateAfter (sc : Scenario) (steps : List Step) : Except ScenarioError ScenarioState :=
  match sc.setup with
  | .error e => .error e
  | .ok st => st.after steps

/-- All assertions of the given steps hold over the same program. -/
def Passes (sc : Scenario) (steps : List Step) : Prop :=
  (run { sc with steps }).result = .ok ()

/-- After the given steps, whose assertions all hold, the step succeeds with the judgment and the
outcome, whatever its own assertion is. -/
def Gives (sc : Scenario) (earlier : List Step) (step : Step) (judgment : JudgmentId)
    (outcome : Outcome) : Prop :=
  ∃ last ready asked, sc.stateAfter earlier = .ok last ∧ last.prepare step = .ok ready ∧
    ready.request step = (asked, .ok (judgment, outcome))

variable {sc : Scenario} {steps : List Step} {step : Step} {st : ScenarioState}

instance : Decidable (sc.Passes steps) :=
  inferInstanceAs (Decidable ((run { sc with steps }).result = .ok ()))

theorem passes_iff : sc.Passes steps ↔ ∃ st, sc.stateAfter steps = .ok st := by
  have hsetup : setup { sc with steps } = sc.setup := rfl
  rw [Passes, run, stateAfter, hsetup]
  cases sc.setup with
  | error e => simp
  | ok st =>
    simp only [runSteps_result]
    cases st.after steps <;> simp [Except.map]

theorem stateAfter_concat : sc.stateAfter (steps ++ [step]) = .ok st ↔
    ∃ last ready, sc.stateAfter steps = .ok last ∧ last.prepare step = .ok ready ∧
      ready.runStep step = .ok st := by
  rw [stateAfter, stateAfter]
  cases sc.setup with
  | error e => simp
  | ok first => exact after_concat

theorem gives_iff {earlier : List Step} {last ready : ScenarioState}
    (hlast : sc.stateAfter earlier = .ok last) (hready : last.prepare step = .ok ready)
    (judgment : JudgmentId) (outcome : Outcome) :
    sc.Gives earlier step judgment outcome ↔ (ready.request step).2 = .ok (judgment, outcome) := by
  constructor
  · rintro ⟨last', ready', asked, hlast', hready', hrequest⟩
    cases hlast.symm.trans hlast'
    cases hready.symm.trans hready'
    rw [hrequest]
  · exact fun hgiven => ⟨last, ready, _, hlast, hready, Prod.ext rfl hgiven⟩

instance (earlier : List Step) (judgment : JudgmentId) (outcome : Outcome) :
    Decidable (sc.Gives earlier step judgment outcome) :=
  match hlast : sc.stateAfter earlier with
  | .error _ => .isFalse fun ⟨_, _, _, hlast', _⟩ => by cases hlast.symm.trans hlast'
  | .ok last =>
    match hready : last.prepare step with
    | .error _ => .isFalse fun ⟨_, _, _, hlast', hready', _⟩ => by
      cases hlast.symm.trans hlast'
      cases hready.symm.trans hready'
    | .ok _ => decidable_of_iff _ (gives_iff hlast hready judgment outcome).symm

theorem exists_setup (h : sc.stateAfter steps = .ok st) :
    ∃ registry s, Registry.ofDeclarations sc.declarations = .ok registry ∧
      Session.start 1 registry sc.config = .ok s ∧ sc.setup = .ok (initial s) := by
  cases hsetup : sc.setup with
  | error e =>
    rw [stateAfter, hsetup] at h
    cases h
  | ok first =>
    obtain ⟨registry, s, hregistry, hs, rfl⟩ := setup_eq_ok hsetup
    exact ⟨registry, s, hregistry, hs, rfl⟩

theorem passes_concat_iff {earlier : List Step} {last ready asked : ScenarioState}
    {judgment : JudgmentId} {outcome : Outcome} (hlast : sc.stateAfter earlier = .ok last)
    (hready : last.prepare step = .ok ready)
    (hrequest : ready.request step = (asked, .ok (judgment, outcome))) :
    sc.Passes (earlier ++ [step]) ↔
      step.assertion.verify step.name (.ok outcome) = .ok () ∧
      asked.Compares judgment true step.assertion.sameAs ∧
      asked.Compares judgment false step.assertion.differsFrom := by
  rw [passes_iff]
  simp only [stateAfter_concat]
  constructor
  · rintro ⟨st, last', ready', hlast', hready', hstep⟩
    cases hlast.symm.trans hlast'
    cases hready.symm.trans hready'
    obtain ⟨hverify, hsame, hdiffers, _⟩ := (runStep_of_ok hrequest).mp hstep
    exact ⟨hverify, hsame, hdiffers⟩
  · rintro ⟨hverify, hsame, hdiffers⟩
    exact ⟨_, last, ready, hlast, hready,
      (runStep_of_ok hrequest).mpr ⟨hverify, hsame, hdiffers, rfl⟩⟩

/-- The session of a scenario is at all times one that was started and asked for things. -/
theorem continues_stateAfter {id : Nat} {registry : Registry} {config : Config} {s : Session}
    (hs : Session.start id registry config = .ok s) (hsetup : sc.setup = .ok (initial s))
    (h : sc.stateAfter steps = .ok st) : st.Continues s := by
  induction steps using List.reverseRecOn generalizing st with
  | nil =>
    rw [stateAfter, hsetup] at h
    cases h
    exact continues_initial s
  | append_singleton steps step ih =>
    obtain ⟨last, ready, hlast, hready, hnext⟩ := stateAfter_concat.mp h
    exact continues_runStep (continues_prepare hs (ih hlast) hready) hnext

end Scenario
end Inference
