import Inference.Proofs.Scenario.Progress
import Inference.Proofs.Session.Independence
import Inference.Proofs.Session.Naming

/-!
# Inference.Proofs.Scenario.Identity

The identity assertions of scenarios. Between two resets, what is on record is the trivial
conjunction and what the steps asked for successfully, by the names of the components; so whether
two steps gave one judgment is whether they asked for one list.

* `Scenario.GivenSince`: a list was asked for successfully since the last reset.
* `onRecord_iff_givenSince`: the record after any steps, in these terms.
* `judgmentOf?_of_gives`: the judgment of a step is found under its name until the next reset.
* `identity_decides`: what identity assertions and the fresh flag of a step say.
-/

namespace Inference

def Step.withSameAs (step : Step) (names : List String) : Step :=
  { step with assertion := { step.assertion with sameAs := names } }

def Step.withDiffersFrom (step : Step) (names : List String) : Step :=
  { step with assertion := { step.assertion with differsFrom := names } }

def Step.Unbroken (steps : List Step) : Prop := ∀ step ∈ steps, step.resetBefore = false

instance (steps : List Step) : Decidable (Step.Unbroken steps) :=
  inferInstanceAs (Decidable (∀ step ∈ steps, step.resetBefore = false))

namespace Session

variable {id : Nat} {registry : Registry} {config : Config} {s : Session}

theorem onRecord_start (hr : registry.Consistent) (hs : Session.start id registry config = .ok s)
    (names : List String) : (∃ judgment, s.OnRecord names judgment) ↔ names = [] := by
  obtain ⟨made, _, _, hmakes, _⟩ := exists_makes_start hr hs
  have hget : ∀ parts, s.workspace.cache.get? parts =
      if parts = [] then some made.judgment else none := by
    intro parts
    rw [hmakes.get? rfl]
    rfl
  constructor
  · rintro ⟨judgment, parts, hnames, hfound⟩
    rw [hget] at hfound
    split at hfound
    · rename_i hparts
      subst hparts
      cases hnames
      rfl
    · cases hfound
  · rintro rfl
    exact ⟨made.judgment, [], .nil, by rw [hget, if_pos rfl]⟩

end Session

namespace Scenario

open ScenarioState

/-- One of the steps asked for the conjunction of these names and was given the judgment, and no
step after it sets the session back. -/
def GivenSince (sc : Scenario) (earlier : List Step) (names : List String)
    (judgment : JudgmentId) : Prop :=
  ∃ before first between outcome, earlier = before ++ first :: between ∧ Step.Unbroken between ∧
    sc.Gives before first judgment outcome ∧ first.components = names

variable {sc : Scenario} {earlier : List Step} {step : Step} {names : List String}
  {judgment : JudgmentId}

theorem givenSince_concat_iff : sc.GivenSince (earlier ++ [step]) names judgment ↔
    (step.resetBefore = false ∧ sc.GivenSince earlier names judgment) ∨
    (step.components = names ∧ ∃ outcome, sc.Gives earlier step judgment outcome) := by
  constructor
  · rintro ⟨before, first, between, outcome, hsplit, hunbroken, hgives, hnames⟩
    rcases List.eq_nil_or_concat between with rfl | ⟨rest, last, rfl⟩
    · obtain ⟨rfl, hlast⟩ := List.append_inj' hsplit rfl
      cases hlast
      exact .inr ⟨hnames, outcome, hgives⟩
    · rw [List.concat_eq_append] at hsplit hunbroken
      rw [← List.cons_append, ← List.append_assoc] at hsplit
      obtain ⟨rfl, hlast⟩ := List.append_inj' hsplit rfl
      cases hlast
      refine .inl ⟨hunbroken step (by simp), before, first, rest, outcome, rfl, ?_, hgives, hnames⟩
      exact fun other hother => hunbroken other (List.mem_append_left _ hother)
  · rintro (⟨hreset, before, first, between, outcome, rfl, hunbroken, hgives, hnames⟩ |
      ⟨hnames, outcome, hgives⟩)
    · refine ⟨before, first, between ++ [step], outcome, by simp, ?_, hgives, hnames⟩
      intro other hother
      rcases List.mem_append.mp hother with hother | hother
      · exact hunbroken other hother
      · cases List.mem_singleton.mp hother
        exact hreset
    · exact ⟨earlier, step, [], outcome, rfl, fun _ hother => absurd hother List.not_mem_nil, hgives,
        hnames⟩

section Started

variable {id : Nat} {registry : Registry} {config : Config} {s : Session} {st : ScenarioState}
  (hr : registry.Consistent) (hs : Session.start id registry config = .ok s)
include hr hs

theorem faithful_of_continues (h : st.Continues s) : st.session.workspace.Faithful := by
  obtain ⟨requests, h⟩ := h
  rw [h]
  exact (Session.requested_run hs requests).faithful hr

theorem onRecord_request (h : st.Continues s) (step : Step) (names : List String)
    (judgment : JudgmentId) : (st.request step).1.session.OnRecord names judgment ↔
      st.session.OnRecord names judgment ∨
        (step.components = names ∧ ∃ outcome, (st.request step).2 = .ok (judgment, outcome)) := by
  have hf := faithful_of_continues hr hs h
  rcases hrequest : st.request step with ⟨asked, message | ⟨given, outcome⟩⟩
  · obtain ⟨session, e, hanswer, rfl⟩ := request_of_error hrequest
    have hsame := Session.synthesizeNamed_of_error hf (congrArg Prod.snd hanswer)
    rw [hanswer] at hsame
    cases hsame
    simp
  · obtain ⟨session, hanswer, rfl, _⟩ := request_of_ok hrequest
    have hrecord := Session.onRecord_synthesizeNamed hf (congrArg Prod.snd hanswer) names judgment
    rw [hanswer] at hrecord
    refine Iff.trans hrecord (or_congr_right ?_)
    constructor
    · rintro ⟨rfl, rfl⟩
      exact ⟨rfl, outcome, rfl⟩
    · rintro ⟨rfl, _, hgiven⟩
      cases hgiven
      exact ⟨rfl, rfl⟩

variable (hsetup : sc.setup = .ok (initial s))
include hsetup

omit hr in
theorem onRecord_ready {last ready : ScenarioState} (hlast : sc.stateAfter earlier = .ok last)
    (hready : last.prepare step = .ok ready) (hrecord : last.session.OnRecord names judgment ↔
      s.OnRecord names judgment ∨ sc.GivenSince earlier names judgment) :
    ready.session.OnRecord names judgment ↔ s.OnRecord names judgment ∨
      (step.resetBefore = false ∧ sc.GivenSince earlier names judgment) := by
  cases hreset : step.resetBefore with
  | true =>
    rw [prepare, hreset, if_pos rfl,
      reset_of_continues hs (continues_stateAfter hs hsetup hlast)] at hready
    cases hready
    simp only [Bool.true_eq_false, false_and, or_false]
    rfl
  | false =>
    rw [eq_of_prepare hreset hready]
    simp only [true_and]
    exact hrecord

/-- What is on record after any steps is the trivial conjunction and what was given since the
session was last set back. -/
theorem onRecord_iff_givenSince (h : sc.stateAfter earlier = .ok st) (names : List String)
    (judgment : JudgmentId) : st.session.OnRecord names judgment ↔
      s.OnRecord names judgment ∨ sc.GivenSince earlier names judgment := by
  induction earlier using List.reverseRecOn generalizing st with
  | nil =>
    rw [stateAfter, hsetup] at h
    cases h
    constructor
    · exact .inl
    · rintro (hstart | ⟨before, first, between, _, hsplit, _⟩)
      · exact hstart
      · cases before <;> cases hsplit
  | append_singleton earlier step ih =>
    obtain ⟨last, ready, hlast, hready, hnext⟩ := stateAfter_concat.mp h
    have hcontinues := continues_prepare hs (continues_stateAfter hs hsetup hlast) hready
    rw [(runStep_eq hnext).1, onRecord_request hr hs hcontinues step,
      onRecord_ready hs hsetup hlast hready (ih hlast), givenSince_concat_iff, or_assoc]
    simp only [gives_iff hlast hready]

end Started

theorem judgmentOf?_of_gives {before between : List Step} {first : Step} {outcome : Outcome}
    {st : ScenarioState} (hgives : sc.Gives before first judgment outcome)
    (hunbroken : Step.Unbroken between) (hnames : ∀ other ∈ between, other.name ≠ first.name)
    (h : sc.stateAfter (before ++ first :: between) = .ok st) :
    st.judgmentOf? first.name = some judgment := by
  induction between using List.reverseRecOn generalizing st with
  | nil =>
    obtain ⟨last, ready, hlast, hready, hnext⟩ := stateAfter_concat.mp h
    exact judgmentOf?_runStep_self hnext ((gives_iff hlast hready _ _).mp hgives)
  | append_singleton between step ih =>
    rw [← List.cons_append, ← List.append_assoc] at h
    obtain ⟨last, ready, hlast, hready, hnext⟩ := stateAfter_concat.mp h
    rw [Step.Unbroken, List.forall_mem_append, List.forall_mem_singleton] at hunbroken
    rw [List.forall_mem_append, List.forall_mem_singleton] at hnames
    rw [judgmentOf?_runStep_of_ne hnext hnames.2]
    rw [eq_of_prepare hunbroken.2 hready]
    exact ih hunbroken.1 hnames.1 hlast

/-! ## What the assertions say -/

theorem Gives.fresh_iff {outcome : Outcome} (h : sc.Gives earlier step judgment outcome) :
    outcome.fresh = true ↔ step.components ≠ [] ∧
      ¬ (step.resetBefore = false ∧ ∃ other, sc.GivenSince earlier step.components other) := by
  obtain ⟨last, ready, asked, hlast, hready, hrequest⟩ := h
  obtain ⟨registry, s, hregistry, hs, hsetup⟩ := exists_setup hlast
  have hr := Registry.consistent_ofDeclarations hregistry
  obtain ⟨session, hanswer, _, hfresh⟩ := request_of_ok hrequest
  have hcount := Session.conjunctionCount_lt_iff (congrArg Prod.snd hanswer)
  rw [hanswer] at hcount
  have hrecord : ∀ other, ready.session.OnRecord step.components other ↔
      s.OnRecord step.components other ∨
        (step.resetBefore = false ∧ sc.GivenSince earlier step.components other) := fun other =>
    onRecord_ready hs hsetup hlast hready (onRecord_iff_givenSince hr hs hsetup hlast _ other)
  rw [hfresh, decide_eq_true_iff, hcount]
  simp only [hrecord, not_or, forall_and, ← not_exists, exists_and_left,
    Session.onRecord_start hr hs, ne_eq]

section TwoSteps

variable {before between : List Step} {first : Step} {judgment' : JudgmentId}
  {outcome outcome' : Outcome} (hfirst : sc.Gives before first judgment' outcome')
  (h : sc.Gives (before ++ first :: between) step judgment outcome)
  (hunbroken : Step.Unbroken (between ++ [step]))
include hfirst h hunbroken

theorem Gives.judgment_eq_iff : judgment' = judgment ↔ first.components = step.components := by
  rw [Step.Unbroken, List.forall_mem_append, List.forall_mem_singleton] at hunbroken
  obtain ⟨last, ready, asked, hlast, hready, hrequest⟩ := h
  obtain ⟨registry, s, hregistry, hs, hsetup⟩ := exists_setup hlast
  have hr := Registry.consistent_ofDeclarations hregistry
  have hcontinues := continues_prepare hs (continues_stateAfter hs hsetup hlast) hready
  have hgiven : sc.GivenSince (before ++ first :: between) first.components judgment' :=
    ⟨before, first, between, outcome', rfl, hunbroken.1, hfirst, rfl⟩
  have hbefore := (onRecord_ready hs hsetup hlast hready
    (onRecord_iff_givenSince hr hs hsetup hlast first.components judgment')).mpr
      (.inr ⟨hunbroken.2, hgiven⟩)
  have hrecord := onRecord_request hr hs hcontinues step
  rw [hrequest] at hrecord
  have hasked := continues_request hcontinues step
  rw [hrequest] at hasked
  exact Session.OnRecord.judgment_eq_iff (faithful_of_continues hr hs hasked)
    ((hrecord first.components judgment').mpr (.inl hbefore))
    ((hrecord step.components judgment).mpr (.inr ⟨rfl, outcome, rfl⟩))

theorem Gives.passes_insert_iff (hnames : ∀ other ∈ between, other.name ≠ first.name)
    (front back : List String) :
    (sc.Passes (before ++ first :: between ++ [step.withSameAs (front ++ first.name :: back)]) ↔
      sc.Passes (before ++ first :: between ++ [step.withSameAs (front ++ back)]) ∧
        judgment' = judgment) ∧
    (sc.Passes (before ++ first :: between ++
        [step.withDiffersFrom (front ++ first.name :: back)]) ↔
      sc.Passes (before ++ first :: between ++ [step.withDiffersFrom (front ++ back)]) ∧
        judgment' ≠ judgment) := by
  rw [Step.Unbroken, List.forall_mem_append, List.forall_mem_singleton] at hunbroken
  obtain ⟨last, ready, asked, hlast, hready, hrequest⟩ := h
  have hfound : asked.judgmentOf? first.name = some judgment' := by
    have hkept := judgmentOf?_of_gives hfirst hunbroken.1 hnames hlast
    have hresults := request_results ready step
    rw [hrequest, eq_of_prepare hunbroken.2 hready] at hresults
    rw [judgmentOf?] at hkept ⊢
    rw [hresults, hkept]
  have hsame : ∀ names, sc.Passes (before ++ first :: between ++ [step.withSameAs names]) ↔
      step.assertion.verify step.name (.ok outcome) = .ok () ∧
      asked.Compares judgment true names ∧
      asked.Compares judgment false step.assertion.differsFrom := fun names =>
    passes_concat_iff hlast hready hrequest
  have hdiffers : ∀ names, sc.Passes (before ++ first :: between ++ [step.withDiffersFrom names]) ↔
      step.assertion.verify step.name (.ok outcome) = .ok () ∧
      asked.Compares judgment true step.assertion.sameAs ∧
      asked.Compares judgment false names := fun names =>
    passes_concat_iff hlast hready hrequest
  rw [hsame, hsame, hdiffers, hdiffers, compares_insert_iff, compares_insert_iff, hfound]
  simp only [Option.some.injEq, exists_eq_left', beq_iff_eq, beq_eq_false_iff_ne]
  tauto

end TwoSteps

/-- Of two steps between which the session is not set back, both given a judgment: comparing the
later one with the earlier one, if nothing else in its assertion fails, decides whether they ask for
the same list of names. And a step makes its conjunction exactly when it asks for something, and no
step since the session was last set back was given the conjunction of the same list. -/
theorem identity_decides {outcome : Outcome} (h : sc.Gives earlier step judgment outcome) :
    (∀ before first between judgment' outcome', earlier = before ++ first :: between →
      Step.Unbroken (between ++ [step]) → (∀ other ∈ between, other.name ≠ first.name) →
      sc.Gives before first judgment' outcome' → ∀ front back,
        (sc.Passes (earlier ++ [step.withSameAs (front ++ back)]) →
          (sc.Passes (earlier ++ [step.withSameAs (front ++ first.name :: back)]) ↔
            first.components = step.components)) ∧
        (sc.Passes (earlier ++ [step.withDiffersFrom (front ++ back)]) →
          (sc.Passes (earlier ++ [step.withDiffersFrom (front ++ first.name :: back)]) ↔
            first.components ≠ step.components))) ∧
    (outcome.fresh = true ↔ step.components ≠ [] ∧
      ¬ (step.resetBefore = false ∧ ∃ other, sc.GivenSince earlier step.components other)) := by
  refine ⟨?_, h.fresh_iff⟩
  rintro before first between judgment' outcome' rfl hunbroken hnames hfirst front back
  obtain ⟨hsame, hdiffers⟩ := hfirst.passes_insert_iff h hunbroken hnames front back
  have hlists := hfirst.judgment_eq_iff h hunbroken
  refine ⟨fun hpasses => ?_, fun hpasses => ?_⟩
  · rw [hsame, hlists]
    exact and_iff_right hpasses
  · rw [hdiffers, Ne, hlists]
    exact and_iff_right hpasses

/-- Two steps that ask for the same list, with one in between that is refused and one that asks for
the conjunction of the first. -/
theorem identity_decides_sample : ∃ (sc : Scenario) (one refused nested again : Step)
    (outcome : Outcome), one.components = again.components ∧ nested.components ≠ again.components ∧
    sc.Gives [one, refused, nested] again ⟨3⟩ outcome ∧ outcome.fresh = false ∧
    sc.Passes [one, refused, nested, again.withSameAs ["one"]] ∧
    sc.Passes [one, refused, nested, again.withDiffersFrom ["nested"]] ∧
    ¬ sc.Passes [one, refused, nested, again.withDiffersFrom ["one"]] := by
  let sc : Scenario :=
    { name := "identity"
      declarations := [.category "e" false {}, .judgment "value" "e value" none none {},
        .judgment "halts" "e halts" none none {}] }
  let one : Step :=
    { name := "one", components := ["value", "halts"], span := {}, assertion := {} }
  let refused : Step :=
    { name := "refused", components := ["value", "value"], span := {},
      assertion := { error := some "more than once" } }
  let nested : Step :=
    { name := "nested", components := ["and[value,halts]", "value"], span := {}, assertion := {} }
  let again : Step := { one with name := "again" }
  let made (fresh : Bool) : Outcome :=
    { name := "and[value,halts]", form := "e1 value and e2 halts",
      premises := ["e1 value", "e2 halts"], conclusion := "e1 value and e2 halts", fresh }
  have hone : sc.Gives [] one ⟨3⟩ (made true) := by decide +kernel
  have hagain : sc.Gives [one, refused, nested] again ⟨3⟩ (made false) := by decide +kernel
  have hnested : sc.Gives [one, refused] nested ⟨4⟩
      { name := "and[and[value,halts],value]", form := "e1 value and e2 halts and e3 value",
        premises := ["e1 value and e2 halts", "e3 value"],
        conclusion := "e1 value and e2 halts and e3 value", fresh := true } := by
    decide +kernel
  have hpasses : sc.Passes [one, refused, nested, again] := by decide +kernel
  obtain ⟨hcompare, _⟩ := identity_decides hagain
  have hwithOne := hcompare [] one [refused, nested] ⟨3⟩ (made true) rfl (by decide) (by decide)
    hone [] []
  have hwithNested := hcompare [one, refused] nested [] ⟨4⟩ _ rfl (by decide) (by decide)
    hnested [] []
  refine ⟨sc, one, refused, nested, again, made false, rfl, by decide, hagain, rfl, ?_, ?_, ?_⟩
  · exact (hwithOne.1 hpasses).mpr rfl
  · exact (hwithNested.2 hpasses).mpr (by decide)
  · exact fun hdiffers => (hwithOne.2 hpasses).mp hdiffers rfl

end Scenario
end Inference
