import Inference.Proofs.Scenario.Assertion
import Inference.Proofs.Scenario.Identity
import Inference.Proofs.Session.Spelling

/-!
# Inference.Proofs.Scenario.FormLength

The form length that an assertion asks for. A step is held against the text of its form, cut at the
spaces. Since the forms in a session are spelled with words at all times, this counts the elements
of the form, and so the elements of the components and the separators between them.

* `Outcome.formLength_eq`: the number that is compared, by the pieces of the text.
* `exists_form_of_request`: the form that a step is given, and how long it is.
* `formLength_decides`: what an expected form length says.
-/

namespace Inference

theorem Text.length_splitOn {α : Type} [BEq α] (a : α) (as : List α) :
    (as.splitOn a).length = as.count a + 1 := by
  induction as with
  | nil => rfl
  | cons b as ih =>
    rw [List.splitOn_cons_eq_if_modifyHead, List.count_cons]
    split
    · rw [List.length_cons, ih]
    · rw [List.length_modifyHead, ih]

theorem Outcome.formLength_eq (o : Outcome) :
    o.formLength = if o.form = "" then 0 else (o.form.toList.splitOn ' ').length := by
  rw [formLength, Text.length_splitOn]

def Step.withFormLength (step : Step) (n : Option Nat) : Step :=
  { step with assertion := { step.assertion with formLength := n } }

namespace Scenario

open ScenarioState

variable {sc : Scenario} {earlier : List Step} {step : Step} {last ready asked : ScenarioState}
  {judgment : JudgmentId} {outcome : Outcome}

theorem exists_form_of_request (hf : ready.session.workspace.Faithful)
    (hrequest : ready.request step = (asked, .ok (judgment, outcome))) :
    ∃ parts forms form, ready.session.registry.Resolves step.components parts ∧
      List.Forall₂ (fun part f => ready.session.registry.formOf? part = some f) parts forms ∧
      asked.session.registry.formOf? judgment = some form ∧ outcome.form = form.text ∧
      form.length = (forms.map Form.length).sum + (step.components.length - 1) := by
  obtain ⟨session, hanswer, hasked, _⟩ := request_of_ok hrequest
  obtain ⟨parts, made, hnames, hmade, rfl, hworkspace⟩ :=
    Session.synthesizeNamed_eq_ok (congrArg Prod.snd hanswer)
  obtain ⟨forms, form, hforms, hconjoins⟩ := hf.exists_forms_of_synthesize hmade
  have hform : asked.session.registry.formOf? made.judgment = some form := by
    rw [hasked]
    rw [hanswer] at hworkspace
    rw [← hworkspace] at hconjoins
    exact hconjoins.formOf?
  refine ⟨parts, forms, form, hnames, hforms, hform, form_of_request hrequest hform, ?_⟩
  rw [hconjoins.length_form, hnames.length_eq]

/-- What a step is given after any steps of a scenario. The number that an expected form length is
compared with is the number of pieces that the text of the form falls into at single spaces, or zero
when there is no text. This is the number of elements of the form, so the expectation, if nothing
else in the assertion fails, holds for that number only. The form has as many elements as those of
the components together, and one separator less than there are components, or none when there are
none. -/
theorem formLength_decides (hlast : sc.stateAfter earlier = .ok last)
    (hready : last.prepare step = .ok ready)
    (hrequest : ready.request step = (asked, .ok (judgment, outcome))) :
    ∃ form, asked.session.registry.formOf? judgment = some form ∧ outcome.form = form.text ∧
      outcome.formLength =
        (if outcome.form = "" then 0 else (outcome.form.toList.splitOn ' ').length) ∧
      outcome.formLength = form.length ∧
      (∀ n, sc.Passes (earlier ++ [step.withFormLength (some n)]) ↔
        sc.Passes (earlier ++ [step.withFormLength none]) ∧ n = form.length) ∧
      ∃ parts forms, ready.session.registry.Resolves step.components parts ∧
        List.Forall₂ (fun part f => ready.session.registry.formOf? part = some f) parts forms ∧
        form.length = (forms.map Form.length).sum + (step.components.length - 1) := by
  obtain ⟨registry, s, hregistry, hs, hsetup⟩ := exists_setup hlast
  have hcontinues := continues_prepare hs (continues_stateAfter hs hsetup hlast) hready
  have hf := faithful_of_continues (Registry.consistent_ofDeclarations hregistry) hs hcontinues
  obtain ⟨parts, forms, form, hnames, hforms, hform, htext, hsum⟩ :=
    exists_form_of_request hf hrequest
  have hlength : outcome.formLength = form.length := by
    obtain ⟨requests, hsession⟩ := continues_request hcontinues step
    have hspelled := Session.spelled_run hregistry hs requests
    rw [← hsession, hrequest] at hspelled
    rw [outcome.formLength_eq, htext]
    exact (hspelled.forms.formOf? hform).length_text
  have hpasses : ∀ n, sc.Passes (earlier ++ [step.withFormLength n]) ↔
      { step.assertion with formLength := n }.verify step.name (.ok outcome) = .ok () ∧
      asked.Compares judgment true step.assertion.sameAs ∧
      asked.Compares judgment false step.assertion.differsFrom := fun n =>
    passes_concat_iff hlast hready hrequest
  refine ⟨form, hform, htext, outcome.formLength_eq, hlength, fun n => ?_, parts, forms, hnames,
    hforms, hsum⟩
  rw [hpasses, hpasses, Assertion.verify_eq_ok_iff, Assertion.verify_eq_ok_iff,
    Assertion.holds_formLength_iff, hlength]
  tauto

/-- A conjunction that ends in a component without elements, and a conjunction of it. The program
declares a category whose name is two words, and no form is over it. -/
theorem formLength_decides_sample : ∃ (sc : Scenario) (pair nested : Step) (outcome : Outcome),
    sc.Gives [pair] nested ⟨4⟩ outcome ∧ outcome.form = "e1 value and and e2 value" ∧
    outcome.formLength = 6 ∧ sc.Passes [pair, nested.withFormLength (some 6)] ∧
    ¬ sc.Passes [pair, nested.withFormLength (some 5)] := by
  let sc : Scenario :=
    { name := "form length"
      declarations := [.category "e" false {}, .category "two words" false {},
        .judgment "value" "e value" none none {}, .judgment "silent" " " none none {}] }
  let pair : Step :=
    { name := "pair", components := ["value", "silent"], span := {}, assertion := {} }
  let nested : Step :=
    { name := "nested", components := ["and[value,silent]", "value"], span := {}, assertion := {} }
  let outcome : Outcome :=
    { name := "and[and[value,silent],value]", form := "e1 value and and e2 value",
      premises := ["e1 value and", "e2 value"], conclusion := "e1 value and and e2 value",
      fresh := true }
  have hgives : sc.Gives [pair] nested ⟨4⟩ outcome := by decide +kernel
  have hpasses : sc.Passes [pair, nested] := by decide +kernel
  have hsix : outcome.formLength = 6 := by decide +kernel
  obtain ⟨last, ready, asked, hlast, hready, hrequest⟩ := hgives
  obtain ⟨form, _, _, _, hlength, hdecides, _⟩ := formLength_decides hlast hready hrequest
  rw [hsix] at hlength
  refine ⟨sc, pair, nested, outcome, ⟨last, ready, asked, hlast, hready, hrequest⟩, rfl, hsix, ?_,
    fun hfive => ?_⟩
  · exact (hdecides 6).mpr ⟨hpasses, hlength⟩
  · have hlonger : 5 = form.length := ((hdecides 5).mp hfive).2
    rw [← hlength] at hlonger
    cases hlonger

end Scenario
end Inference
