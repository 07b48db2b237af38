import Inference.Proofs.Check.Checker
import Inference.Proofs.Conjunction.Assumption

/-!
# Inference.Proofs.Conjunction.Validation

The checker against a new conjunction. Its rule is always in order: premises keep the shapes of the
forms they come from, and named apart they use each name at one category. All that can be wrong is
that the conjunction assumes something that is not in its form, and then the component that made the
assumption was already wrong in the same way.

* `Makes.judgmentProblems_eq`: what the checker finds in a new conjunction.
* `synthesize_diagnostics`: what the request that makes it reports.
-/

namespace Inference
namespace Registry

open Checker

theorem fitsProduction_of_formOf? {r : Registry} {part : JudgmentId} {c : Clause} {f : Form}
    (hf : r.formOf? part = some f) (hp : r.productionOf? part = some c.production)
    (hs : SameShape f.elements c.elements) : FitsProduction r c := by
  rw [formOf?, hp, Option.bind_some] at hf
  obtain ⟨p, hp, rfl⟩ := Option.map_eq_some_iff.mp hf
  exact ⟨p, hp, hs⟩

theorem fitsProduction_entered {r : Registry} {k : Construction} {clauses : List Clause}
    {c : Clause} (h : FitsProduction r c) : FitsProduction (r.entered k clauses) c := by
  obtain ⟨p, hp, hs⟩ := h
  exact ⟨p, production?_entered hp, hs⟩

end Registry

namespace Workspace

open Checker

variable {w w' : Workspace} {span : Span} {parts : List JudgmentId} {made : Synthesis}
  {forms : List Form} {clauses : List Clause}

theorem Makes.mem_form (h : w.Makes span parts w' made forms clauses) {c : Clause}
    (hc : c ∈ clauses) :
    variablesOf c.elements ⊆ variablesOf (w.construction span parts forms).form.elements := by
  intro v hv
  rw [h.form_elements, Form.variablesOf_joinWith, variablesOf_flatten, List.mem_flatten]
  exact ⟨_, List.mem_map_of_mem (List.mem_map_of_mem hc), hv⟩

theorem Makes.oneCategory (h : w.Makes span parts w' made forms clauses) :
    OneCategory (variablesOf (w.construction span parts forms).form.elements) := by
  have hapart := Form.namedApart_joinWith w.config.separator span h.namedApart
  rw [← h.form_elements] at hapart
  intro u hu v hv hn
  rw [hapart.eq_of_name hu hv hn]

theorem Makes.fitsProduction (h : w.Makes span parts w' made forms clauses) {c : Clause}
    (hc : c ∈ clauses) : FitsProduction w'.registry c := by
  obtain ⟨i, hi, rfl⟩ := List.mem_iff_getElem.mp hc
  have hp : i < parts.length := h.premises.length_eq ▸ hi
  obtain ⟨f, hf, hprod, hshape⟩ := h.premises.get hp hi
  rw [h.registry]
  exact Registry.fitsProduction_entered (Registry.fitsProduction_of_formOf? hf hprod hshape)

theorem Makes.ruleProblems_eq_nil (h : w.Makes span parts w' made forms clauses) :
    ruleProblems w'.registry (w.registry.enteredJudgment (w.construction span parts forms))
      (w.registry.enteredRule (w.construction span parts forms) clauses) = [] := by
  refine Checker.ruleProblems_eq_nil rfl ?_ h.oneCategory ?_
  · intro c hc
    rcases List.mem_append.mp hc with hc | hc
    · exact h.fitsProduction hc
    · cases List.mem_singleton.mp hc
      rw [h.registry]
      exact ⟨_, Registry.production?_entered_new, SameShape.refl _⟩
  · intro c hc
    rcases List.mem_append.mp hc with hc | hc
    · exact h.mem_form hc
    · cases List.mem_singleton.mp hc
      exact List.Subset.refl _

theorem Makes.judgmentProblems_eq (h : w.Makes span parts w' made forms clauses) :
    judgmentProblems w'.registry made.judgment =
      match (w.construction span parts forms).assumption with
      | none => []
      | some nt =>
        if nt.val ∈ variablesOf (w.construction span parts forms).form.elements then []
        else [.ofFault (.assumptionNotInForm (w.construction span parts forms).name nt.val.name)
          nt.span] := by
  have hj : w'.registry.judgment? made.judgment =
      some (w.registry.enteredJudgment (w.construction span parts forms)) := by
    rw [h.registry, h.judgment, Registry.judgment?_entered_new]
  have hp : w'.registry.production? ⟨w.registry.productions.length⟩ = some
      (w.registry.newProduction w.registry.enteredId (w.construction span parts forms).name
        (w.construction span parts forms).form) := by
    rw [h.registry, Registry.production?_entered_new]
  have hd : w'.registry.Declares (w.construction span parts forms).form := by
    rw [h.registry]
    exact h.accepts.form_declared
  rw [judgmentProblems, hj, h.rulesFor]
  simp only [List.flatMap_cons, List.flatMap_nil, h.ruleProblems_eq_nil, List.append_nil]
  exact formProblems_eq rfl hp rfl hd

/-- A conjunction assumes something in its form if the first component that makes an assumption
does. -/
theorem Makes.assumption_mem_form (h : w.Makes span parts w' made forms clauses)
    (hown : ∀ i part m, w.registry.FirstAssumes parts i part m →
      ∃ f, w.registry.formOf? part = some f ∧ m.val ∈ variablesOf f.elements) {nt : Nonterminal}
    (hnt : (w.construction span parts forms).assumption = some nt) :
    nt.val ∈ variablesOf (w.construction span parts forms).form.elements := by
  have hnt : Registry.conjoinedAssumption (w.registry.agree parts span)
    (w.registry.renamedForms parts span forms) = some nt := hnt
  cases ha : (w.registry.agree parts span).assumption with
  | none =>
    rw [Registry.conjoinedAssumption_eq_none ha] at hnt
    cases hnt
  | some m =>
    obtain ⟨i, part, hfirst⟩ := Registry.exists_firstAssumes ha
    obtain ⟨f, hf, hm⟩ := hown i part m hfirst
    have hfi := h.getElem?_form hfirst.getElem? hf
    by_cases hc : w.registry.sharedContext parts span = some m.val
    · rw [Registry.conjoinedAssumption_eq_self ha hc] at hnt
      cases hnt
      obtain ⟨hi, rfl⟩ := List.getElem?_eq_some_iff.mp hfi
      have hi' := h.replaces.length_eq ▸ hi
      obtain ⟨c, hci, he⟩ := h.getElem?_premise.mp (List.getElem?_eq_getElem hi')
      refine h.mem_form (List.mem_of_getElem? hci) ?_
      rw [he]
      exact context_mem_of_replaces (h.replaces.get hi hi') hc hm
    · obtain ⟨j, g, _, hgj, hmg, hbefore⟩ := Registry.exists_first_form hfi hm
      obtain ⟨es, nt', hes, hnt', hstands, _⟩ :=
        Registry.conjoinedAssumption_standsFor ha hc hgj hmg hbefore
      cases hnt'.symm.trans hnt
      obtain ⟨c, hcj, rfl⟩ := h.getElem?_premise.mp hes
      exact h.mem_form (List.mem_of_getElem? hcj) hstands.mem

theorem Makes.judgmentProblems_eq_nil (h : w.Makes span parts w' made forms clauses)
    (hown : ∀ i part m, w.registry.FirstAssumes parts i part m →
      ∃ f, w.registry.formOf? part = some f ∧ m.val ∈ variablesOf f.elements) :
    judgmentProblems w'.registry made.judgment = [] := by
  rw [h.judgmentProblems_eq]
  split
  · rfl
  · rename_i nt hnt
    rw [if_pos (h.assumption_mem_form hown hnt)]

/-- What a request reports when it makes a conjunction and validates it: the disagreements of the
components, then at most that the conjunction assumes something that is not in its form. Not even
that if the first component that makes an assumption has it in its own form. -/
theorem synthesize_diagnostics (h : w.synthesize span parts = (w', .ok made))
    (hfresh : made.fresh = true) (hvalidate : w.config.validate = true) :
    ∃ j problems, w'.registry.judgment? made.judgment = some j ∧
      problems = (Checker.checkJudgment w'.registry .empty made.judgment).1.problems ∧
      made.diagnostics =
        (w.registry.agree parts span).diagnostics ++ problems.map Problem.diagnostic ∧
      (problems = [] ∨ ∃ nt, j.assumption = some nt ∧
        problems = [.ofFault (.assumptionNotInForm j.name nt.val.name) nt.span]) ∧
      ((∀ i part m, w.registry.FirstAssumes parts i part m →
          ∃ f, w.registry.formOf? part = some f ∧ .nonterminal m.val ∈ f.symbols) →
        problems = []) := by
  obtain ⟨forms, clauses, hmakes⟩ := makes_of_synthesize h hfresh
  refine ⟨w.registry.enteredJudgment (w.construction span parts forms),
    judgmentProblems w'.registry made.judgment, ?_, ?_, ?_, ?_, ?_⟩
  · rw [hmakes.registry, hmakes.judgment, Registry.judgment?_entered_new]
  · rw [checkJudgment_eq _ rfl]
    rfl
  · rw [hmakes.diagnostics, if_pos hvalidate, Registry.check_eq]
  · rw [hmakes.judgmentProblems_eq]
    split
    · exact .inl rfl
    · rename_i nt hnt
      split
      · exact .inl rfl
      · exact .inr ⟨nt, hnt, rfl⟩
  · intro hown
    refine hmakes.judgmentProblems_eq_nil fun i part m hfirst => ?_
    obtain ⟨f, hf, hm⟩ := hown i part m hfirst
    exact ⟨f, hf, Form.mem_symbols_nonterminal.mp hm⟩

theorem synthesize_diagnostics_sample : ∃ w' made,
    Workspace.synthesize { registry := .sample } {} [⟨0⟩, ⟨1⟩] = (w', .ok made) ∧
    made.fresh = true ∧ made.diagnostics = [] := by
  obtain ⟨w', made, h, hfresh⟩ := exists_synthesize_sample
  obtain ⟨j, problems, _, _, hdiag, _, hnil⟩ := synthesize_diagnostics h hfresh rfl
  have hown : ∀ i part m, Registry.sample.FirstAssumes [⟨0⟩, ⟨1⟩] i part m →
      ∃ f, Registry.sample.formOf? part = some f ∧ .nonterminal m.val ∈ f.symbols := by
    rintro i part m ⟨hi, hm, _⟩
    match i, hi with
    | 0, hi => cases hi; cases hm
    | 1, hi => cases hi; cases hm; exact ⟨_, rfl, by decide⟩
  rw [hnil hown] at hdiag
  exact ⟨w', made, h, hfresh, hdiag⟩

end Workspace
end Inference
