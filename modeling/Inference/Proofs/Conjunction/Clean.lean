import Inference.Proofs.Conjunction.Acceptance
import Inference.Proofs.Conjunction.Validation
import Inference.Proofs.Registry.Lookup

/-!
# Inference.Proofs.Conjunction.Clean

Conjunctions keep a clean table clean. The judgments that were there are checked as before, since
none of the entries they refer to changes; and a conjunction of judgments without problems has none.

* `judgmentProblems_entered`: a conjunction leaves the problems of every older judgment as they are.
* `clean_synthesize`: no request brings in a problem.
-/

namespace Inference
namespace Registry

open Checker

variable {r : Registry} {k : Construction} {clauses : List Clause}

theorem rulesFor_entered (hr : r.Consistent) {id : JudgmentId} {j : Judgment}
    (hj : r.judgment? id = some j) : (r.entered k clauses).rulesFor id = r.rulesFor id := by
  rw [rulesFor, rulesFor, judgment?_entered hj, hj]
  refine List.filterMap_congr fun rid hrid => ?_
  obtain ⟨rule, hrule⟩ := Option.isSome_iff_exists.mp (hr.isSome_rule? hj hrid)
  rw [rule?_entered hrule, hrule]

theorem checkClause_entered (c : Checker) {clause : Clause}
    (h : (r.production? clause.production).isSome) :
    checkClause (r.entered k clauses) c clause = checkClause r c clause := by
  obtain ⟨p, hp⟩ := Option.isSome_iff_exists.mp h
  simp only [checkClause, production?_entered hp, hp]
  rfl

theorem foldl_checkClause_entered (c : Checker) (cs : List Clause)
    (h : ∀ clause ∈ cs, (r.production? clause.production).isSome) :
    cs.foldl (checkClause (r.entered k clauses)) c = cs.foldl (checkClause r) c := by
  induction cs generalizing c with
  | nil => rfl
  | cons clause cs ih =>
    rw [List.foldl_cons, List.foldl_cons, checkClause_entered c (h clause (List.mem_cons_self ..)),
      ih _ fun clause hc => h clause (List.mem_cons_of_mem _ hc)]

theorem ruleProblems_entered (j : Judgment) {rule : Rule}
    (h : ∀ clause ∈ rule.clauses, (r.production? clause.production).isSome) :
    ruleProblems (r.entered k clauses) j rule = ruleProblems r j rule := by
  simp only [ruleProblems, checkRule]
  rw [foldl_checkClause_entered _ _ h]

theorem formProblems_entered {j : Judgment}
    (h : ∀ p, j.production = some p → (r.production? p).isSome) :
    formProblems (r.entered k clauses) j = formProblems r j := by
  simp only [formProblems]
  cases hp : j.production with
  | none => rfl
  | some id =>
    obtain ⟨p, hp⟩ := Option.isSome_iff_exists.mp (h id hp)
    simp only [production?_entered hp, hp]
    rfl

theorem judgmentProblems_entered (hr : r.Consistent) {id : JudgmentId} {j : Judgment}
    (hj : r.judgment? id = some j) :
    judgmentProblems (r.entered k clauses) id = judgmentProblems r id := by
  simp only [judgmentProblems, judgment?_entered hj, hj, rulesFor_entered hr hj]
  rw [formProblems_entered fun p hp => hr.isSome_production? hj hp]
  congr 1
  refine List.flatMap_congr fun rule hrule => ?_
  exact ruleProblems_entered j (hr.clauses_known rule (mem_rules_of_mem_rulesFor hrule))

theorem clean_entered (hr : r.Consistent) (hc : r.Clean)
    (hnew : judgmentProblems (r.entered k clauses) r.enteredId = []) :
    (r.entered k clauses).Clean := by
  intro j hj
  rcases List.mem_append.mp hj with hj | hj
  · rw [judgmentProblems_entered hr (hr.judgment?_of_mem hj)]
    exact hc j hj
  · cases List.mem_singleton.mp hj
    exact hnew

/-! ## New conjunctions -/

/-- A judgment without problems assumes only what is in its form. -/
theorem Clean.assumption_mem_formOf? (hc : r.Clean) (hr : r.Consistent) {id : JudgmentId}
    {m : Nonterminal} (ha : r.assumptionOf? id = some m) :
    ∃ f, r.formOf? id = some f ∧ m.val ∈ variablesOf f.elements := by
  obtain ⟨j, hj, ha⟩ := Option.bind_eq_some_iff.mp ha
  have hnil := hc j (List.mem_of_getElem? hj)
  rw [judgmentProblems, hr.judgment?_id hj, hj] at hnil
  obtain ⟨hform, _⟩ := List.append_eq_nil_iff.mp hnil
  obtain ⟨pid, p, hpid, hp, hm⟩ := assumption_mem_of_formProblems_eq_nil hform ha
  have hof : r.productionOf? id = some pid := productionOf?_eq_some_iff.mpr ⟨j, hj, hpid⟩
  exact ⟨p.form, formOf?_eq_some_iff.mpr ⟨pid, p, hof, hp, rfl⟩, hm⟩

end Registry

namespace Workspace

variable {w w' : Workspace} {span : Span} {parts : List JudgmentId}

theorem clean_synthesize (hr : w.registry.Consistent) (hc : w.registry.Clean) (span : Span)
    (parts : List JudgmentId) : (w.synthesize span parts).1.registry.Clean := by
  refine holds_synthesize (P := fun w => w.registry.Clean) hr hc
    fun w' made forms clauses _ hmakes => ?_
  have hnil := hmakes.judgmentProblems_eq_nil fun i part m hfirst =>
    hc.assumption_mem_formOf? hr hfirst.assumption
  rw [hmakes.registry, hmakes.judgment] at hnil
  rw [hmakes.registry]
  exact Registry.clean_entered hr hc hnil

end Workspace
end Inference
