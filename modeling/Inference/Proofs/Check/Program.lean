import Inference.Proofs.Registry.Declared
import Inference.Proofs.Registry.Extends

/-!
# Inference.Proofs.Check.Program

What can be wrong with a program that is made of declarations. Texts are read against the table as
it stands, so the same word may be read in two ways in two declarations; but a rule is read as a
whole against one table, and what was read stays as it was. So a word that is used at two categories
in one rule, or a rule that concludes another judgment, cannot be declared.

* `declareEach`: the table after any declarations, whether or not they fail.
* `Regular`: every judgment has a form, every rule concludes its own judgment and uses each name at
  one category; `Regular.declare`, `Regular.declareEach`: one declaration keeps it, so all do.
* `Fault.IsDiscrepancy`: a judgment or a clause differs from the form it should be an instance of.
* `declareEach_discrepancies`: the checker finds nothing else in the table.
-/

namespace Inference

/-- An assumption that is not in the form of its judgment, or a clause that differs from the form of
its production, in length or at a place. -/
inductive Fault.IsDiscrepancy : Fault → Prop where
  | assumption (judgment name : String) : IsDiscrepancy (.assumptionNotInForm judgment name)
  | arity (clause : String) (expected actual : Nat) :
      IsDiscrepancy (.arityMismatch clause expected actual)
  | element (clause expected actual : String) :
      IsDiscrepancy (.elementMismatch clause expected actual)

theorem Fault.IsDiscrepancy.recoverable {fault : Fault} (h : fault.IsDiscrepancy) :
    fault.severity = .recoverable := by
  cases h <;> rfl

/-- The variables in the clauses of a rule, one for each occurrence. -/
def Rule.variables (rule : Rule) : List Variable :=
  rule.clauses.flatMap fun clause => variablesOf clause.elements

namespace Registry

open Checker

variable {r r' : Registry}

/-- Makes declarations one after the other, and passes over those that fail. -/
def declareEach (r : Registry) (ds : List Declaration) : Registry :=
  ds.foldl (fun r d => (r.declare d).1) r

theorem declareEach_cons (r : Registry) (d : Declaration) (ds : List Declaration) :
    r.declareEach (d :: ds) = (r.declare d).1.declareEach ds := rfl

/-- The rule concludes an instance of the form of its judgment, and each name in it is over one
category. -/
structure RegularRule (r : Registry) (rule : Rule) : Prop where
  conclusion : r.productionOf? rule.judgment = some rule.conclusion.production
  oneCategory : OneCategory rule.variables

/-- Every judgment has a form, and every rule is regular. -/
structure Regular (r : Registry) : Prop where
  consistent : r.Consistent
  formed : ∀ j ∈ r.judgments, j.production.isSome
  rules : ∀ rule ∈ r.rules, r.RegularRule rule

theorem regular_empty : Registry.empty.Regular where
  consistent := consistent_empty
  formed := by simp [Registry.empty]
  rules := by simp [Registry.empty]

theorem RegularRule.of_extends {rule : Rule} (h : r.RegularRule rule) (he : r.Extends r') :
    r'.RegularRule rule :=
  ⟨he.productionOf? h.conclusion, h.oneCategory⟩

theorem oneCategory_of_readAs {rule : Rule} (h : ∀ clause ∈ rule.clauses, r.ReadAs clause) :
    OneCategory rule.variables := by
  have hread : ∀ v ∈ rule.variables, r.categoryOfWord? v.name = some v.category := by
    intro v hv
    obtain ⟨clause, hclause, hv⟩ := List.mem_flatMap.mp hv
    exact h clause hclause v hv
  intro u hu v hv hname
  have hcategory : some u.category = some v.category := by
    rw [← hread u hu, ← hread v hv, hname]
  exact Option.some.inj hcategory

theorem regular_of_step (hr : r.Regular) (hs : Steps r r')
    (hformed : ∀ j ∈ r'.judgments, j.production.isSome)
    (hrules : ∀ rule ∈ r'.rules, rule ∈ r.rules ∨ r.RegularRule rule) : r'.Regular where
  consistent := consistent_of_steps hr.consistent hs
  formed := hformed
  rules rule hrule := by
    have he := extends_of_steps hs
    rcases hrules rule hrule with hold | hnew
    · exact (hr.rules rule hold).of_extends he
    · exact hnew.of_extends he

/-- A declaration, accepted or not, keeps a table regular. -/
theorem Regular.declare (hr : r.Regular) {d : Declaration} (hd : d.isPlaceholder = false) :
    (r.declare d).1.Regular := by
  have hs := steps_declare r d
  cases d with
  | category name isContext span =>
    rcases (r.addCategory_atomic name isContext span).cases with ⟨e, hadd⟩ | ⟨added, id, hadd⟩
    · simp only [Registry.declare, hadd]
      exact hr
    · simp only [Registry.declare, hadd] at hs ⊢
      obtain ⟨_, _, rfl⟩ := addCategory_eq_ok_iff.mp hadd
      exact regular_of_step hr hs hr.formed fun rule hrule => .inl hrule
  | judgment name form assumes productionName span =>
    rcases hr.consistent.declareJudgment_cases name form assumes productionName span with
      ⟨e, he⟩ | ⟨assumption, _, _, hok⟩
    · simp only [Registry.declare, he]
      exact hr
    · simp only [Registry.declare, hok] at hs ⊢
      refine regular_of_step hr hs (fun j hj => ?_) fun rule hrule => .inl hrule
      rcases List.mem_append.mp hj with hj | hj
      · exact hr.formed j hj
      · cases List.mem_singleton.mp hj
        rfl
  | rule name judgment premises conclusion span =>
    rcases r.declareRule_cases name judgment premises conclusion span with
      ⟨e, he⟩ | ⟨id, clauses, clause, added, rid, hp, hread, hadd, hok⟩
    · simp only [Registry.declare, he]
      exact hr
    · simp only [Registry.declare, hok] at hs ⊢
      obtain ⟨_, _, _, rfl⟩ := addRule_eq_ok_iff.mp hadd
      refine regular_of_step hr hs (fun j hj => ?_) fun rule hrule => ?_
      · rcases mem_modify hj with hj | ⟨j', hj', rfl⟩
        · exact hr.formed j hj
        · exact hr.formed j' hj'
      · rcases List.mem_append.mp hrule with hrule | hrule
        · exact .inl hrule
        · cases List.mem_singleton.mp hrule
          exact .inr ⟨hp, oneCategory_of_readAs hread⟩
  | placeholder name => cases hd

theorem Regular.declareEach (hr : r.Regular) {ds : List Declaration}
    (hds : ∀ d ∈ ds, d.isPlaceholder = false) : (r.declareEach ds).Regular := by
  induction ds generalizing r with
  | nil => exact hr
  | cons d ds ih =>
    obtain ⟨hd, hds⟩ := List.forall_mem_cons.mp hds
    rw [declareEach_cons]
    exact ih (hr.declare hd) hds

theorem Regular.complete (hr : r.Regular) : r.complete = .ok r := by
  have hnone : r.judgments.find? (·.isPlaceholder) = none := by
    rw [List.find?_eq_none]
    intro j hj
    obtain ⟨production, hproduction⟩ := Option.isSome_iff_exists.mp (hr.formed j hj)
    simp [Judgment.isPlaceholder, hproduction]
  simp only [Registry.complete, hnone]

theorem shapeProblems_discrepant {form : Form} {clause : Clause} {p : Problem}
    (h : p ∈ shapeProblems r form clause) : p.fault.IsDiscrepancy := by
  rw [shapeProblems] at h
  split at h
  · obtain ⟨pair, _, hp⟩ := List.mem_filterMap.mp h
    dsimp only at hp
    split at hp
    · cases hp
    · cases hp
      exact .element _ _ _
  · cases List.mem_singleton.mp h
    exact .arity _ _ _

theorem Consistent.clauseProblems_discrepant (hr : r.Consistent) {rule : Rule}
    (hrule : rule ∈ r.rules) {clause : Clause} (hclause : clause ∈ rule.clauses) {p : Problem}
    (h : p ∈ clauseProblems r clause) : p.fault.IsDiscrepancy := by
  obtain ⟨production, hproduction⟩ :=
    Option.isSome_iff_exists.mp (hr.clauses_known rule hrule clause hclause)
  simp only [clauseProblems, hproduction] at h
  exact shapeProblems_discrepant h

theorem Consistent.formProblems_discrepant (hr : r.Consistent) {j : Judgment}
    (hj : j ∈ r.judgments) (hformed : j.production.isSome) {p : Problem}
    (h : p ∈ formProblems r j) : p.fault.IsDiscrepancy := by
  obtain ⟨id, hid⟩ := Option.isSome_iff_exists.mp hformed
  have hof : r.productionOf? j.id = some id :=
    productionOf?_eq_some_iff.mpr ⟨j, hr.judgment?_of_mem hj, hid⟩
  obtain ⟨production, hp, hjudgment⟩ :=
    Option.map_eq_some_iff.mp ((hr.production_iff j.id id).mp hof)
  rw [formProblems_eq hid hp hjudgment
    (hr.forms_declared production (List.mem_of_getElem? hp))] at h
  split at h
  · cases h
  · split at h
    · cases h
    · cases List.mem_singleton.mp h
      exact .assumption _ _

theorem Regular.ruleProblems_discrepant (hr : r.Regular) {j : Judgment} (hj : j ∈ r.judgments)
    {rule : Rule} (hrule : rule ∈ r.rulesFor j.id) {p : Problem}
    (h : p ∈ ruleProblems r j rule) : p.fault.IsDiscrepancy := by
  rw [hr.consistent.rulesFor_eq_filter, List.mem_filter] at hrule
  obtain ⟨hrule, hjudgment⟩ := hrule
  have hregular := hr.rules rule hrule
  have hconclusion : j.production = some rule.conclusion.production := by
    have hof := hregular.conclusion
    rw [of_decide_eq_true hjudgment, productionOf?, hr.consistent.judgment?_of_mem hj] at hof
    exact hof
  have hvs : ∀ clause ∈ rule.clauses, variablesOf clause.elements ⊆ rule.variables :=
    fun clause hclause v hv => List.mem_flatMap.mpr ⟨clause, hclause, hv⟩
  rw [ruleProblems_of_oneCategory j hregular.oneCategory hvs, conclusionProblems, if_pos hconclusion,
    List.nil_append] at h
  obtain ⟨clause, hclause, hp⟩ := List.mem_flatMap.mp h
  exact hr.consistent.clauseProblems_discrepant hrule hclause hp

def problems (r : Registry) : List Problem :=
  (checkJudgments r .empty (r.judgments.map (·.id))).1.problems

theorem problems_eq (r : Registry) :
    r.problems = r.judgments.flatMap fun j => judgmentProblems r j.id := by
  rw [problems, checkJudgments_eq r rfl]
  simp [add, Checker.empty, List.flatMap_map]

theorem Regular.discrepant (hr : r.Regular) {p : Problem} (h : p ∈ r.problems) :
    p.fault.IsDiscrepancy := by
  rw [problems_eq] at h
  obtain ⟨j, hj, hp⟩ := List.mem_flatMap.mp h
  simp only [judgmentProblems, hr.consistent.judgment?_of_mem hj] at hp
  rcases List.mem_append.mp hp with hform | hrules
  · exact hr.consistent.formProblems_discrepant hj (hr.formed j hj) hform
  · obtain ⟨rule, hrule, hp⟩ := List.mem_flatMap.mp hrules
    exact hr.ruleProblems_discrepant hj hrule hp

/-! ## The tables of programs -/

/-- After any declarations of categories, judgments and rules, in any order and with any names and
texts, those that fail included: a further declaration that fails leaves the table as it was; no
judgment lacks a form, so the table is handed over; and what the checker tells of the table are its
problems, one after the other, each of them a discrepancy and recoverable. -/
theorem declareEach_discrepancies (ds : List Declaration)
    (hds : ∀ d ∈ ds, d.isPlaceholder = false) :
    (∀ d e, ((Registry.empty.declareEach ds).declare d).2 = .error e →
      ((Registry.empty.declareEach ds).declare d).1 = Registry.empty.declareEach ds) ∧
    (Registry.empty.declareEach ds).complete = .ok (Registry.empty.declareEach ds) ∧
    (Registry.empty.declareEach ds).checkAll =
      ((Registry.empty.declareEach ds).problems.map Problem.diagnostic,
        (Registry.empty.declareEach ds).problems.length) ∧
    ∀ p ∈ (Registry.empty.declareEach ds).problems,
      p.fault.IsDiscrepancy ∧ p.diagnostic.severity = .recoverable := by
  have hr : (Registry.empty.declareEach ds).Regular := regular_empty.declareEach hds
  refine ⟨fun d e he => hr.consistent.declare_of_error he, hr.complete, ?_, fun p hp => ?_⟩
  · rw [checkAll_eq, problems_eq]
  · have hfault := hr.discrepant hp
    exact ⟨hfault, hfault.recoverable⟩

/-- `t1` is a variable over `t` until there is a category of that name. A rule that uses the word
afterwards differs from the form in which it was read before, and so does one that leaves it out;
one judgment assumes a variable that it does not have. The second `t`, and a judgment that assumes
what is no variable, fail. -/
theorem declareEach_discrepancies_sample : ∃ ds : List Declaration,
    (∀ d ∈ ds, d.isPlaceholder = false) ∧
    (Registry.empty.declareEach ds).complete = .ok (Registry.empty.declareEach ds) ∧
    (Registry.empty.declareEach ds).problems.map (·.fault) =
      [.elementMismatch "t1 halts" "t" "t1", .elementMismatch "t1 halts" "t" "t1",
        .arityMismatch "halts" 2 1, .assumptionNotInForm "typing" "t2"] ∧
    (∀ p ∈ (Registry.empty.declareEach ds).problems,
      p.fault.IsDiscrepancy ∧ p.diagnostic.severity = .recoverable) ∧
    ∃ d, ((Registry.empty.declareEach ds).declare d).2 = .error (.unknownJudgmentName "runs") ∧
      ((Registry.empty.declareEach ds).declare d).1 = Registry.empty.declareEach ds := by
  let ds : List Declaration := [.category "t" false {}, .category "t" true {},
    .judgment "halting" "t1 halts" none none {}, .category "t1" false {},
    .rule "late" "halting" [("halting", "t1 halts")] (some "t1 halts") {},
    .rule "short" "halting" [] (some "halts") {},
    .judgment "running" "t runs" (some "runs") none {},
    .judgment "typing" "t : t1" (some "t2") none {}]
  have hds : ∀ d ∈ ds, d.isPlaceholder = false := by decide
  obtain ⟨hkept, hcomplete, _, hproblems⟩ := declareEach_discrepancies ds hds
  let d : Declaration := .rule "step" "halting" [("runs", "t runs")] (some "t halts") {}
  have hfails : ((Registry.empty.declareEach ds).declare d).2 =
      .error (.unknownJudgmentName "runs") := by decide +kernel
  exact ⟨ds, hds, hcomplete, by decide +kernel, hproblems, d, hfails, hkept d _ hfails⟩

end Registry
end Inference
