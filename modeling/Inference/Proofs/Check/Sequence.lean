import Inference.Proofs.Registry.Lookup
import Mathlib.Algebra.GroupWithZero.Nat

/-!
# Inference.Proofs.Check.Sequence

Judgments checked one after the other with the same checker. A rule leaves no variable behind in the
scope, so each judgment is checked as if by a new checker, and what is found in it stands in one
piece among what is found in all of them.

* `found`: what a new checker finds in one judgment.
* `checkJudgments_independent`: what is found in a sequence of judgments, and in all of a table.
-/

namespace Inference
namespace Checker

def found (r : Registry) (id : JudgmentId) : List Problem := (checkJudgment r .empty id).1.problems

theorem found_eq_judgmentProblems (r : Registry) : found r = judgmentProblems r := by
  funext id
  rw [found, checkJudgment_eq r rfl]
  exact List.nil_append _

theorem add_empty (problems : List Problem) : empty.add problems = { problems } := by
  rw [add, empty, List.nil_append]

/-- Judgments do not bear on each other when they are checked in turn, in whatever order, the
unknown and the repeated among them. The problems are those a new checker finds in each of them,
one judgment after the other, and each count is that of its own judgment; no variable stays in the
scope. So checking a table tells what checking each of its judgments tells, in the order of their
handles, and the counts add up. -/
theorem checkJudgments_independent (r : Registry) :
    (∀ ids, checkJudgments r .empty ids =
      ({ problems := ids.flatMap (found r), scope := .empty },
        ids.map fun id => (found r id).length)) ∧
    (∀ id, r.check id = ((found r id).map Problem.diagnostic, (found r id).length)) ∧
    r.checkAll = (r.judgments.flatMap fun j => (r.check j.id).1,
      (r.judgments.map fun j => (r.check j.id).2).sum) ∧
    (r.Reachable → r.judgments.map (·.id) = (List.range r.judgments.length).map Handle.mk) := by
  rw [found_eq_judgmentProblems]
  refine ⟨fun ids => ?_, r.check_eq, ?_, fun hr => ?_⟩
  · rw [checkJudgments_eq r rfl, add_empty]
    rfl
  · have hcheck : r.check = fun id => ((judgmentProblems r id).map Problem.diagnostic,
        (judgmentProblems r id).length) := funext r.check_eq
    rw [Registry.checkAll_eq, hcheck, List.map_flatMap, List.length_flatMap]
  · have hids := hr.consistent.judgment_ids
    rwa [Registry.Positions, List.length_map] at hids

/-- The name `x` is used at two categories in the first rule of the halting judgment, which is
checked twice, at one of them in its second rule and at the other in the rule for typing. -/
theorem checkJudgments_independent_sample : ∃ r : Registry, r.Reachable ∧
    (checkJudgments r .empty [⟨1⟩, ⟨9⟩, ⟨0⟩, ⟨1⟩]).2 = [1, 1, 0, 1] ∧
    (checkJudgments r .empty [⟨1⟩, ⟨9⟩, ⟨0⟩, ⟨1⟩]).1.problems =
      found r ⟨1⟩ ++ found r ⟨9⟩ ++ found r ⟨1⟩ ∧
    r.judgments.map (·.id) = [⟨0⟩, ⟨1⟩] ∧ r.checkAll.2 = 1 := by
  let named (name : String) (category : Nat) : Element :=
    .ofNonterminal ⟨⟨name, ⟨category⟩⟩, {}⟩
  let typing : Clause :=
    { elements := [named "Gamma" 0, .terminal "|-" {}, named "e" 1, .terminal ":" {}, named "x" 2]
      span := {}, production := ⟨0⟩ }
  let halting : Clause :=
    { elements := [named "x" 1, .terminal "halts" {}], span := {}, production := ⟨1⟩ }
  let writes : List Write := [.addRule "mixed" ⟨1⟩ [typing] halting {},
    .addRule "plain" ⟨1⟩ [] halting {}, .addRule "typed" ⟨0⟩ [typing] typing {}]
  have h : (Registry.sample.run writes).Reachable :=
    ⟨Registry.typingAndHalting ++ writes, List.foldl_append⟩
  obtain ⟨hturn, _, hall, hids⟩ := checkJudgments_independent (Registry.sample.run writes)
  have hcounts : ([⟨1⟩, ⟨9⟩, ⟨0⟩, ⟨1⟩] : List JudgmentId).map
      (fun id => (found (Registry.sample.run writes) id).length) = [1, 1, 0, 1] := by
    decide +kernel
  have hnothing : found (Registry.sample.run writes) ⟨0⟩ = [] := by decide +kernel
  refine ⟨_, h, by rw [hturn, hcounts], ?_, (hids h).trans (by decide +kernel), ?_⟩
  · rw [hturn]
    simp [hnothing]
  · rw [hall]
    decide +kernel

end Checker
end Inference
