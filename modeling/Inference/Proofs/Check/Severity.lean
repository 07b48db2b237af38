import Inference.Proofs.Check.Checker

/-!
# Inference.Proofs.Check.Severity

Which problems are fatal. A fatal problem is about a handle that leads nowhere. Where a judgment has
its production in the table and the clauses of its rules have theirs, the checker finds recoverable
problems only, whatever else is wrong.

* `Recoverable`: no problem among the given ones is fatal.
* `formProblems_recoverable`, `ruleProblems_recoverable`: the two sources of problems.
-/

namespace Inference
namespace Checker

def Recoverable (problems : List Problem) : Prop := ∀ p ∈ problems, p.severity = .recoverable

theorem recoverable_nil : Recoverable [] := fun _ h => by cases h

theorem recoverable_append {ps qs : List Problem} (hp : Recoverable ps) (hq : Recoverable qs) :
    Recoverable (ps ++ qs) := List.forall_mem_append.mpr ⟨hp, hq⟩

theorem recoverable_singleton {p : Problem} (h : p.severity = .recoverable) : Recoverable [p] :=
  List.forall_mem_singleton.mpr h

variable {r : Registry}

theorem productionProblems_recoverable (j : Judgment) (p : Production) :
    Recoverable (productionProblems r j p) := by
  refine recoverable_append (recoverable_append ?foreign ?undeclared) ?assumption
  case foreign =>
    split
    · exact recoverable_nil
    · exact recoverable_singleton rfl
  case undeclared =>
    intro q hq
    obtain ⟨nt, _, hnt⟩ := List.mem_filterMap.mp hq
    split at hnt
    · cases hnt
    · cases hnt; rfl
  case assumption =>
    split
    · exact recoverable_nil
    · split
      · exact recoverable_nil
      · exact recoverable_singleton rfl

theorem formProblems_recoverable {j : Judgment}
    (h : ∀ p, j.production = some p → (r.production? p).isSome) :
    Recoverable (formProblems r j) := by
  rw [formProblems]
  split
  · exact recoverable_singleton rfl
  · rename_i id hid
    obtain ⟨p, hp⟩ := Option.isSome_iff_exists.mp (h id hid)
    rw [hp]
    exact productionProblems_recoverable j p

/-! ## Rules -/

theorem shapeProblems_recoverable (form : Form) (clause : Clause) :
    Recoverable (shapeProblems r form clause) := by
  rw [shapeProblems]
  split
  · intro q hq
    obtain ⟨⟨want, got⟩, _, hmismatch⟩ := List.mem_filterMap.mp hq
    dsimp only at hmismatch
    split at hmismatch
    · cases hmismatch
    · cases hmismatch; rfl
  · exact recoverable_singleton rfl

theorem conclusionProblems_recoverable (j : Judgment) (rule : Rule) :
    Recoverable (conclusionProblems j rule) := by
  rw [conclusionProblems]
  split
  · exact recoverable_nil
  · exact recoverable_singleton rfl

theorem checkVariable_recoverable {c : Checker} (hc : Recoverable c.problems) (nt : Nonterminal) :
    Recoverable (checkVariable r c nt).problems := by
  rw [checkVariable]
  split
  · exact hc
  · split
    · exact hc
    · exact recoverable_append hc (recoverable_singleton rfl)

theorem foldl_checkVariable_recoverable {c : Checker} (hc : Recoverable c.problems)
    (nts : List Nonterminal) : Recoverable (nts.foldl (checkVariable r) c).problems := by
  induction nts generalizing c with
  | nil => exact hc
  | cons nt nts ih => exact ih (checkVariable_recoverable hc nt)

/-- A clause whose production is in the table brings in nothing fatal. -/
theorem checkClause_recoverable {c : Checker} (hc : Recoverable c.problems) {clause : Clause}
    (h : (r.production? clause.production).isSome) :
    Recoverable (checkClause r c clause).problems := by
  obtain ⟨p, hp⟩ := Option.isSome_iff_exists.mp h
  rw [checkClause, hp]
  exact foldl_checkVariable_recoverable
    (recoverable_append hc (shapeProblems_recoverable p.form clause)) _

theorem foldl_checkClause_recoverable {c : Checker} (hc : Recoverable c.problems)
    {clauses : List Clause}
    (h : ∀ clause ∈ clauses, (r.production? clause.production).isSome) :
    Recoverable (clauses.foldl (checkClause r) c).problems := by
  induction clauses generalizing c with
  | nil => exact hc
  | cons clause clauses ih =>
    obtain ⟨hfirst, hrest⟩ := List.forall_mem_cons.mp h
    exact ih (checkClause_recoverable hc hfirst) hrest

theorem ruleProblems_recoverable (j : Judgment) {rule : Rule}
    (h : ∀ clause ∈ rule.clauses, (r.production? clause.production).isSome) :
    Recoverable (ruleProblems r j rule) :=
  foldl_checkClause_recoverable
    (recoverable_append recoverable_nil (conclusionProblems_recoverable j rule)) h

end Checker
end Inference
