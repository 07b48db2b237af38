import Inference.Proofs.Form
import Inference.Proofs.Registry.Write

/-!
# Inference.Proofs.Check.Checker

What the checker finds, as lists of problems that depend on the table and the judgment alone. The
checker carries the problems found so far and a scope; no step looks at the former (`Accumulates`),
and a rule leaves the latter as it was.

* `judgmentProblems`: the problems of one judgment.
* `check_eq`, `checkAll_eq`: checking gives exactly these, judgment by judgment.
* `ruleProblems_of_oneCategory`: a rule in which each name has one category has the problems of its
  conclusion and of the shapes of its clauses, and no other.
* `ruleProblems_eq_nil`: such a rule is fine when its clauses have the shapes of their productions.
-/

namespace Inference
namespace Checker

/-- The checker with problems found earlier. -/
def after (c : Checker) (earlier : List Problem) : Checker :=
  { c with problems := earlier ++ c.problems }

/-- A step of the checker that adds to the problems found and does not look at them. -/
def Accumulates {α : Type} (step : Checker → α → Checker) : Prop :=
  ∀ c a earlier, step (c.after earlier) a = (step c a).after earlier

theorem after_add (c : Checker) (earlier problems : List Problem) :
    (c.after earlier).add problems = (c.add problems).after earlier := by
  simp [after, add]

theorem Accumulates.foldl {α : Type} {step : Checker → α → Checker} (h : Accumulates step)
    (as : List α) (c : Checker) (earlier : List Problem) :
    as.foldl step (c.after earlier) = (as.foldl step c).after earlier := by
  induction as generalizing c with
  | nil => rfl
  | cons a as ih => rw [List.foldl_cons, List.foldl_cons, h, ih]

theorem accumulates_checkVariable (r : Registry) : Accumulates (checkVariable r) := by
  intro c nt earlier
  simp only [checkVariable, after]
  split
  · rfl
  · split
    · rfl
    · simp [add]

theorem accumulates_checkClause (r : Registry) : Accumulates (checkClause r) := by
  intro c clause earlier
  simp only [checkClause]
  split
  · rw [after_add]
  · rw [after_add, (accumulates_checkVariable r).foldl]

theorem accumulates_checkRule (r : Registry) (j : Judgment) : Accumulates (checkRule r j) := by
  intro c rule earlier
  let opened : Checker := { c.add (conclusionProblems j rule) with scope := c.scope.push }
  have he : ({ (c.after earlier).add (conclusionProblems j rule) with
      scope := (c.after earlier).scope.push } : Checker) = opened.after earlier := by
    rw [after_add]
    rfl
  simp only [checkRule, he]
  rw [(accumulates_checkClause r).foldl]
  rfl

theorem checkVariable_enclosing (r : Registry) (c : Checker) (nt : Nonterminal) :
    (checkVariable r c nt).scope.enclosing = c.scope.enclosing := by
  simp only [checkVariable]
  split
  · simp only [Scope.define]
    split <;> rfl
  · split <;> rfl

theorem checkClause_enclosing (r : Registry) (c : Checker) (clause : Clause) :
    (checkClause r c clause).scope.enclosing = c.scope.enclosing := by
  simp only [checkClause]
  split
  · rfl
  · rename_i p _
    have hfold : ∀ (nts : List Nonterminal) (c : Checker),
        (nts.foldl (checkVariable r) c).scope.enclosing = c.scope.enclosing := by
      intro nts
      induction nts with
      | nil => intro c; rfl
      | cons nt nts ih => intro c; rw [List.foldl_cons, ih, checkVariable_enclosing]
    exact hfold _ _

theorem checkRule_scope (r : Registry) (j : Judgment) (c : Checker) (rule : Rule) :
    (checkRule r j c rule).scope = c.scope := by
  have hfold : ∀ (clauses : List Clause) (c : Checker),
      (clauses.foldl (checkClause r) c).scope.enclosing = c.scope.enclosing := by
    intro clauses
    induction clauses with
    | nil => intro c; rfl
    | cons clause clauses ih => intro c; rw [List.foldl_cons, ih, checkClause_enclosing]
  simp only [checkRule, Scope.pop]
  rw [hfold]
  rfl

/-- The problems of a rule checked on its own. -/
def ruleProblems (r : Registry) (j : Judgment) (rule : Rule) : List Problem :=
  (checkRule r j .empty rule).problems

theorem checkRule_eq (r : Registry) (j : Judgment) {c : Checker} (hc : c.scope = {})
    (rule : Rule) : checkRule r j c rule = c.add (ruleProblems r j rule) := by
  have he : c = empty.after c.problems := by
    cases c; cases hc; simp [after, empty]
  have h := accumulates_checkRule r j empty rule c.problems
  rw [← he] at h
  have hs := checkRule_scope r j c rule
  rw [h] at hs ⊢
  simp only [after] at hs ⊢
  rw [hs]
  rfl

theorem foldl_checkRule_eq (r : Registry) (j : Judgment) (rules : List Rule) {c : Checker}
    (hc : c.scope = {}) :
    rules.foldl (checkRule r j) c = c.add (rules.flatMap (ruleProblems r j)) := by
  induction rules generalizing c with
  | nil => simp [add]
  | cons rule rules ih =>
    rw [List.foldl_cons, checkRule_eq r j hc, ih (c := c.add (ruleProblems r j rule)) hc]
    simp [add]

/-- The problems of the judgment at a handle: those of its form, then those of its rules. -/
def judgmentProblems (r : Registry) (id : JudgmentId) : List Problem :=
  match r.judgment? id with
  | none => [.ofFault (.unknownJudgment id) {}]
  | some j => formProblems r j ++ (r.rulesFor id).flatMap (ruleProblems r j)

theorem checkJudgment_eq (r : Registry) {c : Checker} (hc : c.scope = {}) (id : JudgmentId) :
    checkJudgment r c id = (c.add (judgmentProblems r id), (judgmentProblems r id).length) := by
  have h : (checkJudgment r c id).1 = c.add (judgmentProblems r id) := by
    cases hj : r.judgment? id with
    | none => simp only [checkJudgment, judgmentProblems, hj]
    | some j =>
      simp only [checkJudgment, judgmentProblems, hj]
      rw [foldl_checkRule_eq r j _ (c := c.add (formProblems r j)) hc]
      simp [add]
  rw [Prod.ext_iff]
  refine ⟨h, ?_⟩
  have hn : (checkJudgment r c id).2 =
      (checkJudgment r c id).1.problems.length - c.problems.length := rfl
  rw [hn, h]
  simp [add]

theorem checkJudgments_eq (r : Registry) {c : Checker} (hc : c.scope = {})
    (ids : List JudgmentId) :
    checkJudgments r c ids = (c.add (ids.flatMap (judgmentProblems r)),
      ids.map fun id => (judgmentProblems r id).length) := by
  induction ids generalizing c with
  | nil => simp [checkJudgments, add]
  | cons id ids ih =>
    simp only [checkJudgments, checkJudgment_eq r hc]
    rw [ih (c := c.add (judgmentProblems r id)) hc]
    simp [add]

/-- The only problem of a judgment whose production is its own and over declared categories is an
assumption that its form does not have. -/
theorem formProblems_eq {r : Registry} {j : Judgment} {id : ProductionId} {p : Production}
    (hid : j.production = some id) (hp : r.production? id = some p) (hj : p.judgment = j.id)
    (hd : r.Declares p.form) :
    formProblems r j =
      match j.assumption with
      | none => []
      | some nt =>
        if nt.val ∈ variablesOf p.form.elements then []
        else [.ofFault (.assumptionNotInForm j.name nt.val.name) nt.span] := by
  simp only [formProblems, hid, hp, productionProblems, if_pos hj, List.nil_append]
  rw [List.filterMap_eq_nil_iff.mpr ?declared, List.nil_append]
  case declared =>
    intro nt hnt
    obtain ⟨c, hc⟩ := Option.isSome_iff_exists.mp (hd nt hnt)
    rw [hc]
  cases j.assumption with
  | none => rfl
  | some nt => simp only [Form.any_nonterminals_iff]

theorem assumption_mem_of_formProblems_eq_nil {r : Registry} {j : Judgment} {nt : Nonterminal}
    (h : formProblems r j = []) (ha : j.assumption = some nt) :
    ∃ id p, j.production = some id ∧ r.production? id = some p ∧
      nt.val ∈ variablesOf p.form.elements := by
  simp only [formProblems] at h
  split at h
  · cases h
  rename_i id hid
  split at h
  · cases h
  rename_i p hp
  refine ⟨id, p, hid, hp, ?_⟩
  have hassumption := (List.append_eq_nil_iff.mp h).2
  simp only [ha, Form.any_nonterminals_iff] at hassumption
  by_contra hm
  rw [if_neg hm] at hassumption
  cases hassumption

/-! ## Rules without problems -/

/-- The clause has the shape of its production. -/
def FitsProduction (r : Registry) (clause : Clause) : Prop :=
  ∃ p, r.production? clause.production = some p ∧ SameShape p.form.elements clause.elements

/-- No name is used at two categories. -/
def OneCategory (vs : List Variable) : Prop :=
  ∀ u ∈ vs, ∀ v ∈ vs, u.name = v.name → u.category = v.category

theorem mismatches_eq_nil_iff {r : Registry} {form : Form} {clause : Clause} :
    mismatches r form clause = [] ↔
      ∀ p ∈ form.elements.zip clause.elements, p.1.val.fits p.2.val = true := by
  simp only [mismatches, Form.symbols, List.zip_map_left, List.filterMap_eq_nil_iff,
    List.forall_mem_map]
  refine forall₂_congr fun p _ => ?_
  simp

theorem shapeProblems_eq_nil_iff {r : Registry} {form : Form} {clause : Clause} :
    shapeProblems r form clause = [] ↔ SameShape form.elements clause.elements := by
  rw [SameShape, List.forall₂_iff_zip, shapeProblems]
  split
  · rename_i hlen
    rw [mismatches_eq_nil_iff]
    exact ⟨fun h => ⟨hlen, fun hp => h _ hp⟩, fun h p hp => h.2 hp⟩
  · rename_i hlen
    constructor
    · intro h; cases h
    · intro h; exact absurd h.1 hlen

/-- All variables bound in the scope are among the given ones. -/
def Within (vs : List Variable) (s : Scope) : Prop := ∀ frame ∈ s.frames, ∀ v ∈ frame, v ∈ vs

theorem Within.categoryOf? {vs : List Variable} {s : Scope} (h : Within vs s) {name : String}
    {category : CategoryId} (hc : s.categoryOf? name = some category) :
    ∃ v ∈ vs, v.name = name ∧ v.category = category := by
  obtain ⟨v, hv, rfl⟩ := Option.map_eq_some_iff.mp hc
  obtain ⟨frame, hframe, hfind⟩ := List.exists_of_findSome?_eq_some hv
  have hname := List.find?_some hfind
  exact ⟨v, h frame hframe v (List.mem_of_find?_eq_some hfind), by simpa using hname, rfl⟩

theorem Within.define {vs : List Variable} {s : Scope} (h : Within vs s) {v : Variable}
    (hv : v ∈ vs) : Within vs (s.define v).1 := by
  simp only [Scope.define]
  split
  · exact h
  · intro frame hframe u hu
    rcases List.mem_cons.mp hframe with rfl | hframe
    · rcases List.mem_append.mp hu with hu | hu
      · exact h s.current (List.mem_cons_self ..) u hu
      · cases List.mem_singleton.mp hu; exact hv
    · exact h frame (List.mem_cons_of_mem _ hframe) u hu

variable {r : Registry} {vs : List Variable}

theorem checkVariable_of_oneCategory (ho : OneCategory vs) {c : Checker} (hs : Within vs c.scope)
    {nt : Nonterminal} (hnt : nt.val ∈ vs) :
    (checkVariable r c nt).problems = c.problems ∧ Within vs (checkVariable r c nt).scope := by
  simp only [checkVariable]
  split
  · exact ⟨rfl, hs.define hnt⟩
  · rename_i category hc
    obtain ⟨v, hv, hname, hcat⟩ := hs.categoryOf? hc
    have he : category = nt.val.category := hcat ▸ ho v hv nt.val hnt hname
    rw [if_pos he]
    exact ⟨rfl, hs⟩

theorem foldl_checkVariable_of_oneCategory (ho : OneCategory vs) (nts : List Nonterminal)
    {c : Checker} (hs : Within vs c.scope) (hnts : ∀ nt ∈ nts, nt.val ∈ vs) :
    (nts.foldl (checkVariable r) c).problems = c.problems ∧
      Within vs (nts.foldl (checkVariable r) c).scope := by
  induction nts generalizing c with
  | nil => exact ⟨rfl, hs⟩
  | cons nt nts ih =>
    obtain ⟨h1, h2⟩ := checkVariable_of_oneCategory (r := r) ho hs (hnts nt (List.mem_cons_self ..))
    obtain ⟨h3, h4⟩ := ih h2 fun nt hnt => hnts nt (List.mem_cons_of_mem _ hnt)
    exact ⟨h3.trans h1, h4⟩

/-- What the checker finds in a clause when it leaves the variables out of it. -/
def clauseProblems (r : Registry) (clause : Clause) : List Problem :=
  match r.production? clause.production with
  | none => [.ofFault (.unknownProduction clause.production) clause.span]
  | some p => shapeProblems r p.form clause

theorem clauseProblems_of_fits {clause : Clause} (h : FitsProduction r clause) :
    clauseProblems r clause = [] := by
  obtain ⟨p, hp, hshape⟩ := h
  simp only [clauseProblems, hp, shapeProblems_eq_nil_iff.mpr hshape]

theorem checkClause_of_oneCategory (ho : OneCategory vs) {c : Checker} (hs : Within vs c.scope)
    {clause : Clause} (hvs : variablesOf clause.elements ⊆ vs) :
    (checkClause r c clause).problems = c.problems ++ clauseProblems r clause ∧
      Within vs (checkClause r c clause).scope := by
  cases hp : r.production? clause.production with
  | none =>
    simp only [checkClause, clauseProblems, hp]
    exact ⟨rfl, hs⟩
  | some p =>
    simp only [checkClause, clauseProblems, hp]
    refine foldl_checkVariable_of_oneCategory (c := c.add (shapeProblems r p.form clause)) ho _ hs
      fun nt hnt => hvs ?_
    rw [← Form.map_val_nonterminals]
    exact List.mem_map_of_mem hnt

theorem foldl_checkClause_of_oneCategory (ho : OneCategory vs) (clauses : List Clause)
    {c : Checker} (hs : Within vs c.scope)
    (hvs : ∀ clause ∈ clauses, variablesOf clause.elements ⊆ vs) :
    (clauses.foldl (checkClause r) c).problems = c.problems ++ clauses.flatMap (clauseProblems r) := by
  induction clauses generalizing c with
  | nil => simp
  | cons clause clauses ih =>
    obtain ⟨hfirst, hrest⟩ := List.forall_mem_cons.mp hvs
    obtain ⟨h1, h2⟩ := checkClause_of_oneCategory (r := r) ho hs hfirst
    rw [List.foldl_cons, ih h2 hrest, h1, List.append_assoc, List.flatMap_cons]

/-- In a rule whose variables each have one category, the checker finds no more than that it
concludes another judgment and what it finds in each of its clauses. -/
theorem ruleProblems_of_oneCategory (j : Judgment) {rule : Rule} (ho : OneCategory vs)
    (hvs : ∀ clause ∈ rule.clauses, variablesOf clause.elements ⊆ vs) :
    ruleProblems r j rule = conclusionProblems j rule ++ rule.clauses.flatMap (clauseProblems r) := by
  have hscope : Within vs Scope.empty.push := by
    intro frame hframe v hv
    simp only [Scope.frames, Scope.push, Scope.empty, List.mem_cons, List.not_mem_nil,
      or_false, or_self] at hframe
    subst hframe
    cases hv
  exact foldl_checkClause_of_oneCategory ho rule.clauses
    (c := { empty.add (conclusionProblems j rule) with scope := Scope.empty.push }) hscope hvs

/-- A rule has no problem when it concludes its own judgment, its clauses have the shapes of their
productions, and its variables each have one category. -/
theorem ruleProblems_eq_nil {j : Judgment} {rule : Rule}
    (hconc : j.production = some rule.conclusion.production)
    (hfit : ∀ clause ∈ rule.clauses, FitsProduction r clause) (ho : OneCategory vs)
    (hvs : ∀ clause ∈ rule.clauses, variablesOf clause.elements ⊆ vs) :
    ruleProblems r j rule = [] := by
  have hconclusion : conclusionProblems j rule = [] := if_pos hconc
  have hclauses : rule.clauses.flatMap (clauseProblems r) = [] :=
    List.flatMap_eq_nil_iff.mpr fun clause hc => clauseProblems_of_fits (hfit clause hc)
  rw [ruleProblems_of_oneCategory j ho hvs, hconclusion, hclauses, List.append_nil]

end Checker

namespace Registry

open Checker

theorem check_eq (r : Registry) (id : JudgmentId) :
    r.check id = ((judgmentProblems r id).map Problem.diagnostic,
      (judgmentProblems r id).length) := by
  simp only [check]
  rw [checkJudgment_eq r rfl]
  simp [add, Checker.empty]

/-- No judgment of the table has a problem. -/
def Clean (r : Registry) : Prop := ∀ j ∈ r.judgments, judgmentProblems r j.id = []

theorem checkAll_eq (r : Registry) :
    r.checkAll = ((r.judgments.flatMap fun j => judgmentProblems r j.id).map Problem.diagnostic,
      (r.judgments.flatMap fun j => judgmentProblems r j.id).length) := by
  simp only [checkAll]
  rw [checkJudgments_eq r rfl]
  simp [add, Checker.empty, List.flatMap_map, List.length_flatMap, List.sum, Function.comp_def]

theorem checkAll_count_eq_zero_iff {r : Registry} : r.checkAll.2 = 0 ↔ r.Clean := by
  rw [checkAll_eq, List.length_eq_zero_iff, List.flatMap_eq_nil_iff]
  rfl

theorem Clean.checkAll_eq_nil {r : Registry} (h : r.Clean) : r.checkAll = ([], 0) := by
  have hnil : (r.judgments.flatMap fun j => judgmentProblems r j.id) = [] :=
    List.flatMap_eq_nil_iff.mpr h
  rw [checkAll_eq, hnil]
  rfl

end Registry
end Inference
