import Inference.Proofs.Registry.Declaration
import Inference.Proofs.Registry.Reading

/-!
# Inference.Proofs.Registry.Declared

A declaration is made as a whole or not at all. A judgment takes three writes, and none of the later
two is ever refused: the judgment is new, and what is read from a text is over declared categories.
A rule takes one write, once all its clauses are read.

* `withJudgment`: the table with a judgment, its form and its assumption.
* `ReadAs`: the variables of a clause are over the categories that their names are read at.
* `declareJudgment_cases`, `declareRule_cases`: all that declaring a judgment or a rule can do.
* `declare_of_error`: a declaration that fails leaves the table as it was.
* `productions_declare`: the forms of judgments are read from texts.
-/

namespace Inference
namespace Registry

variable {r : Registry}

/-- The table with a judgment declared, its form and its assumption at once. -/
def withJudgment (r : Registry) (name production : String) (form : Form)
    (assumption : Option Nonterminal) (span : Span) : Registry :=
  withLast { r with productions := r.productions ++ [r.newProduction r.enteredId production form] }
    { r.newJudgment name span with production := some ⟨r.productions.length⟩, assumption }

theorem Consistent.declared_of_readAssumption (hr : r.Consistent) {word : Option String}
    {span : Span} {assumption : Option Nonterminal}
    (h : r.readAssumption word span = .ok assumption) (nt : Nonterminal)
    (hnt : assumption = some nt) : (r.category? nt.val.category).isSome := by
  subst hnt
  cases word with
  | none => cases h
  | some word =>
    rw [readAssumption, readNonterminal?] at h
    cases hc : r.categoryOfWord? word with
    | none => simp [hc] at h
    | some category =>
      simp only [hc, Option.map_some] at h
      cases h
      exact hr.isSome_of_categoryOfWord? hc

theorem declareJudgment_of_reserve {name form : String} {assumes productionName : Option String}
    {span : Span} {assumption : Option Nonterminal} (hr : r.Consistent)
    (hassumption : r.readAssumption assumes span = .ok assumption)
    (hname : r.judgmentId? name = none) :
    r.declareJudgment name form assumes productionName span =
      (r.withJudgment name (productionName.getD name) (r.readForm form span) assumption span,
        .ok r.enteredId) := by
  let rp : Registry := { r with
    productions := r.productions ++
      [r.newProduction r.enteredId (productionName.getD name) (r.readForm form span)] }
  let defined : Judgment := { r.newJudgment name span with
    production := some ⟨r.productions.length⟩ }
  have hreserve := reserve_withLast hname span
  have hdefine : (r.withLast (r.newJudgment name span)).define r.enteredId
      (productionName.getD name) (r.readForm form span) =
        (rp.withLast defined, .ok ⟨r.productions.length⟩) :=
    define_withLast rfl _ (hr.declares_readForm form span)
  have hassume : (rp.withLast defined).assume r.enteredId assumption =
      (rp.withLast { defined with assumption }, .ok ()) :=
    assume_withLast defined (hr.declared_of_readAssumption hassumption)
  simp only [declareJudgment, hassumption, hreserve, hdefine, hassume]
  rfl

/-- All that declaring a judgment can do: fail at once, or enter the judgment whole. -/
theorem Consistent.declareJudgment_cases (hr : r.Consistent) (name form : String)
    (assumes productionName : Option String) (span : Span) :
    (∃ e, r.declareJudgment name form assumes productionName span = (r, .error e)) ∨
    ∃ assumption, r.readAssumption assumes span = .ok assumption ∧ r.judgmentId? name = none ∧
      r.declareJudgment name form assumes productionName span =
        (r.withJudgment name (productionName.getD name) (r.readForm form span) assumption span,
          .ok r.enteredId) := by
  cases hassumption : r.readAssumption assumes span with
  | error e => exact .inl ⟨e, by simp only [declareJudgment, hassumption]⟩
  | ok assumption =>
    rcases (r.reserve_atomic name span).cases with ⟨e, hreserve⟩ | ⟨reserved, id, hreserve⟩
    · exact .inl ⟨e, by simp only [declareJudgment, hassumption, hreserve]⟩
    · have hname := (reserve_eq_ok_iff.mp hreserve).1
      exact .inr ⟨assumption, rfl, hname, declareJudgment_of_reserve hr hassumption hname⟩

/-- The variables of the clause are over the categories that their names are read at. -/
def ReadAs (r : Registry) (clause : Clause) : Prop :=
  ∀ v ∈ variablesOf clause.elements, r.categoryOfWord? v.name = some v.category

theorem readClause_eq_ok {judgment : JudgmentId} {text : String} {span : Span} {clause : Clause}
    (h : r.readClause judgment text span = .ok clause) :
    r.productionOf? judgment = some clause.production ∧ r.ReadAs clause := by
  rw [readClause] at h
  split at h
  · cases h
  · rename_i production hp
    cases h
    exact ⟨hp, fun v hv => categoryOfWord?_of_mem_readForm hv⟩

theorem readAs_of_readPremises {span : Span} {premises : List (String × String)}
    {clauses : List Clause} (h : r.readPremises span premises = .ok clauses) :
    ∀ clause ∈ clauses, r.ReadAs clause := by
  induction premises generalizing clauses with
  | nil =>
    cases h
    simp
  | cons premise premises ih =>
    obtain ⟨judgment, text⟩ := premise
    rw [readPremises] at h
    split at h
    · cases h
    rename_i clause hclause
    split at h
    · cases h
    rename_i rest hrest
    cases h
    refine List.forall_mem_cons.mpr ⟨?_, ih hrest⟩
    rw [readPremise] at hclause
    split at hclause
    · cases hclause
    · exact (readClause_eq_ok hclause).2

/-- All that declaring a rule can do: fail at once, or add a rule that concludes an instance of the
form of its judgment and whose clauses are all read from texts. -/
theorem declareRule_cases (r : Registry) (name judgment : String)
    (premises : List (String × String)) (conclusion : Option String) (span : Span) :
    (∃ e, r.declareRule name judgment premises conclusion span = (r, .error e)) ∨
    ∃ id clauses clause added rule, r.productionOf? id = some clause.production ∧
      (∀ c ∈ clauses ++ [clause], r.ReadAs c) ∧
      r.addRule name id clauses clause span = (added, .ok rule) ∧
      r.declareRule name judgment premises conclusion span = (added, .ok rule) := by
  cases hid : r.judgmentId? judgment with
  | none => exact .inl ⟨_, by simp only [declareRule, hid]; rfl⟩
  | some id =>
    cases conclusion with
    | none => exact .inl ⟨_, by simp only [declareRule, hid]; rfl⟩
    | some text =>
      cases hpremises : r.readPremises span premises with
      | error e => exact .inl ⟨e, by simp only [declareRule, hid, hpremises]⟩
      | ok clauses =>
        cases hclause : r.readClause id text span with
        | error e => exact .inl ⟨e, by simp only [declareRule, hid, hpremises, hclause]⟩
        | ok clause =>
          rcases (r.addRule_atomic name id clauses clause span).cases with
            ⟨e, hadd⟩ | ⟨added, rule, hadd⟩
          · exact .inl ⟨e, by simp only [declareRule, hid, hpremises, hclause, hadd]⟩
          · obtain ⟨hp, hread⟩ := readClause_eq_ok hclause
            refine .inr ⟨id, clauses, clause, added, rule, hp, ?_, hadd, ?_⟩
            · intro c hc
              rcases List.mem_append.mp hc with hc | hc
              · exact readAs_of_readPremises hpremises c hc
              · exact List.mem_singleton.mp hc ▸ hread
            · simp only [declareRule, hid, hpremises, hclause, hadd]

/-! ## Declarations -/

theorem Consistent.declare_of_error (hr : r.Consistent) {d : Declaration} {e : DeclarationError}
    (h : (r.declare d).2 = .error e) : (r.declare d).1 = r := by
  cases d with
  | category name isContext span =>
    rcases (r.addCategory_atomic name isContext span).cases with ⟨e, hadd⟩ | ⟨_, _, hadd⟩
    · simp only [declare, hadd]
    · simp [declare, hadd, Except.map] at h
  | judgment name form assumes productionName span =>
    rcases hr.declareJudgment_cases name form assumes productionName span with
      ⟨e, he⟩ | ⟨_, _, _, hok⟩
    · simp only [declare, he]
    · simp [declare, hok, Except.map] at h
  | rule name judgment premises conclusion span =>
    rcases r.declareRule_cases name judgment premises conclusion span with
      ⟨e, he⟩ | ⟨_, _, _, _, _, _, _, _, hok⟩
    · simp only [declare, he]
    · simp [declare, hok, Except.map] at h
  | placeholder name =>
    rcases (r.reserve_atomic name {}).cases with ⟨e, hreserve⟩ | ⟨_, _, hreserve⟩
    · simp only [declare, hreserve]
    · simp [declare, hreserve, Except.map] at h

theorem Consistent.productions_declare (hr : r.Consistent) (d : Declaration) :
    (r.declare d).1.productions = r.productions ∨
    ∃ p text span, p.form = r.readForm text span ∧
      (r.declare d).1.productions = r.productions ++ [p] := by
  cases d with
  | category name isContext span =>
    rcases (r.addCategory_atomic name isContext span).cases with ⟨e, hadd⟩ | ⟨added, id, hadd⟩
    · exact .inl (by simp only [declare, hadd])
    · obtain ⟨_, _, rfl⟩ := addCategory_eq_ok_iff.mp hadd
      exact .inl (by simp only [declare, hadd])
  | judgment name form assumes productionName span =>
    rcases hr.declareJudgment_cases name form assumes productionName span with
      ⟨e, he⟩ | ⟨assumption, _, _, hok⟩
    · exact .inl (by simp only [declare, he])
    · refine .inr ⟨r.newProduction r.enteredId (productionName.getD name) (r.readForm form span),
        form, span, rfl, ?_⟩
      simp only [declare, hok]
      rfl
  | rule name judgment premises conclusion span =>
    rcases r.declareRule_cases name judgment premises conclusion span with
      ⟨e, he⟩ | ⟨_, _, _, _, _, _, _, hadd, hok⟩
    · exact .inl (by simp only [declare, he])
    · obtain ⟨_, _, _, rfl⟩ := addRule_eq_ok_iff.mp hadd
      exact .inl (by simp only [declare, hok])
  | placeholder name =>
    rcases (r.reserve_atomic name {}).cases with ⟨e, hreserve⟩ | ⟨reserved, id, hreserve⟩
    · exact .inl (by simp only [declare, hreserve])
    · obtain ⟨_, _, rfl⟩ := reserve_eq_ok_iff.mp hreserve
      exact .inl (by simp only [declare, hreserve])

end Registry
end Inference
