import Inference.Conjunction.Registration
import Inference.Proofs.Registry.Write

/-!
# Inference.Proofs.Conjunction.Registration

What entering a conjunction does to the declaration table: it adds one judgment, one production and
one rule, and leaves every other entry as it is.

* `reservedFor`, `definedFor`: the table between the first writes.
* `register_eq_ok_iff`: when a conjunction is entered, and the table afterwards.
* `formOf?_entered`, `rulesFor_entered_new`, …: the table afterwards, entry by entry.
-/

namespace Inference
namespace Registry

def enteredJudgment (r : Registry) (k : Construction) : Judgment :=
  { r.newJudgment k.name k.span with
    production := some ⟨r.productions.length⟩
    assumption := k.assumption
    rules := [⟨r.rules.length⟩]
    origin := .conjunction k.components }

def enteredConclusion (r : Registry) (k : Construction) : Clause :=
  { elements := k.form.elements, span := k.span, production := ⟨r.productions.length⟩ }

def enteredRule (r : Registry) (k : Construction) (premises : List Clause) : Rule :=
  r.newRule k.name r.enteredId premises (r.enteredConclusion k) k.span

/-- The table with a conjunction entered. -/
def entered (r : Registry) (k : Construction) (premises : List Clause) : Registry where
  categories := r.categories
  categoryNames := r.categoryNames
  judgments := r.judgments ++ [r.enteredJudgment k]
  judgmentNames := r.judgmentNames.insert k.name r.enteredId
  productions := r.productions ++ [r.newProduction r.enteredId k.name k.form]
  rules := r.rules ++ [r.enteredRule k premises]

section Register

variable {r : Registry} {k : Construction} {clauses : List Clause}

/-- The table once the judgment is reserved. -/
def reservedFor (r : Registry) (k : Construction) : Registry :=
  r.withLast (r.newJudgment k.name k.span)

/-- The table once the form of the judgment is defined as well. -/
def definedFor (r : Registry) (k : Construction) : Registry :=
  withLast { r with productions := r.productions ++ [r.newProduction r.enteredId k.name k.form] }
    { r.newJudgment k.name k.span with production := some ⟨r.productions.length⟩ }

theorem reserve_reservedFor (h : r.judgmentId? k.name = none) :
    r.reserve k.name k.span = (r.reservedFor k, .ok r.enteredId) :=
  reserve_withLast h k.span

theorem judgment?_reservedFor :
    (r.reservedFor k).judgment? r.enteredId = some (r.newJudgment k.name k.span) :=
  withLast_judgment? _ _

theorem judgment?_definedFor : (r.definedFor k).judgment? r.enteredId =
    some { r.newJudgment k.name k.span with production := some ⟨r.productions.length⟩ } :=
  withLast_judgment? { r with productions := _ } _

theorem define_definedFor (h : r.Declares k.form) :
    (r.reservedFor k).define r.enteredId k.name k.form =
      (r.definedFor k, .ok ⟨r.productions.length⟩) :=
  define_withLast rfl k.name h

/-- What a table has to offer for a conjunction to be entered. -/
structure Accepts (r : Registry) (k : Construction) (clauses : List Clause) : Prop where
  premises : r.premiseClauses k.span k.components k.premises = .ok clauses
  name_free : r.judgmentId? k.name = none
  form_declared : r.Declares k.form
  assumption_declared : ∀ nt, k.assumption = some nt → (r.category? nt.val.category).isSome
  /-- The production of the conjunction itself is there when the rule is added. -/
  productions : ∀ c ∈ clauses, c.production.index ≤ r.productions.length

theorem register_of_accepts (h : r.Accepts k clauses) (validate : Bool) :
    r.register k validate = (r.entered k clauses,
      .ok (r.enteredId,
        if validate then ((r.entered k clauses).check r.enteredId).1 else [])) := by
  let pid : ProductionId := ⟨r.productions.length⟩
  let rp : Registry :=
    { r with productions := r.productions ++ [r.newProduction r.enteredId k.name k.form] }
  let j₂ : Judgment := { r.newJudgment k.name k.span with production := some pid }
  let j₃ : Judgment := { j₂ with assumption := k.assumption }
  let j₄ : Judgment := { j₃ with origin := .conjunction k.components }
  have h₁ := reserve_reservedFor h.name_free
  have h₂ := define_definedFor h.form_declared
  have h₃ : (r.definedFor k).assume r.enteredId k.assumption = (rp.withLast j₃, .ok ()) :=
    assume_withLast j₂ h.assumption_declared
  have h₄ : (rp.withLast j₃).setOrigin r.enteredId (.conjunction k.components) =
      (rp.withLast j₄, .ok ()) := setOrigin_withLast rp j₃ _
  have h₅ : (rp.withLast j₄).addRule k.name r.enteredId clauses (r.enteredConclusion k) k.span =
      (r.entered k clauses, .ok ⟨r.rules.length⟩) := by
    refine addRule_withLast (r := rp) j₄ k.name k.span fun c hc => ?_
    have hle : c.production.index ≤ r.productions.length := by
      rcases List.mem_append.mp hc with hc | hc
      · exact h.productions c hc
      · cases List.mem_singleton.mp hc; exact Nat.le_refl _
    simp [production?, rp, Nat.lt_succ_of_le hle]
  rw [register, h.premises]
  simp only [h₁, h₂, h₃, h₄]
  rw [show ({ elements := k.form.elements, span := k.span, production := pid } : Clause) =
    r.enteredConclusion k from rfl, h₅]

theorem accepts_of_register {r' : Registry} {validate : Bool} {id : JudgmentId}
    {ds : List Diagnostic} (h : r.register k validate = (r', .ok (id, ds))) :
    ∃ clauses, r.Accepts k clauses := by
  rw [register] at h
  split at h
  · cases h
  rename_i clauses hc
  split at h
  · cases h
  rename_i reserved id₁ h₁
  obtain ⟨hn, rfl, rfl⟩ := reserve_eq_ok_iff.mp h₁
  split at h
  · cases h
  rename_i defined pid h₂
  obtain ⟨_, hf, rfl, rfl⟩ := define_eq_ok_iff.mp h₂
  split at h
  · cases h
  rename_i assumed h₃
  obtain ⟨ha, _, rfl⟩ := assume_eq_ok_iff.mp h₃
  split at h
  · cases h
  rename_i placed h₄
  obtain ⟨_, rfl⟩ := setOrigin_eq_ok_iff.mp h₄
  dsimp only at h
  split at h
  · cases h
  rename_i added rid h₅
  obtain ⟨_, hp, _, _⟩ := addRule_eq_ok_iff.mp h₅
  refine ⟨clauses, hc, hn, hf, ha, fun c hmem => ?_⟩
  have hsome := hp c (List.mem_append_left _ hmem)
  simp [production?, modifyJudgment] at hsome
  omega

theorem register_eq_ok_iff {r' : Registry} {validate : Bool} {id : JudgmentId}
    {ds : List Diagnostic} :
    r.register k validate = (r', .ok (id, ds)) ↔
      ∃ clauses, r.Accepts k clauses ∧ r' = r.entered k clauses ∧ id = r.enteredId ∧
        ds = if validate then (r'.check id).1 else [] := by
  constructor
  · intro h
    obtain ⟨clauses, hacc⟩ := accepts_of_register h
    rw [register_of_accepts hacc] at h
    cases h
    exact ⟨clauses, hacc, rfl, rfl, rfl⟩
  · rintro ⟨clauses, hacc, rfl, rfl, rfl⟩
    exact register_of_accepts hacc validate

end Register

/-! ## The table afterwards -/

section Entered

variable {r : Registry} {k : Construction} {clauses : List Clause}

theorem judgment?_entered_new :
    (r.entered k clauses).judgment? r.enteredId = some (r.enteredJudgment k) := by
  simp [judgment?, entered, enteredId]

theorem production?_entered_new : (r.entered k clauses).production? ⟨r.productions.length⟩ =
    some (r.newProduction r.enteredId k.name k.form) := by
  simp [production?, entered]

theorem rule?_entered_new :
    (r.entered k clauses).rule? ⟨r.rules.length⟩ = some (r.enteredRule k clauses) := by
  simp [rule?, entered]

theorem judgment?_entered {id : JudgmentId} {j : Judgment} (h : r.judgment? id = some j) :
    (r.entered k clauses).judgment? id = some j := by
  simp only [judgment?, entered] at h ⊢
  rw [List.getElem?_append_left (List.getElem?_eq_some_iff.mp h).1, h]

theorem production?_entered {id : ProductionId} {p : Production}
    (h : r.production? id = some p) : (r.entered k clauses).production? id = some p := by
  simp only [production?, entered] at h ⊢
  rw [List.getElem?_append_left (List.getElem?_eq_some_iff.mp h).1, h]

theorem rule?_entered {id : RuleId} {rule : Rule} (h : r.rule? id = some rule) :
    (r.entered k clauses).rule? id = some rule := by
  simp only [rule?, entered] at h ⊢
  rw [List.getElem?_append_left (List.getElem?_eq_some_iff.mp h).1, h]

theorem productionOf?_entered_new :
    (r.entered k clauses).productionOf? r.enteredId = some ⟨r.productions.length⟩ := by
  rw [productionOf?, judgment?_entered_new]
  rfl

theorem formOf?_entered_new : (r.entered k clauses).formOf? r.enteredId = some k.form := by
  rw [formOf?, productionOf?_entered_new, Option.bind_some, production?_entered_new]
  rfl

theorem assumptionOf?_entered_new :
    (r.entered k clauses).assumptionOf? r.enteredId = k.assumption := by
  rw [assumptionOf?, judgment?_entered_new]
  rfl

theorem rulesFor_entered_new :
    (r.entered k clauses).rulesFor r.enteredId = [r.enteredRule k clauses] := by
  rw [rulesFor, judgment?_entered_new]
  simp [enteredJudgment, rule?_entered_new]

theorem productionOf?_entered {id : JudgmentId} {p : ProductionId}
    (h : r.productionOf? id = some p) : (r.entered k clauses).productionOf? id = some p := by
  obtain ⟨j, hj, hp⟩ := productionOf?_eq_some_iff.mp h
  exact productionOf?_eq_some_iff.mpr ⟨j, judgment?_entered hj, hp⟩

theorem formOf?_entered {id : JudgmentId} {f : Form} (h : r.formOf? id = some f) :
    (r.entered k clauses).formOf? id = some f := by
  obtain ⟨pid, p, hpid, hp, hform⟩ := formOf?_eq_some_iff.mp h
  exact formOf?_eq_some_iff.mpr
    ⟨pid, p, productionOf?_entered hpid, production?_entered hp, hform⟩

end Entered

end Registry
end Inference
