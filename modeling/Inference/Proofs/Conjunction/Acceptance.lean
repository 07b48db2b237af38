import Inference.Proofs.Conjunction.Assumption
import Inference.Proofs.Registry.Consistent

/-!
# Inference.Proofs.Conjunction.Acceptance

A consistent table accepts every conjunction of judgments that have forms. So a request is refused
only for its components, before anything is written.

* `accepts_construct`: nothing stands against entering a conjunction.
* `synthesize_cases`: everything that a request can do; `holds_synthesize`, what it keeps.
-/

namespace Inference
namespace Registry

variable {r : Registry} {parts : List JudgmentId} {forms : List Form}

theorem declares_iff {form : Form} :
    r.Declares form ↔ ∀ v ∈ variablesOf form.elements, (r.category? v.category).isSome := by
  rw [← Form.map_val_nonterminals, List.forall_mem_map]
  rfl

theorem Consistent.declares_formOf? (hr : r.Consistent) {id : JudgmentId} {f : Form}
    (hf : r.formOf? id = some f) : r.Declares f := by
  obtain ⟨p, hp, rfl⟩ := exists_production_of_formOf? hf
  exact hr.forms_declared p hp

theorem Consistent.declared_assumptionOf? (hr : r.Consistent) {id : JudgmentId} {nt : Nonterminal}
    (ha : r.assumptionOf? id = some nt) : (r.category? nt.val.category).isSome := by
  obtain ⟨j, hj, ha⟩ := Option.bind_eq_some_iff.mp ha
  exact hr.assumptions_declared j (List.mem_of_getElem? hj) nt ha

theorem declares_construct (hr : r.Consistent)
    (hforms : List.Forall₂ (fun part f => r.formOf? part = some f) parts forms) (config : Config)
    (span : Span) : r.Declares (r.construct config span parts forms).1.form := by
  rw [declares_iff]
  intro v hv
  have hv : v ∈ variablesOf
      (Form.joinWith (.terminal config.separator span)
        (r.renamedForms parts span forms).components) := hv
  rw [Form.variablesOf_joinWith] at hv
  obtain ⟨st, hst, _⟩ := NameSupply.empty.renames_rename r forms (r.agree parts span).context span
  obtain ⟨u, hu, hcat⟩ := exists_category_of_replaces hst.replaces hv
  obtain ⟨e, he, hs⟩ := mem_variablesOf.mp hu
  obtain ⟨f, hf, he⟩ := List.mem_flatMap.mp he
  rw [← hcat]
  have hall : ∀ f ∈ forms, r.Declares f :=
    (forall_forms_iff hforms).mpr fun part _ f hf => hr.declares_formOf? hf
  exact declares_iff.mp (hall f hf) u (mem_variablesOf.mpr ⟨e, he, hs⟩)

theorem declared_conjoinedAssumption (hr : r.Consistent) {span : Span} {nt : Nonterminal}
    (h : conjoinedAssumption (r.agree parts span) (r.renamedForms parts span forms) = some nt) :
    (r.category? nt.val.category).isSome := by
  obtain ⟨m, hm, hnt⟩ := Option.map_eq_some_iff.mp h
  obtain ⟨i, part, hfirst⟩ := exists_firstAssumes hm
  have hcat : nt.val.category = m.val.category := by
    split at hnt
    · rw [← hnt]
    · cases hren : (r.renamedForms parts span forms).renamed? m.val with
      | none => rw [← hnt, hren]; rfl
      | some nt' =>
        rw [← hnt, hren]
        exact NameSupply.renamed?_category _ _ _ _ _ hren
  rw [hcat]
  exact hr.declared_assumptionOf? hfirst.assumption

theorem accepts_construct (hr : r.Consistent)
    (hforms : List.Forall₂ (fun part f => r.formOf? part = some f) parts forms) (config : Config)
    (span : Span) : ∃ clauses, r.Accepts (r.construct config span parts forms).1 clauses := by
  have hrep := NameSupply.empty.rename_replaces r forms (r.agree parts span).context span
  obtain ⟨clauses, hc, hprod, _⟩ :=
    premiseClauses_of_forms hforms span (hforms.length_eq.trans hrep.length_eq)
  refine ⟨clauses, hc, r.judgmentId?_unusedName _, declares_construct hr hforms config span,
    fun nt hnt => declared_conjoinedAssumption hr hnt, fun c hmem => ?_⟩
  obtain ⟨i, hi, rfl⟩ := List.mem_iff_getElem.mp hmem
  have hp := hprod.get (hprod.length_eq ▸ hi) hi
  have hiff := (hr.production_iff _ _).mp hp
  obtain ⟨p, hp, _⟩ := Option.map_eq_some_iff.mp hiff
  exact Nat.le_of_lt (List.getElem?_eq_some_iff.mp hp).1

end Registry

namespace Workspace

/-- All that a request can do: give a conjunction made before, refuse the components, or make a
conjunction. -/
theorem synthesize_cases {w : Workspace} (hr : w.registry.Consistent) (span : Span)
    (parts : List JudgmentId) :
    (∃ judgment, w.cache.get? parts = some judgment ∧
      w.synthesize span parts = (w, .ok ⟨judgment, [], false⟩)) ∨
    (∃ e, w.cache.get? parts = none ∧ w.registry.componentForms [] parts = .error e ∧
      w.synthesize span parts = (w, .error e)) ∨
    (∃ w' made forms clauses, w.cache.get? parts = none ∧
      w.registry.componentForms [] parts = .ok forms ∧
      w.synthesize span parts = (w', .ok made) ∧ made.fresh = true ∧
      w.Makes span parts w' made forms clauses) := by
  cases hcache : w.cache.get? parts with
  | some judgment => exact .inl ⟨judgment, rfl, by rw [synthesize, hcache]⟩
  | none =>
    cases hforms : w.registry.componentForms [] parts with
    | error e => exact .inr (.inl ⟨e, rfl, rfl, by rw [synthesize, hcache, hforms]⟩)
    | ok forms =>
      obtain ⟨hcomp, hnd, _⟩ := Registry.componentForms_eq_ok_iff.mp hforms
      obtain ⟨clauses, hacc⟩ := Registry.accepts_construct hr hcomp w.config span
      have hreg := Registry.register_of_accepts hacc w.config.validate
      have h : ∃ w' made, w.synthesize span parts = (w', .ok made) ∧ made.fresh = true ∧
          w.Makes span parts w' made forms clauses := by
        rw [synthesize, hcache, hforms]
        simp only [hreg]
        exact ⟨_, _, rfl, rfl, hcomp, hnd, hacc, rfl, rfl, rfl, rfl, rfl⟩
      obtain ⟨w', made, h, hfresh, hmakes⟩ := h
      exact .inr (.inr ⟨w', made, forms, clauses, rfl, rfl, h, hfresh, hmakes⟩)

/-- What holds before a request, and when a conjunction has been made, holds after every request. -/
theorem holds_synthesize {P : Workspace → Prop} {w : Workspace} (hr : w.registry.Consistent)
    (h : P w) {span : Span} {parts : List JudgmentId}
    (hmakes : ∀ w' made forms clauses, w.cache.get? parts = none →
      w.Makes span parts w' made forms clauses → P w') : P (w.synthesize span parts).1 := by
  rcases synthesize_cases hr span parts with ⟨_, _, heq⟩ | ⟨_, _, _, heq⟩ |
    ⟨w', made, forms, clauses, hnone, _, heq, _, hm⟩
  · rw [heq]
    exact h
  · rw [heq]
    exact h
  · rw [heq]
    exact hmakes w' made forms clauses hnone hm

end Workspace
end Inference
