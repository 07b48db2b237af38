import Inference.Proofs.Conjunction.History
import Inference.Proofs.Conjunction.Numbering

/-!
# Inference.Proofs.Conjunction.Faithful

What is on record is as good as new. The components of a conjunction on record are still a list that
can be conjoined, and its form has the symbols that a request would give it now, no matter what was
written to the table since it was made.

* `Registry.Conjoins`: a judgment that is the conjunction of a list of others.
* `Workspace.Faithful`: all conjunctions on record are such; `faithful_run`, for every history.
* `Workspace.Arises`: the workspaces that come about over a table that a program arrives at.
* `Faithful.conjoins_of_synthesize`: what a request gives is the conjunction of its list.
* `Conjoins.length_form`: its form is as long as those of its components and the separators.
-/

namespace Inference

namespace Registry

/-- The judgment has the form that a request for the conjunction of the parts makes. -/
structure Conjoins (r : Registry) (separator : String) (parts : List JudgmentId)
    (forms : List Form) (judgment : JudgmentId) (form : Form) : Prop where
  components : List.Forall₂ (fun part f => r.formOf? part = some f) parts forms
  nodup : parts.Nodup
  formOf? : r.formOf? judgment = some form
  symbols : form.symbols = r.conjoinedSymbols separator forms

variable {r r' : Registry} {separator : String} {parts : List JudgmentId} {forms : List Form}
  {judgment : JudgmentId} {form : Form}

theorem Consistent.declares_forms (hr : r.Consistent)
    (hforms : List.Forall₂ (fun part f => r.formOf? part = some f) parts forms) :
    ∀ f ∈ forms, r.Declares f :=
  (forall_forms_iff hforms).mpr fun _ _ _ hf => hr.declares_formOf? hf

theorem Conjoins.of_extends (h : r.Conjoins separator parts forms judgment form)
    (hr : r.Consistent) (he : r.Extends r') : r'.Conjoins separator parts forms judgment form where
  components := he.forms h.components
  nodup := h.nodup
  formOf? := he.formOf? h.formOf?
  symbols := by rw [h.symbols, he.conjoinedSymbols (hr.declares_forms h.components)]

/-- Renaming keeps the number of elements. -/
theorem Conjoins.length_form (h : r.Conjoins separator parts forms judgment form) :
    form.length = (forms.map Form.length).sum + (parts.length - 1) := by
  let joined := Form.joinWith (.terminal separator {}) (forms.map (·.elements))
  have hrenamed : form.symbols.length = joined.length := by
    rw [h.symbols, conjoinedSymbols, numbered, List.length_map]
    exact (renames_renameElements _ joined).replaces.length_eq.symm
  rw [Form.symbols, List.length_map, Form.length_joinWith, List.map_map, List.length_map,
    ← h.components.length_eq] at hrenamed
  exact hrenamed

end Registry

namespace Workspace

variable {w w' : Workspace} {span : Span} {parts : List JudgmentId} {made : Synthesis}
  {forms : List Form} {clauses : List Clause}

theorem Makes.steps (h : w.Makes span parts w' made forms clauses) :
    w.registry.Steps w'.registry := by
  have hreg := Registry.register_of_accepts h.accepts w.config.validate
  have hsteps := Registry.steps_register w.registry (w.construction span parts forms)
    w.config.validate
  rw [hreg] at hsteps
  rw [h.registry]
  exact hsteps

theorem Makes.extends (h : w.Makes span parts w' made forms clauses) :
    w.registry.Extends w'.registry :=
  Registry.extends_of_steps h.steps

theorem Makes.conjoins (h : w.Makes span parts w' made forms clauses)
    (hr : w.registry.Consistent) :
    w'.registry.Conjoins w'.config.separator parts forms made.judgment
      (w.construction span parts forms).form where
  components := h.extends.forms h.components
  nodup := h.nodup
  formOf? := h.formOf?
  symbols := by
    rw [h.extends.conjoinedSymbols (hr.declares_forms h.components), h.config]
    exact Registry.construct_symbols h.components w.config span

structure Faithful (w : Workspace) : Prop where
  consistent : w.registry.Consistent
  tracked : w.Tracked
  conjoined : ∀ parts judgment, w.cache.get? parts = some judgment →
    ∃ forms form, w.registry.Conjoins w.config.separator parts forms judgment form

theorem Faithful.of_steps (h : w.Faithful) (hcache : w'.cache = w.cache)
    (hconfig : w'.config = w.config) (hs : w.registry.Steps w'.registry) : w'.Faithful where
  consistent := Registry.consistent_of_steps h.consistent hs
  tracked := h.tracked.of_extends hcache (Registry.extends_of_steps hs)
  conjoined parts judgment hget := by
    obtain ⟨forms, form, hconjoins⟩ := h.conjoined parts judgment (hcache ▸ hget)
    rw [hconfig]
    exact ⟨forms, form, hconjoins.of_extends h.consistent (Registry.extends_of_steps hs)⟩

theorem Faithful.synthesize (h : w.Faithful) (span : Span) (parts : List JudgmentId) :
    (w.synthesize span parts).1.Faithful := by
  refine ⟨Registry.consistent_of_steps h.consistent (Registry.steps_synthesize w span parts),
    h.tracked.synthesize span parts, ?_⟩
  refine holds_synthesize (P := fun w => ∀ parts judgment, w.cache.get? parts = some judgment →
    ∃ forms form, w.registry.Conjoins w.config.separator parts forms judgment form)
    h.consistent h.conjoined fun w' made forms clauses hnone hmakes other judgment hget => ?_
  rw [hmakes.get? hnone] at hget
  split at hget
  · rename_i he
    cases hget
    exact ⟨forms, _, he ▸ hmakes.conjoins h.consistent⟩
  · obtain ⟨forms', form', hconjoins⟩ := h.conjoined other judgment hget
    rw [hmakes.config]
    exact ⟨forms', form', hconjoins.of_extends h.consistent hmakes.extends⟩

theorem faithful_new {registry : Registry} (hr : registry.Consistent) (config : Config) :
    ({ registry, config } : Workspace).Faithful where
  consistent := hr
  tracked := tracked_new registry config
  conjoined _ _ hget := by cases hget

theorem faithful_perform (h : w.Faithful) (e : WorkspaceEvent) : (w.perform e).Faithful := by
  cases e with
  | write e => exact h.of_steps rfl rfl (w.registry.steps_write e)
  | synthesize span parts => exact h.synthesize span parts
  | clear => exact faithful_new h.consistent w.config

theorem faithful_run (h : w.Faithful) (events : List WorkspaceEvent) :
    (w.run events).Faithful := by
  induction events generalizing w with
  | nil => exact h
  | cons e events ih => exact ih (faithful_perform h e)

/-- The workspace comes about over a table that a program arrives at, by whatever happens to it. -/
def Arises (w : Workspace) : Prop :=
  ∃ registry config events, registry.Reachable ∧ run { registry, config } events = w

theorem Arises.faithful (h : w.Arises) : w.Faithful := by
  obtain ⟨registry, config, events, hr, rfl⟩ := h
  exact faithful_run (faithful_new hr.consistent config) events

/-! ## Requests -/

/-- The components of a conjunction on record pass the check that a new list has to pass. -/
theorem Faithful.componentForms_of_get? (h : w.Faithful) {judgment : JudgmentId}
    (hget : w.cache.get? parts = some judgment) :
    ∃ forms, w.registry.componentForms [] parts = .ok forms := by
  obtain ⟨forms, _, hconjoins⟩ := h.conjoined parts judgment hget
  exact ⟨forms, Registry.componentForms_eq_ok_iff.mpr
    ⟨hconjoins.components, hconjoins.nodup, fun _ _ hmem => by cases hmem⟩⟩

/-- What is given is the conjunction of the list, be it new or not. -/
theorem Faithful.conjoins_of_synthesize (h : w.Faithful)
    (hmade : (w.synthesize span parts).2 = .ok made) :
    ∃ forms form, (w.synthesize span parts).1.registry.Conjoins
      (w.synthesize span parts).1.config.separator parts forms made.judgment form :=
  (h.synthesize span parts).conjoined parts made.judgment (get?_of_synthesize hmade).1

/-- The components had their forms before the request. -/
theorem Faithful.exists_forms_of_synthesize (h : w.Faithful)
    (hmade : (w.synthesize span parts).2 = .ok made) :
    ∃ forms form, List.Forall₂ (fun part f => w.registry.formOf? part = some f) parts forms ∧
      (w.synthesize span parts).1.registry.Conjoins
        (w.synthesize span parts).1.config.separator parts forms made.judgment form := by
  rcases w.synthesize_outcome span parts with ⟨known, hget, heq⟩ | ⟨e, he, _⟩ |
    ⟨w', made', forms, clauses, _, heq, _, hmakes⟩
  · obtain ⟨forms, form, hconjoins⟩ := h.conjoined parts known hget
    rw [heq] at hmade ⊢
    cases hmade
    exact ⟨forms, form, hconjoins.components, hconjoins⟩
  · rw [he] at hmade
    cases hmade
  · rw [heq] at hmade ⊢
    cases hmade
    exact ⟨forms, _, hmakes.components, hmakes.conjoins h.consistent⟩

end Workspace
end Inference
