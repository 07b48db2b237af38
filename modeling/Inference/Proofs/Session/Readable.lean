import Inference.Proofs.Registry.Reading
import Inference.Proofs.Session.Store

/-!
# Inference.Proofs.Session.Readable

Conjunctions are written in the language of the program. If the forms of a program read back, so do
those of all conjunctions made of them, of conjunctions of these, and so on, and so do the premises
of their rules: the renamer numbers variables in the way that programs do.

* `Readable.renamed`: variables that read back are renamed to such.
* `Workspace.Legible`: all forms in the table, and all that conjunctions on record consist of, read
  back; `Legible.synthesize`, after one more request.
* `readable_run`: what this says of a session.
-/

namespace Inference

namespace Registry

variable {r : Registry}

theorem Readable.renamed {v : Variable} (h : r.Readable (.nonterminal v))
    (hr : r.Consistent) (hnames : ∀ c ∈ r.categories, Unsuffixed c.name) (n : Nat) :
    r.Readable (.nonterminal ⟨Text.numbered (r.freshBase v) n, v.category⟩) := by
  obtain ⟨c, hc, hword⟩ := h.exists_category hr
  rw [freshBase_of_category? hc]
  exact hr.readable_numbered hnames hc hword n

/-- The judgment has a form that reads back and one rule, whose premises read back. -/
def LegibleConjunction (r : Registry) (judgment : JudgmentId) : Prop :=
  ∃ form rule, r.formOf? judgment = some form ∧ r.rulesFor judgment = [rule] ∧
    r.ReadsBack form ∧ ∀ premise ∈ rule.premises, r.ReadsBack premise.toForm

theorem LegibleConjunction.entered {judgment : JudgmentId} (h : r.LegibleConjunction judgment)
    (hr : r.Consistent) (k : Construction) (clauses : List Clause) :
    (r.entered k clauses).LegibleConjunction judgment := by
  obtain ⟨form, rule, hform, hrule, hback, hpremises⟩ := h
  obtain ⟨j, hj⟩ := exists_judgment_of_formOf? hform
  refine ⟨form, rule, formOf?_entered hform, ?_, (readsBack_congr rfl).mpr hback,
    fun premise hp => (readsBack_congr rfl).mpr (hpremises premise hp)⟩
  rw [rulesFor_entered hr hj, hrule]

theorem readsBack_formOf? (h : ∀ p ∈ r.productions, r.ReadsBack p.form) {judgment : JudgmentId}
    {form : Form} (hform : r.formOf? judgment = some form) : r.ReadsBack form := by
  obtain ⟨p, hp, rfl⟩ := exists_production_of_formOf? hform
  exact h p hp

end Registry

namespace Workspace

structure Legible (w : Workspace) : Prop where
  consistent : w.registry.Consistent
  names : ∀ c ∈ w.registry.categories, Unsuffixed c.name
  separator : w.registry.Readable (.terminal w.config.separator)
  forms : ∀ p ∈ w.registry.productions, w.registry.ReadsBack p.form
  conjunctions : ∀ parts judgment, w.cache.get? parts = some judgment →
    w.registry.LegibleConjunction judgment

variable {w w' : Workspace} {span : Span} {parts : List JudgmentId} {made : Synthesis}
  {forms : List Form} {clauses : List Clause}

/-! ## Requests -/

theorem Legible.renamedForms (h : w.Legible)
    (hforms : List.Forall₂ (fun part f => w.registry.formOf? part = some f) parts forms)
    (span : Span) : ∀ es ∈ (w.registry.renamedForms parts span forms).components,
      ∀ e ∈ es, w.registry.Readable e.val := by
  have hback : ∀ f ∈ forms, w.registry.ReadsBack f :=
    (Registry.forall_forms_iff hforms).mpr fun _ _ _ hf => Registry.readsBack_formOf? h.forms hf
  exact Registry.forall_mem_renamedForms (fun _ n hv => hv.renamed h.consistent h.names n)
    (fun f hf => Registry.readsBack_iff.mp (hback f hf)) span

theorem Legible.makes (h : w.Legible) (hnone : w.cache.get? parts = none)
    (hmakes : w.Makes span parts w' made forms clauses) : w'.Legible := by
  have hcomponents := h.renamedForms hmakes.components span
  have hpremises : ∀ premise ∈ clauses, w.registry.ReadsBack premise.toForm := by
    rw [← hmakes.premiseClauses.2] at hcomponents
    exact fun premise hp =>
      Registry.readsBack_iff.mpr (List.forall_mem_map.mp hcomponents premise hp)
  have hform : w.registry.ReadsBack (w.construction span parts forms).form :=
    Registry.readsBack_iff.mpr (Form.forall_mem_joinWith h.separator hcomponents)
  have hcategories : w'.registry.categories = w.registry.categories := by
    rw [hmakes.registry]
    rfl
  have hnames : w'.registry.categoryNames = w.registry.categoryNames := by
    rw [hmakes.registry]
    rfl
  have hconjunction : w'.registry.LegibleConjunction made.judgment :=
    ⟨_, _, hmakes.formOf?, hmakes.rulesFor, (Registry.readsBack_congr hnames).mpr hform,
      fun premise hp => (Registry.readsBack_congr hnames).mpr (hpremises premise hp)⟩
  exact {
    consistent := Registry.consistent_of_steps h.consistent hmakes.steps
    names := hcategories ▸ h.names
    separator := by
      rw [hmakes.config]
      exact (Registry.readable_congr hnames).mpr h.separator
    forms := by
      intro p hp
      rw [hmakes.registry, Registry.entered, List.mem_append, List.mem_singleton] at hp
      rw [Registry.readsBack_congr hnames]
      rcases hp with hp | rfl
      · exact h.forms p hp
      · exact hform
    conjunctions := by
      intro other judgment hget
      rw [hmakes.get? hnone] at hget
      split at hget
      · cases hget
        exact hconjunction
      · rw [hmakes.registry]
        exact (h.conjunctions other judgment hget).entered h.consistent _ _ }

theorem Legible.synthesize (h : w.Legible) (span : Span) (parts : List JudgmentId) :
    (w.synthesize span parts).1.Legible :=
  holds_synthesize h.consistent h fun _ _ _ _ hnone hmakes => h.makes hnone hmakes

theorem legible_new {registry : Registry} {config : Config} (hr : registry.Consistent)
    (hconfig : config.check = .ok ()) (hnames : ∀ c ∈ registry.categories, Unsuffixed c.name)
    (hforms : ∀ p ∈ registry.productions, registry.ReadsBack p.form)
    (hseparator : registry.categoryOfWord? config.separator = none) :
    Legible { registry, config } where
  consistent := hr
  names := hnames
  separator := ⟨Config.check_eq_ok_iff.mp hconfig,
    Registry.readSymbol_eq_terminal_iff.mpr hseparator⟩
  forms := hforms
  conjunctions _ _ hget := by cases hget

end Workspace

namespace Session

/-- Take a program in which no category has a name that ends like that of a numbered variable and
all forms read back, and a separator that is no variable. Then a session starts over it, and
whatever is asked of it, all forms in its table read back. Each judgment that it made has a form and
one rule, and the form and the premises of the rule read back. -/
theorem readable_run {registry : Registry} {config : Config} (hr : registry.Reachable)
    (hconfig : config.check = .ok ()) (hnames : ∀ c ∈ registry.categories, Unsuffixed c.name)
    (hforms : ∀ p ∈ registry.productions, registry.ReadsBack p.form)
    (hseparator : registry.categoryOfWord? config.separator = none) (id : Nat) :
    ∃ s, Session.start id registry config = .ok s ∧ ∀ requests t, s.run requests = t →
      (∀ p ∈ t.registry.productions, t.registry.ReadsBack p.form) ∧
      ∀ judgment, registry.judgment? judgment = none → (t.registry.judgment? judgment).isSome →
        ∃ form rule, t.registry.formOf? judgment = some form ∧
          t.registry.rulesFor judgment = [rule] ∧ t.registry.ReadsBack form ∧
          ∀ premise ∈ rule.premises, t.registry.ReadsBack premise.toForm := by
  obtain ⟨s, hs⟩ := exists_start hconfig id registry
  refine ⟨s, hs, ?_⟩
  rintro requests _ rfl
  have hrequested := requested_run hs requests
  have hlegible := hrequested.of_step
    (Workspace.legible_new hr.consistent hconfig hnames hforms hseparator) fun _ hw => hw.synthesize
  refine ⟨hlegible.forms, fun judgment hnone hsome => ?_⟩
  obtain ⟨parts, hget, _⟩ := (hrequested.stores hr.consistent).existsUnique_get? hnone hsome
  exact hlegible.conjunctions parts judgment hget

/-- A conjunction of conjunctions, which both have a variable `e1`. -/
theorem readable_run_sample : ∃ s, Session.start 1 .sample {} = .ok s ∧ ∃ t,
    s.run [.synthesize {} [⟨0⟩, ⟨1⟩], .synthesize {} [⟨1⟩, ⟨0⟩], .synthesize {} [⟨3⟩, ⟨4⟩]] = t ∧
    ∃ form rule, t.registry.formOf? ⟨5⟩ = some form ∧ t.registry.rulesFor ⟨5⟩ = [rule] ∧
      form.text =
        "Gamma |- e1 : tau2 and e3 halts and e4 halts and Gamma |- e5 : tau6" ∧
      t.registry.ReadsBack form ∧
      ∀ premise ∈ rule.premises, t.registry.ReadsBack premise.toForm := by
  let requests : List SessionRequest :=
    [.synthesize {} [⟨0⟩, ⟨1⟩], .synthesize {} [⟨1⟩, ⟨0⟩], .synthesize {} [⟨3⟩, ⟨4⟩]]
  have hconfig : ({} : Config).check = .ok () := rfl
  obtain ⟨s, hs, hrun⟩ := readable_run Registry.sample_reachable hconfig (by decide +kernel)
    (by decide +kernel) (by decide +kernel) 1
  obtain ⟨_, hmade⟩ := hrun requests _ rfl
  have hbeyond : ((s.run requests).registry.judgment? ⟨5⟩).isSome := by
    cases hs
    decide +kernel
  have htext : ((s.run requests).registry.formOf? ⟨5⟩).map Form.text =
      some "Gamma |- e1 : tau2 and e3 halts and e4 halts and Gamma |- e5 : tau6" := by
    cases hs
    decide +kernel
  obtain ⟨form, rule, hform, hrule, hback, hpremises⟩ := hmade ⟨5⟩ (by decide) hbeyond
  rw [hform] at htext
  exact ⟨s, hs, _, rfl, form, rule, hform, hrule, Option.some.inj htext, hback, hpremises⟩

end Session
end Inference
