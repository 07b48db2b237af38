import Inference.Conjunction.Workspace
import Inference.Proofs.Conjunction.Agreement
import Inference.Proofs.Conjunction.Assembly
import Inference.Proofs.Conjunction.Registration
import Inference.Proofs.Registry.Reachable

/-!
# Inference.Proofs.Conjunction.Synthesis

What a request for a conjunction does when it makes a new one, and the rule it gives that
conjunction.

* `Makes`: everything such a request does, from the forms of the components to the new table.
* `synthesize_introduction`: the conjunction has one rule, with one premise for each component,
  and its variables are named apart.
-/

namespace Inference
namespace Registry

variable {r : Registry} {parts : List JudgmentId} {forms : List Form}

theorem hasJudgment_of_formOf? {id : JudgmentId} {f : Form} (h : r.formOf? id = some f) :
    r.hasJudgment id = true := by
  obtain ⟨j, hj⟩ := exists_judgment_of_formOf? h
  exact decide_eq_true (List.getElem?_eq_some_iff.mp hj).1

theorem componentForms_eq_ok_iff {seen : List JudgmentId} :
    r.componentForms seen parts = .ok forms ↔
      List.Forall₂ (fun part f => r.formOf? part = some f) parts forms ∧ parts.Nodup ∧
      ∀ part ∈ parts, part ∉ seen := by
  induction parts generalizing seen forms with
  | nil =>
    constructor
    · intro h; cases h; exact ⟨.nil, .nil, fun _ h => by cases h⟩
    · rintro ⟨h, -, -⟩; cases h; rfl
  | cons part parts ih =>
    constructor
    · intro h
      rw [componentForms] at h
      split at h
      · split at h
        · cases h
        · rename_i hseen
          split at h
          · cases h
          · rename_i form hform
            split at h
            · cases h
            · rename_i rest hrest
              cases h
              obtain ⟨h1, h2, h3⟩ := ih.mp hrest
              refine ⟨.cons hform h1, List.nodup_cons.mpr ⟨fun hmem => ?_, h2⟩, ?_⟩
              · exact h3 part hmem (List.mem_cons_self ..)
              · intro other hother
                rcases List.mem_cons.mp hother with rfl | hother
                · exact hseen
                · exact fun hs => h3 other hother (List.mem_cons_of_mem _ hs)
      · cases h
    · rintro ⟨hforms, hnd, hseen⟩
      cases hforms with
      | @cons _ form _ rest hform hrest =>
        obtain ⟨hnot, hnd⟩ := List.nodup_cons.mp hnd
        have h : r.componentForms (part :: seen) parts = .ok rest := by
          refine ih.mpr ⟨hrest, hnd, fun other hother hmem => ?_⟩
          rcases List.mem_cons.mp hmem with rfl | hmem
          · exact hnot hother
          · exact hseen other (List.mem_cons_of_mem _ hother) hmem
        rw [componentForms, if_pos (hasJudgment_of_formOf? hform),
          if_neg (hseen part (List.mem_cons_self ..)), hform]
        simp only [h]

theorem premiseClauses_of_forms
    (hforms : List.Forall₂ (fun part f => r.formOf? part = some f) parts forms) (span : Span)
    {premises : List (List Element)} (hlen : parts.length = premises.length) :
    ∃ clauses, r.premiseClauses span parts premises = .ok clauses ∧
      List.Forall₂ (fun part c => r.productionOf? part = some c.production) parts clauses ∧
      clauses.map (·.elements) = premises := by
  induction hforms generalizing premises with
  | nil =>
    cases List.eq_nil_of_length_eq_zero hlen.symm
    exact ⟨[], rfl, .nil, rfl⟩
  | @cons part form parts forms hform _ ih =>
    cases premises with
    | nil => cases hlen
    | cons elements premises =>
      obtain ⟨clauses, h1, h2, h3⟩ := ih (Nat.succ.inj hlen)
      obtain ⟨pid, _, hpid, _⟩ := formOf?_eq_some_iff.mp hform
      obtain ⟨j, hj, hjp⟩ := productionOf?_eq_some_iff.mp hpid
      refine ⟨{ elements, span, production := pid } :: clauses, ?_, .cons hpid h2, ?_⟩
      · simp only [premiseClauses, hj, hjp, h1]
      · rw [List.map_cons, h3]

/-! ## A new conjunction -/

/-- The forms of the components renamed apart, but for the context they share. -/
def renamedForms (r : Registry) (parts : List JudgmentId) (span : Span) (forms : List Form) :
    Renamed :=
  NameSupply.empty.rename r forms (r.agree parts span).context span

/-- The context that a conjunction keeps. -/
def sharedContext (r : Registry) (parts : List JudgmentId) (span : Span) : Option Variable :=
  (r.agree parts span).context.map (·.val)

theorem forall_mem_renamedForms {P : Symbol → Prop}
    (hnumbered : ∀ v n, P (.nonterminal v) →
      P (.nonterminal ⟨Text.numbered (r.freshBase v) n, v.category⟩))
    (hforms : ∀ f ∈ forms, ∀ e ∈ f.elements, P e.val) (span : Span) :
    ∀ es ∈ (r.renamedForms parts span forms).components, ∀ e ∈ es, P e.val := by
  obtain ⟨st, hrenames, _⟩ := NameSupply.empty.renames_rename r forms (r.agree parts span).context
    span
  have hall := hrenames.forall_mem hnumbered (List.forall_mem_flatMap.mpr hforms)
  exact List.forall_mem_flatten.mp hall

end Registry

namespace Workspace

def construction (w : Workspace) (span : Span) (parts : List JudgmentId) (forms : List Form) :
    Construction :=
  (w.registry.construct w.config span parts forms).1

/-- All that a request does when it makes a new conjunction. -/
structure Makes (w : Workspace) (span : Span) (parts : List JudgmentId) (w' : Workspace)
    (made : Synthesis) (forms : List Form) (clauses : List Clause) : Prop where
  components : List.Forall₂ (fun part f => w.registry.formOf? part = some f) parts forms
  nodup : parts.Nodup
  accepts : w.registry.Accepts (w.construction span parts forms) clauses
  registry : w'.registry = w.registry.entered (w.construction span parts forms) clauses
  cache : w'.cache = (w.cache.insert parts made.judgment).1
  config : w'.config = w.config
  judgment : made.judgment = w.registry.enteredId
  diagnostics : made.diagnostics = (w.registry.agree parts span).diagnostics ++
    if w.config.validate then (w'.registry.check made.judgment).1 else []

theorem makes_of_synthesize {w w' : Workspace} {span : Span} {parts : List JudgmentId}
    {made : Synthesis} (h : w.synthesize span parts = (w', .ok made)) (hfresh : made.fresh = true) :
    ∃ forms clauses, w.Makes span parts w' made forms clauses := by
  rw [synthesize] at h
  split at h
  · cases h; cases hfresh
  split at h
  · cases h
  rename_i forms hforms
  obtain ⟨hforms, hnd, _⟩ := Registry.componentForms_eq_ok_iff.mp hforms
  dsimp only at h
  split at h
  · cases h
  rename_i registry id problems hreg
  cases h
  obtain ⟨clauses, hacc, rfl, rfl, rfl⟩ := Registry.register_eq_ok_iff.mp hreg
  exact ⟨forms, clauses, hforms, hnd, hacc, rfl, rfl, rfl, rfl, rfl⟩

section Makes

variable {w w' : Workspace} {span : Span} {parts : List JudgmentId} {made : Synthesis}
  {forms : List Form} {clauses : List Clause}

theorem Makes.replaces (_ : w.Makes span parts w' made forms clauses) :
    List.Forall₂ (fun f es =>
      List.Forall₂ (Replaces (w.registry.sharedContext parts span) span) f.elements es) forms
      (w.registry.renamedForms parts span forms).components :=
  NameSupply.rename_replaces ..

theorem Makes.premiseClauses (h : w.Makes span parts w' made forms clauses) :
    List.Forall₂ (fun part c => w.registry.productionOf? part = some c.production) parts clauses ∧
      clauses.map (·.elements) = (w.registry.renamedForms parts span forms).components := by
  have hlen := h.components.length_eq.trans h.replaces.length_eq
  obtain ⟨found, h1, h2, h3⟩ := Registry.premiseClauses_of_forms h.components span hlen
  have he := h.accepts.premises.symm.trans h1
  cases he
  exact ⟨h2, h3⟩

theorem Makes.rulesFor (h : w.Makes span parts w' made forms clauses) :
    w'.registry.rulesFor made.judgment =
      [w.registry.enteredRule (w.construction span parts forms) clauses] := by
  rw [h.registry, h.judgment, Registry.rulesFor_entered_new]

theorem Makes.formOf? (h : w.Makes span parts w' made forms clauses) :
    w'.registry.formOf? made.judgment = some (w.construction span parts forms).form := by
  rw [h.registry, h.judgment, Registry.formOf?_entered_new]

theorem Makes.premises (h : w.Makes span parts w' made forms clauses) :
    List.Forall₂ (fun part c => ∃ f, w.registry.formOf? part = some f ∧
      w.registry.productionOf? part = some c.production ∧ SameShape f.elements c.elements)
      parts clauses := by
  obtain ⟨hprod, helems⟩ := h.premiseClauses
  have hrep := h.replaces
  rw [← helems, List.forall₂_map_right_iff] at hrep
  rw [List.forall₂_iff_get]
  refine ⟨hprod.length_eq, fun i hi hc => ?_⟩
  have hf : i < forms.length := h.components.length_eq ▸ hi
  refine ⟨forms.get ⟨i, hf⟩, h.components.get hi hf, hprod.get hi hc, ?_⟩
  exact (hrep.get hf hc).imp fun _ _ => Replaces.fits

theorem Makes.form_elements (h : w.Makes span parts w' made forms clauses) :
    (w.construction span parts forms).form.elements =
      Form.joinWith (.terminal w.config.separator span) (clauses.map (·.elements)) := by
  rw [h.premiseClauses.2]
  rfl

theorem Makes.namedApart (h : w.Makes span parts w' made forms clauses) :
    NamedApart (w.registry.sharedContext parts span) (clauses.map (·.elements)).flatten := by
  rw [h.premiseClauses.2]
  exact NameSupply.rename_namedApart ..

end Makes

/-- A new conjunction has exactly one rule. Its premises are instances of the forms of the
components in order, over their productions, and it concludes the form of the conjunction, which is
the premises joined by one separator between neighbours. Two places of the conclusion have the same
name only when both are the context that the components share. -/
theorem synthesize_introduction {w w' : Workspace} {span : Span} {parts : List JudgmentId}
    {made : Synthesis} (h : w.synthesize span parts = (w', .ok made))
    (hfresh : made.fresh = true) :
    ∃ rule form, w'.registry.rulesFor made.judgment = [rule] ∧
      List.Forall₂ (fun part premise => ∃ f,
        w.registry.formOf? part = some f ∧ w'.registry.formOf? part = some f ∧
        w'.registry.productionOf? part = some premise.production ∧
        SameShape f.elements premise.elements) parts rule.premises ∧
      w'.registry.productionOf? made.judgment = some rule.conclusion.production ∧
      w'.registry.formOf? made.judgment = some form ∧
      rule.conclusion.elements = form.elements ∧
      form.elements = [.terminal w.config.separator span].intercalate
        (rule.premises.map (·.elements)) ∧
      ∀ (i j : Nat) (u v : Variable), i ≠ j → rule.conclusion.symbols[i]? = some (.nonterminal u) →
        rule.conclusion.symbols[j]? = some (.nonterminal v) → u.name = v.name →
        (w.registry.agree parts span).context.map (·.val) = some u ∧
        (w.registry.agree parts span).context.map (·.val) = some v := by
  obtain ⟨forms, clauses, hm⟩ := makes_of_synthesize h hfresh
  refine ⟨_, _, hm.rulesFor, ?_, ?_, hm.formOf?, rfl, ?_, ?_⟩
  · refine hm.premises.imp fun part c hc => ?_
    obtain ⟨f, h1, h2, h3⟩ := hc
    rw [hm.registry]
    exact ⟨f, h1, Registry.formOf?_entered h1, Registry.productionOf?_entered h2, h3⟩
  · rw [hm.registry, hm.judgment, Registry.productionOf?_entered_new]
    rfl
  · rw [hm.form_elements, Form.joinWith_eq_intercalate]
    rfl
  · intro i j u v hij hi hj hn
    have hapart := Form.namedApart_joinWith w.config.separator span hm.namedApart
    rw [← hm.form_elements] at hapart
    obtain ⟨e, he, hu⟩ := Form.getElem?_symbols.mp hi
    obtain ⟨f, hf, hv⟩ := Form.getElem?_symbols.mp hj
    exact hapart.getElem? hij he hf hu hv hn

theorem exists_synthesize_sample : ∃ w' made,
    Workspace.synthesize { registry := .sample } {} [⟨0⟩, ⟨1⟩] = (w', .ok made) ∧
    made.fresh = true := ⟨_, _, rfl, rfl⟩

theorem synthesize_introduction_sample : ∃ w' made rule,
    Workspace.synthesize { registry := .sample } {} [⟨0⟩, ⟨1⟩] = (w', .ok made) ∧
    made.fresh = true ∧ w'.registry.rulesFor made.judgment = [rule] ∧
    rule.premises.length = 2 := by
  obtain ⟨w', made, h, hfresh⟩ := exists_synthesize_sample
  obtain ⟨rule, form, hrule, hpremises, _⟩ := synthesize_introduction h hfresh
  exact ⟨w', made, rule, h, hfresh, hrule, hpremises.length_eq.symm⟩

end Workspace
end Inference
