import Inference.Proofs.Conjunction.Faithful
import Inference.Proofs.Registry.Spelling
import Inference.Proofs.Session.Store

/-!
# Inference.Proofs.Session.Spelling

Conjunctions are spelled with words. The separator is a word, or the configuration would not have
been accepted, and the forms of a program are spelled with words, so the form of a conjunction is
too, and so is that of a conjunction of conjunctions. That of nothing is empty, and may be a part of
others.

* `Workspace.Spelled`: the forms in the table and the separator; `Spelled.makes`, after a new
  conjunction.
* `Session.spelled_run`: the workspace of a session over the table of a program, at any time.
-/

namespace Inference

open Text (IsWord)

namespace Workspace

structure Spelled (w : Workspace) : Prop where
  consistent : w.registry.Consistent
  separator : IsWord w.config.separator
  forms : w.registry.SpellsForms

variable {w w' : Workspace} {span : Span} {parts : List JudgmentId} {made : Synthesis}
  {forms : List Form} {clauses : List Clause}

theorem Spelled.makes (h : w.Spelled) (hmakes : w.Makes span parts w' made forms clauses) :
    w'.Spelled := by
  have hcomponents : ∀ f ∈ forms, w.registry.Spells f :=
    (Registry.forall_forms_iff hmakes.components).mpr fun _ _ _ hf => h.forms.formOf? hf
  have hform : w.registry.Spells (w.construction span parts forms).form :=
    Form.forall_mem_joinWith (Registry.spelled_terminal h.separator)
      (Registry.forall_mem_renamedForms (fun _ n hv => hv.renamed n) hcomponents span)
  have hproductions : w'.registry.productions = w.registry.productions ++
      [w.registry.newProduction w.registry.enteredId (w.construction span parts forms).name
        (w.construction span parts forms).form] := by
    rw [hmakes.registry]
    rfl
  exact {
    consistent := Registry.consistent_of_steps h.consistent hmakes.steps
    separator := hmakes.config ▸ h.separator
    forms := h.forms.append hmakes.extends hform hproductions }

theorem Spelled.synthesize (h : w.Spelled) (span : Span) (parts : List JudgmentId) :
    (w.synthesize span parts).1.Spelled :=
  holds_synthesize h.consistent h fun _ _ _ _ _ hmakes => h.makes hmakes

end Workspace

namespace Session

theorem spelled_run {ds : List Declaration} {registry : Registry} {id : Nat} {config : Config}
    {s : Session} (hregistry : Registry.ofDeclarations ds = .ok registry)
    (hs : Session.start id registry config = .ok s) (requests : List SessionRequest) :
    (s.run requests).workspace.Spelled := by
  have hnew : Workspace.Spelled { registry, config } := {
    consistent := Registry.consistent_ofDeclarations hregistry
    separator := Config.check_eq_ok_iff.mp (start_eq_ok_iff.mp hs).1
    forms := Registry.spellsForms_ofDeclarations hregistry }
  exact (requested_run hs requests).of_step hnew fun _ hw => hw.synthesize

end Session
end Inference
