import Inference.Proofs.Conjunction.Acceptance
import Inference.Proofs.Registry.Extends

/-!
# Inference.Proofs.Conjunction.Context

The context of a conjunction. It is found in three ways: among the components, when they are to
agree; by the renamer, which keeps it while every other variable gets a new name; and in the joined
form, once the conjunction is entered. All three come to the first context that there is, since
before it no variable over a context category stands anywhere.

* `contextOf?_eq_head?`, `agree_context_eq_findSome?`: the context of the first component with one.
* `head?_contextsAmong_of_replaces`: the first context outlasts the renaming.
* `Makes.contextOf?`, `synthesize_context`: it is the context of the conjunction.
-/

namespace Inference

namespace Registry

variable {r : Registry}

theorem contextOf?_eq_head? (r : Registry) (id : JudgmentId) :
    r.contextOf? id = (r.contextsOf id).head? := by
  rw [contextOf?, contextsOf]
  cases r.formOf? id <;> rfl

theorem agree_context_eq_findSome? (r : Registry) (parts : List JudgmentId) (span : Span) :
    (r.agree parts span).context = parts.findSome? r.contextOf? := by
  rw [agree_context, List.head?_flatMap]
  exact congrArg (parts.findSome? ·) (funext fun part => (r.contextOf?_eq_head? part).symm)

theorem contextOf?_eq_contextsAmong {id : JudgmentId} {form : Form} (h : r.formOf? id = some form) :
    r.contextOf? id = (r.contextsAmong form.elements).head? := by
  rw [contextOf?, h]
  rfl

theorem contextsAmong_cons (r : Registry) (e : Element) (es : List Element) :
    r.contextsAmong (e :: es) = r.contextsAmong [e] ++ r.contextsAmong es :=
  r.contextsAmong_append [e] es

theorem contextsAmong_nonterminal (r : Registry) (nt : Nonterminal) :
    r.contextsAmong [.ofNonterminal nt] = if r.isContext nt.val.category then [nt] else [] :=
  List.filter_cons

theorem contextsAmong_joinWith (r : Registry) (token : String) (span : Span)
    (parts : List (List Element)) :
    r.contextsAmong (Form.joinWith (.terminal token span) parts) =
      r.contextsAmong parts.flatten := by
  rw [contextsAmong, Form.filterMap_joinWith rfl]
  rfl

theorem contextsAmong_of_replaces (r : Registry) {context : Option Variable} {span : Span}
    {e e' : Element} (h : Replaces context span e e') :
    r.contextsAmong [e'] = r.contextsAmong [e] ∨
      ∃ nt, r.contextsAmong [e] = [nt] ∧ context ≠ some nt.val := by
  cases h with
  | keep _ => exact .inl rfl
  | @fresh v place name hne =>
    have hold := r.contextsAmong_nonterminal ⟨v, place⟩
    by_cases hcat : r.isContext v.category = true
    · exact .inr ⟨⟨v, place⟩, hold.trans (if_pos hcat), hne⟩
    · rw [contextsAmong_nonterminal, if_neg hcat]
      exact .inl (hold.trans (if_neg hcat)).symm

/-- The first context outlasts the renaming, since it is the variable that is kept. -/
theorem head?_contextsAmong_of_replaces {context : Option Variable} {span : Span}
    {es es' : List Element} (h : List.Forall₂ (Replaces context span) es es')
    (hc : context = (r.contextsAmong es).head?.map (·.val)) :
    (r.contextsAmong es').head? = (r.contextsAmong es).head? := by
  induction h with
  | nil => rfl
  | @cons e e' es es' he _ ih =>
    rw [contextsAmong_cons] at hc
    rw [contextsAmong_cons, contextsAmong_cons r e]
    rcases r.contextsAmong_of_replaces he with hsame | ⟨nt, hnt, hne⟩
    · rw [hsame]
      cases hfound : r.contextsAmong [e] with
      | nil =>
        rw [hfound] at hc
        exact ih hc
      | cons first _ => rfl
    · rw [hnt] at hc
      exact absurd hc hne

end Registry

/-! ## In a new conjunction -/

namespace Workspace

open Registry

variable {w w' : Workspace} {span : Span} {parts : List JudgmentId} {made : Synthesis}
  {forms : List Form} {clauses : List Clause}

theorem Makes.exists_form (h : w.Makes span parts w' made forms clauses) {part : JudgmentId}
    (hpart : part ∈ parts) : ∃ form, w.registry.formOf? part = some form := by
  obtain ⟨i, hi, rfl⟩ := List.mem_iff_getElem.mp hpart
  exact ⟨_, h.components.get hi (h.components.length_eq ▸ hi)⟩

/-- The first context in the form of a new conjunction is the one its components share, at the
place where the first of them has it. -/
theorem Makes.contextOf? (h : w.Makes span parts w' made forms clauses) :
    w'.registry.contextOf? made.judgment = (w.registry.agree parts span).context := by
  have hcontext : (w.registry.agree parts span).context =
      (w.registry.contextsAmong (forms.flatMap (·.elements))).head? := by
    rw [agree_context, ← contextsAmong_joinedForms, joinedForms_eq h.components]
  obtain ⟨st, hst, _⟩ := NameSupply.empty.renames_rename w.registry forms
    (w.registry.agree parts span).context span
  have hkept := head?_contextsAmong_of_replaces hst.replaces (congrArg (·.map (·.val)) hcontext)
  have hcategories : w'.registry.contextsAmong = w.registry.contextsAmong := by
    rw [h.registry]
    rfl
  rw [contextOf?_eq_contextsAmong h.formOf?, h.form_elements, hcategories, contextsAmong_joinWith,
    h.premiseClauses.2, hcontext]
  exact hkept

/-- The context of a conjunction, whether or not its components agree on one, is the context they
are found to share, which is that of the first component that has one. When no component has a
context, neither has the conjunction. The contexts of the components are the same before and
after. -/
theorem synthesize_context (h : w.synthesize span parts = (w', .ok made))
    (hfresh : made.fresh = true) :
    w'.registry.contextOf? made.judgment = (w.registry.agree parts span).context ∧
    (w.registry.agree parts span).context = parts.findSome? w.registry.contextOf? ∧
    (w'.registry.contextOf? made.judgment = none ↔
      ∀ part ∈ parts, w.registry.contextOf? part = none) ∧
    ∀ part ∈ parts, w'.registry.contextOf? part = w.registry.contextOf? part := by
  obtain ⟨forms, clauses, hm⟩ := makes_of_synthesize h hfresh
  have hfirst := w.registry.agree_context_eq_findSome? parts span
  refine ⟨hm.contextOf?, hfirst, ?_, fun part hpart => ?_⟩
  · rw [hm.contextOf?, hfirst, List.findSome?_eq_none_iff]
  · obtain ⟨form, hform⟩ := hm.exists_form hpart
    rw [Registry.contextOf?, Registry.contextOf?, hform, hm.registry, formOf?_entered hform]
    rfl

def closedOverOther : List Write :=
  [.reserve "closed" {},
    .define ⟨2⟩ "closed" ⟨[.ofNonterminal ⟨⟨"Gamma'", ⟨0⟩⟩, {}⟩, .terminal "closed" {}], {}⟩]

/-- The halting judgment has no context, and the two after it have different ones: the conjunction
has that of the closed judgment. -/
theorem synthesize_context_sample : ∃ w' made context,
    Workspace.synthesize { registry := sample.run closedOverOther } {} [⟨1⟩, ⟨2⟩, ⟨0⟩] =
      (w', .ok made) ∧
    made.fresh = true ∧ ((sample.run closedOverOther).agree [⟨1⟩, ⟨2⟩, ⟨0⟩] {}).holds = false ∧
    (sample.run closedOverOther).contextOf? ⟨2⟩ = some context ∧
    w'.registry.contextOf? made.judgment = some context := by
  obtain ⟨w', made, h, hfresh⟩ : ∃ w' made,
      Workspace.synthesize { registry := sample.run closedOverOther } {} [⟨1⟩, ⟨2⟩, ⟨0⟩] =
        (w', .ok made) ∧ made.fresh = true := ⟨_, _, rfl, rfl⟩
  obtain ⟨hcontext, hfirst, _⟩ := synthesize_context h hfresh
  have hclosed : [⟨1⟩, ⟨2⟩, ⟨0⟩].findSome? (sample.run closedOverOther).contextOf? =
      (sample.run closedOverOther).contextOf? ⟨2⟩ := by decide +kernel
  refine ⟨w', made, _, h, hfresh, by decide +kernel, rfl, ?_⟩
  exact hcontext.trans (hfirst.trans hclosed)

end Workspace

end Inference
