import Inference.Proofs.Conjunction.Acceptance
import Inference.Proofs.Registry.Extends

/-!
# Inference.Proofs.Conjunction.Numbering

Which names the variables of a conjunction get. The numbers run through the joined form from left to
right, and apart from the shared context only the categories of the variables decide the names: two
forms that are alike in this respect are renamed to the same symbols.

* `renameElements_joinWith`: renaming forms and joining them is renaming the joined form.
* `Alike`, `renameElements_alike`: what the names depend on.
* `Registry.conjoinedSymbols`: the symbols of a conjunction, wherever it is asked for.
* `Extends.conjoinedSymbols`: they stay the same when the table is written to.
-/

namespace Inference

namespace Form

theorem joinWith_append (separator : Element) {xs ys : List (List Element)} (hx : xs ≠ [])
    (hy : ys ≠ []) :
    joinWith separator (xs ++ ys) =
      joinWith separator xs ++ separator :: joinWith separator ys := by
  induction xs using joinWith.induct with
  | case1 => exact absurd rfl hx
  | case2 part =>
    obtain ⟨y, ys, rfl⟩ := List.exists_cons_of_ne_nil hy
    rfl
  | case3 part next rest ih =>
    rw [List.cons_append, List.cons_append, joinWith, ← List.cons_append,
      ih (List.cons_ne_nil _ _), joinWith, List.append_assoc, List.cons_append]

theorem joinWith_flatten (separator : Element) {groups : List (List (List Element))}
    (h : ∀ group ∈ groups, group ≠ []) :
    joinWith separator groups.flatten = joinWith separator (groups.map (joinWith separator)) := by
  induction groups with
  | nil => rfl
  | cons group groups ih =>
    have hgroup := h group (List.mem_cons_self ..)
    have hrest := ih fun g hg => h g (List.mem_cons_of_mem _ hg)
    cases groups with
    | nil => simp [joinWith]
    | cons next groups =>
      have hne : (next :: groups).flatten ≠ [] := by
        have hnext := h next (List.mem_cons_of_mem _ (List.mem_cons_self ..))
        simp [hnext]
      rw [List.flatten_cons, joinWith_append separator hgroup hne, hrest]
      rfl

theorem forall₂_joinWith {R : Element → Element → Prop} {separator separator' : Element}
    (hseparator : R separator separator') {parts parts' : List (List Element)}
    (h : List.Forall₂ (List.Forall₂ R) parts parts') :
    List.Forall₂ R (joinWith separator parts) (joinWith separator' parts') := by
  induction h with
  | nil => exact .nil
  | cons hpart hrest ih =>
    cases hrest with
    | nil => exact hpart
    | cons _ _ => exact List.rel_append hpart (.cons hseparator ih)

end Form

namespace RenamingState

variable {r r' : Registry} {context : Option Variable} {span : Span}

theorem renameElements_append (st : RenamingState) (es fs : List Element) :
    renameElements r context span st (es ++ fs) =
      ((renameElements r context span (renameElements r context span st es).1 fs).1,
        (renameElements r context span st es).2 ++
          (renameElements r context span (renameElements r context span st es).1 fs).2) := by
  induction es generalizing st with
  | nil => rfl
  | cons e es ih =>
    simp only [List.cons_append, renameElements, ih]

theorem renameElements_terminal (token : String) (place : Span) (st : RenamingState)
    (es : List Element) :
    renameElements r context span st (.terminal token place :: es) =
      ((renameElements r context span st es).1,
        .terminal token place :: (renameElements r context span st es).2) := rfl

theorem renameElements_joinWith (token : String) (place : Span) (st : RenamingState)
    (fs : List Form) :
    renameElements r context span st
        (Form.joinWith (.terminal token place) (fs.map (·.elements))) =
      ((renameForms r context span st fs).1,
        Form.joinWith (.terminal token place) (renameForms r context span st fs).2) := by
  induction fs generalizing st with
  | nil => rfl
  | cons f fs ih =>
    cases fs with
    | nil => rfl
    | cons g fs =>
      have hrest := ih (renameElements r context span st f.elements).1
      simp only [List.map_cons] at hrest ⊢
      rw [Form.joinWith, renameElements_append, renameElements_terminal, hrest]
      rfl

/-- Symbols that the renamer treats alike over two tables: equal tokens, the context, or other
variables over one category that are named after the same text. -/
inductive Alike (r r' : Registry) (context : Option Variable) : Symbol → Symbol → Prop where
  | terminal (token : String) : Alike r r' context (.terminal token) (.terminal token)
  | context {v : Variable} : context = some v →
      Alike r r' context (.nonterminal v) (.nonterminal v)
  | renamed {u v : Variable} : context ≠ some u → context ≠ some v → u.category = v.category →
      r.freshBase u = r'.freshBase v → Alike r r' context (.nonterminal u) (.nonterminal v)

theorem Alike.of_eq {s s' : Symbol} (h : s = s') : Alike r r context s s' := by
  subst h
  cases s with
  | terminal token => exact .terminal token
  | nonterminal v =>
    by_cases hc : context = some v
    · exact .context hc
    · exact .renamed hc hc rfl rfl

theorem renameElement_alike (span span' : Span) {st st' : RenamingState}
    (hst : st.supply = st'.supply) {e e' : Element} (h : Alike r r' context e.val e'.val) :
    (renameElement r context span st e).1.supply =
        (renameElement r' context span' st' e').1.supply ∧
      (renameElement r context span st e).2.val =
        (renameElement r' context span' st' e').2.val := by
  obtain ⟨s, place⟩ := e
  obtain ⟨s', place'⟩ := e'
  cases h with
  | terminal token => exact ⟨hst, rfl⟩
  | context hc =>
    simp only [renameElement, if_pos hc]
    exact ⟨hst, trivial⟩
  | renamed hu hv hcategory hbase =>
    simp only [renameElement, if_neg hu, if_neg hv, hst, hbase, hcategory,
      Element.ofNonterminal, and_self]

/-- Alike lists of elements are renamed to the same symbols, and leave the same names in use. -/
theorem renameElements_alike (span span' : Span) {st st' : RenamingState}
    (hst : st.supply = st'.supply) {es es' : List Element}
    (h : List.Forall₂ (fun e e' => Alike r r' context e.val e'.val) es es') :
    (renameElements r context span st es).1.supply =
        (renameElements r' context span' st' es').1.supply ∧
      (renameElements r context span st es).2.map (·.val) =
        (renameElements r' context span' st' es').2.map (·.val) := by
  induction h generalizing st st' with
  | nil => exact ⟨hst, rfl⟩
  | cons he _ ih =>
    obtain ⟨hsupply, hval⟩ := renameElement_alike span span' hst he
    obtain ⟨hsupply, hvals⟩ := ih hsupply
    simp only [renameElements, List.map_cons]
    exact ⟨hsupply, by rw [hval, hvals]⟩

end RenamingState

namespace Registry

open RenamingState

/-! ## The symbols of a conjunction -/

def contextVariables (r : Registry) (es : List Element) : List Variable :=
  (variablesOf es).filter fun v => r.isContext v.category

theorem contextVariables_joinWith (r : Registry) (token : String) (span : Span)
    (parts : List (List Element)) :
    r.contextVariables (Form.joinWith (.terminal token span) parts) =
      r.contextVariables parts.flatten := by
  rw [contextVariables, Form.variablesOf_joinWith]
  rfl

/-- The names in use when variables are renamed but for the context. -/
def supplyWith (context : Option Variable) : NameSupply :=
  match context with
  | none => .empty
  | some v => NameSupply.empty.reserve v.name

/-- The symbols of a list of elements whose variables are renamed but for the context. -/
def numbered (r : Registry) (context : Option Variable) (es : List Element) : List Symbol :=
  (renameElements r context {} { supply := supplyWith context } es).2.map (·.val)

/-- The symbols of the conjunction of judgments with the given forms. -/
def conjoinedSymbols (r : Registry) (separator : String) (forms : List Form) : List Symbol :=
  let joined := Form.joinWith (.terminal separator {}) (forms.map (·.elements))
  r.numbered (r.contextVariables joined).head? joined

variable {r r' : Registry} {parts : List JudgmentId} {forms : List Form}

theorem numbered_alike {context : Option Variable} {es es' : List Element}
    (h : List.Forall₂ (fun e e' => Alike r r' context e.val e'.val) es es') :
    r.numbered context es = r'.numbered context es' :=
  (renameElements_alike {} {} rfl h).2

theorem map_val_contextsAmong (r : Registry) (es : List Element) :
    (r.contextsAmong es).map (·.val) = r.contextVariables es := by
  rw [contextVariables, ← Form.map_val_nonterminals ⟨es, {}⟩, List.filter_map]
  rfl

theorem map_val_contextsOf
    (hforms : List.Forall₂ (fun part f => r.formOf? part = some f) parts forms) :
    (parts.flatMap r.contextsOf).map (·.val) =
      r.contextVariables (forms.flatMap (·.elements)) := by
  rw [← contextsAmong_joinedForms, joinedForms_eq hforms, map_val_contextsAmong]

theorem sharedContext_eq (hforms : List.Forall₂ (fun part f => r.formOf? part = some f) parts forms)
    (span : Span) :
    r.sharedContext parts span = (r.contextVariables (forms.flatMap (·.elements))).head? := by
  rw [sharedContext, agree_context, ← List.head?_map, map_val_contextsOf hforms]

theorem supply_withContext (context : Option Nonterminal) :
    NameSupply.empty.withContext context = supplyWith (context.map (·.val)) := by
  cases context <;> rfl

theorem flatten_map_elements (forms : List Form) :
    (forms.map (·.elements)).flatten = forms.flatMap (·.elements) := rfl

/-- Where a conjunction is asked for makes no difference to its symbols, nor does the order in which
its forms are renamed and joined. -/
theorem construct_symbols
    (hforms : List.Forall₂ (fun part f => r.formOf? part = some f) parts forms) (config : Config)
    (span : Span) :
    (r.construct config span parts forms).1.form.symbols =
      r.conjoinedSymbols config.separator forms := by
  let joined (place : Span) : List Element :=
    Form.joinWith (.terminal config.separator place) (forms.map (·.elements))
  let start : RenamingState := { supply := supplyWith (r.sharedContext parts span) }
  have hcontext : r.sharedContext parts span = (r.contextVariables (joined {})).head? := by
    rw [sharedContext_eq hforms, contextVariables_joinWith, flatten_map_elements]
  have hsymbols : (r.construct config span parts forms).1.form.symbols =
      (renameElements r (r.sharedContext parts span) span start (joined span)).2.map (·.val) := by
    rw [renameElements_joinWith]
    simp only [start, sharedContext, ← supply_withContext]
    rfl
  have halike : List.Forall₂ (fun e e' => Alike r r (r.sharedContext parts span) e.val e'.val)
      (joined span) (joined {}) := by
    refine Form.forall₂_joinWith (.terminal _) (List.forall₂_same.mpr fun es _ => ?_)
    exact List.forall₂_same.mpr fun e _ => .of_eq rfl
  rw [hsymbols, (renameElements_alike span {} rfl halike).2, conjoinedSymbols, ← hcontext]
  rfl

theorem isSome_category?_of_forms (hd : ∀ f ∈ forms, r.Declares f) {v : Variable}
    (hv : v ∈ variablesOf (forms.flatMap (·.elements))) : (r.category? v.category).isSome := by
  obtain ⟨e, he, hs⟩ := mem_variablesOf.mp hv
  obtain ⟨f, hf, he⟩ := List.mem_flatMap.mp he
  exact declares_iff.mp (hd f hf) v (mem_variablesOf.mpr ⟨e, he, hs⟩)

theorem isSome_category?_of_joined (hd : ∀ f ∈ forms, r.Declares f) {token : String} {span : Span}
    {v : Variable}
    (hv : v ∈ variablesOf (Form.joinWith (.terminal token span) (forms.map (·.elements)))) :
    (r.category? v.category).isSome := by
  rw [Form.variablesOf_joinWith, flatten_map_elements] at hv
  exact isSome_category?_of_forms hd hv

theorem Extends.contextVariables (h : r.Extends r') {es : List Element}
    (hd : ∀ v ∈ variablesOf es, (r.category? v.category).isSome) :
    r'.contextVariables es = r.contextVariables es :=
  List.filter_congr fun v hv => h.isContext (hd v hv)

theorem Extends.conjoinedSymbols (h : r.Extends r') (hd : ∀ f ∈ forms, r.Declares f)
    (separator : String) :
    r'.conjoinedSymbols separator forms = r.conjoinedSymbols separator forms := by
  let joined := Form.joinWith (.terminal separator {}) (forms.map (·.elements))
  have hcontext : r'.contextVariables joined = r.contextVariables joined :=
    h.contextVariables fun v hv => isSome_category?_of_joined hd hv
  have halike : ∀ context, List.Forall₂ (fun e e' => Alike r' r context e.val e'.val)
      joined joined := by
    refine fun context => List.forall₂_same.mpr fun e he => ?_
    cases hs : e.val with
    | terminal token => exact .terminal token
    | nonterminal v =>
      by_cases hc : context = some v
      · exact .context hc
      · have hv := isSome_category?_of_joined hd (mem_variablesOf.mpr ⟨e, he, hs⟩)
        exact .renamed hc hc rfl (h.freshBase hv)
  show r'.numbered (r'.contextVariables joined).head? joined =
    r.numbered (r.contextVariables joined).head? joined
  rw [hcontext, numbered_alike (halike _)]

end Registry
end Inference
