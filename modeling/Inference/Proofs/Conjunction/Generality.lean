import Inference.Proofs.Conjunction.Synthesis
import Mathlib.Logic.Function.Basic

/-!
# Inference.Proofs.Conjunction.Generality

The rule of a conjunction is as general as the forms of its components allow. However the
occurrences of variables in these forms are filled in, each by itself but for the context, one
substitution fills in the rule in the same way: as names are apart, it is built up from left to
right along with the renamer, one name at a time.

* `Substitution.apply`: elements for the names of variables, all at once.
* `fill`: elements for the places of variables, whatever their names.
* `rename_exists_substitution`: renamed apart, places are names.
* `synthesize_general`: what this says of a conjunction.
-/

namespace Inference

/-- The element with elements for its variable. Terminals stay. -/
def Element.instantiate (value : Variable → List Element) (e : Element) : List Element :=
  match e.val with
  | .terminal _ => [e]
  | .nonterminal v => value v

abbrev Substitution := String → List Element

namespace Substitution

def apply (σ : Substitution) (es : List Element) : List Element :=
  es.flatMap (Element.instantiate fun v => σ v.name)

variable {σ τ : Substitution}

theorem apply_cons (σ : Substitution) (e : Element) (es : List Element) :
    σ.apply (e :: es) = e.instantiate (fun v => σ v.name) ++ σ.apply es := rfl

theorem apply_append (σ : Substitution) (es fs : List Element) :
    σ.apply (es ++ fs) = σ.apply es ++ σ.apply fs := List.flatMap_append

theorem apply_joinWith (σ : Substitution) (token : String) (span : Span)
    (ess : List (List Element)) :
    σ.apply (Form.joinWith (.terminal token span) ess) =
      Form.joinWith (.terminal token span) (ess.map σ.apply) := by
  induction ess using Form.joinWith.induct with
  | case1 => rfl
  | case2 es => rfl
  | case3 es next rest ih =>
    rw [Form.joinWith, apply_append, apply_cons, ih]
    rfl

theorem apply_congr {es : List Element} (h : ∀ v ∈ variablesOf es, σ v.name = τ v.name) :
    σ.apply es = τ.apply es := by
  induction es with
  | nil => rfl
  | cons e es ih =>
    obtain ⟨s, at_⟩ := e
    cases s with
    | terminal t => rw [apply_cons, apply_cons, ih h]; rfl
    | nonterminal v =>
      obtain ⟨hv, hrest⟩ := List.forall_mem_cons.mp h
      rw [apply_cons, apply_cons, ih hrest]
      exact congrArg (· ++ τ.apply es) hv

end Substitution

/-- The elements with elements for their variables, those at each place chosen by themselves. -/
def fill (filling : Nat → List Element) (es : List Element) : List Element :=
  (es.mapIdx fun k e => e.instantiate fun _ => filling k).flatten

/-- The elements of several forms, filled in. -/
def fillForms (filling : Nat → Nat → List Element) (forms : List Form) : List (List Element) :=
  forms.mapIdx fun i f => fill (filling i) f.elements

/-- At all places where the variable stands there is the same filling. -/
def FillsAlike (filling : Nat → Nat → List Element) (forms : List Form) (v : Variable) : Prop :=
  ∀ (i j k l : Nat) (f g : Form), forms[i]? = some f → forms[j]? = some g →
    f.symbols[k]? = some (.nonterminal v) → g.symbols[l]? = some (.nonterminal v) →
    filling i k = filling j l

theorem fill_cons (filling : Nat → List Element) (e : Element) (es : List Element) :
    fill filling (e :: es) =
      e.instantiate (fun _ => filling 0) ++ fill (fun k => filling (k + 1)) es := by
  rw [fill, List.mapIdx_cons, List.flatten_cons]
  rfl

theorem fillForms_cons (filling : Nat → Nat → List Element) (f : Form) (fs : List Form) :
    fillForms filling (f :: fs) =
      fill (filling 0) f.elements :: fillForms (fun i => filling (i + 1)) fs := List.mapIdx_cons

/-- Where the context stands, the filling is what the substitution has for it. -/
def FillsContext (context : Option Variable) (σ : Substitution) (filling : Nat → List Element)
    (es : List Element) : Prop :=
  ∀ (k : Nat) (v : Variable), (es.map (·.val))[k]? = some (.nonterminal v) → context = some v →
    filling k = σ v.name

/-! ## Along the renamer -/

section Renames

variable {r : Registry} {context : Option Variable} {span : Span}

theorem Renames.used_mono {st st' : RenamingState} {es es' : List Element}
    (h : Renames r context span st es st' es') {name : String} (hn : name ∈ st.supply.used) :
    name ∈ st'.supply.used := by
  induction h with
  | nil => exact hn
  | keep _ _ ih => exact ih hn
  | fresh _ hf _ ih => exact ih ((NameSupply.mem_used_fresh hf).mpr (.inr hn))

theorem Renames.name_used {st st' : RenamingState} {es es' : List Element}
    (h : Renames r context span st es st' es')
    (hc : ∀ v, context = some v → v.name ∈ st.supply.used) {v : Variable}
    (hv : v ∈ variablesOf es') : v.name ∈ st'.supply.used := by
  induction h with
  | nil => cases hv
  | keep hk hes ih =>
    obtain ⟨e, he, hs⟩ := mem_variablesOf.mp hv
    rcases List.mem_cons.mp he with rfl | he
    · exact hes.used_mono (hc v (hk v hs))
    · exact ih hc (mem_variablesOf.mpr ⟨e, he, hs⟩)
  | fresh _ hf hes ih =>
    rcases List.mem_cons.mp hv with rfl | hv
    · exact hes.used_mono ((NameSupply.mem_used_fresh hf).mpr (.inl rfl))
    · exact ih (fun u hu => (NameSupply.mem_used_fresh hf).mpr (.inr (hc u hu))) hv

/-- A substitution for the names in use extends to the new ones such that it fills in the renamed
elements as the places of the given ones are filled in. -/
theorem Renames.exists_substitution {st st' : RenamingState} {es es' : List Element}
    (h : Renames r context span st es st' es')
    (hc : ∀ v, context = some v → v.name ∈ st.supply.used) {σ : Substitution}
    {filling : Nat → List Element} (hfill : FillsContext context σ filling es) :
    ∃ τ : Substitution, (∀ name ∈ st.supply.used, τ name = σ name) ∧
      τ.apply es' = fill filling es := by
  induction h generalizing σ filling with
  | nil => exact ⟨σ, fun _ _ => rfl, rfl⟩
  | @keep st _ e es es' hk _ ih =>
    obtain ⟨τ, hτ, happly⟩ := ih hc fun k v => hfill (k + 1) v
    refine ⟨τ, hτ, ?_⟩
    rw [Substitution.apply_cons, fill_cons, happly]
    congr 1
    obtain ⟨s, at_⟩ := e
    cases s with
    | terminal t => rfl
    | nonterminal v =>
      have hv : context = some v := hk v rfl
      exact (hτ v.name (hc v hv)).trans (hfill 0 v rfl hv).symm
  | @fresh st _ v _ supply name es es' _ hf hes ih =>
    have hused : ∀ u, context = some u → u.name ∈ supply.used := fun u hu =>
      (NameSupply.mem_used_fresh hf).mpr (.inr (hc u hu))
    have hother : ∀ other ∈ st.supply.used,
        Function.update σ name (filling 0) other = σ other := fun other hother =>
      Function.update_of_ne (ne_of_mem_of_not_mem hother (NameSupply.fresh_unused hf)) _ _
    have hrest : FillsContext context (Function.update σ name (filling 0))
        (fun k => filling (k + 1)) es := fun k u hu hcu =>
      (hfill (k + 1) u hu hcu).trans (hother u.name (hc u hcu)).symm
    obtain ⟨τ, hτ, happly⟩ := ih hused hrest
    refine ⟨τ, fun other hmem => ?_, ?_⟩
    · rw [hτ other ((NameSupply.mem_used_fresh hf).mpr (.inr hmem)), hother other hmem]
    · have hname : τ name = filling 0 := by
        rw [hτ name ((NameSupply.mem_used_fresh hf).mpr (.inl rfl)), Function.update_self]
      rw [Substitution.apply_cons, fill_cons, happly]
      exact congrArg (· ++ _) hname

open RenamingState (renameForms)

theorem renameForms_exists_substitution {st : RenamingState} {forms : List Form}
    (hc : ∀ v, context = some v → v.name ∈ st.supply.used) {σ : Substitution}
    {filling : Nat → Nat → List Element}
    (hfill : ∀ i f, forms[i]? = some f → FillsContext context σ (filling i) f.elements) :
    ∃ τ : Substitution, (∀ name ∈ st.supply.used, τ name = σ name) ∧
      (renameForms r context span st forms).2.map τ.apply = fillForms filling forms := by
  induction forms generalizing st σ filling with
  | nil => exact ⟨σ, fun _ _ => rfl, rfl⟩
  | cons f fs ih =>
    have h : Renames r context span st f.elements _ _ := renames_renameElements st f.elements
    obtain ⟨σ', hσ, hfirst⟩ := h.exists_substitution hc (hfill 0 f rfl)
    have hrest : ∀ i g, fs[i]? = some g → FillsContext context σ' (filling (i + 1)) g.elements :=
      fun i g hg k v hv hcv =>
        (hfill (i + 1) g hg k v hv hcv).trans (hσ v.name (hc v hcv)).symm
    obtain ⟨τ, hτ, happly⟩ := ih (fun v hv => h.used_mono (hc v hv)) hrest
    refine ⟨τ, fun name hn => (hτ name (h.used_mono hn)).trans (hσ name hn), ?_⟩
    rw [renameForms, List.map_cons, happly, fillForms_cons, ← hfirst]
    exact congrArg (· :: _) (Substitution.apply_congr fun v hv => hτ v.name (h.name_used hc hv))

end Renames

theorem FillsAlike.exists_fillsContext {filling : Nat → Nat → List Element} {forms : List Form}
    {context : Option Variable} (h : ∀ v, context = some v → FillsAlike filling forms v) :
    ∃ σ : Substitution, ∀ i f, forms[i]? = some f →
      FillsContext context σ (filling i) f.elements := by
  by_cases hoccurs : ∃ (i k : Nat) (f : Form) (v : Variable), forms[i]? = some f ∧
      f.symbols[k]? = some (.nonterminal v) ∧ context = some v
  · obtain ⟨j, l, g, u, hg, hu, hcu⟩ := hoccurs
    refine ⟨fun _ => filling j l, fun i f hf k v hv hcv => ?_⟩
    cases hcu.symm.trans hcv
    exact h u hcu i j k l f g hf hg hv hu
  · exact ⟨fun _ => [], fun i f hf k v hv hcv => absurd ⟨i, k, f, v, hf, hv, hcv⟩ hoccurs⟩

theorem NameSupply.rename_exists_substitution (s : NameSupply) (r : Registry) {forms : List Form}
    (context : Option Nonterminal) (span : Span) {filling : Nat → Nat → List Element}
    (h : ∀ v, context.map (·.val) = some v → FillsAlike filling forms v) :
    ∃ σ : Substitution,
      (s.rename r forms context span).components.map σ.apply = fillForms filling forms := by
  let st : RenamingState := { supply := s.withContext context }
  have hc : ∀ v, context.map (·.val) = some v → v.name ∈ st.supply.used :=
    fun _ hv => s.context_mem_used context hv
  obtain ⟨σ₀, hcontext⟩ := FillsAlike.exists_fillsContext h
  obtain ⟨σ, _, hσ⟩ := renameForms_exists_substitution hc hcontext
  exact ⟨σ, hσ⟩

namespace Workspace

/-- The rule of a new conjunction covers whatever its components cover. Fill in the occurrences of
variables in the forms of the components, each by itself, but those of the shared context all
alike. One substitution then turns the premises into the filled forms, one after the other, and the
conclusion into these joined by the separator. -/
theorem synthesize_general {w w' : Workspace} {span : Span} {parts : List JudgmentId}
    {made : Synthesis} (h : w.synthesize span parts = (w', .ok made))
    (hfresh : made.fresh = true) :
    ∃ forms rule, List.Forall₂ (fun part f => w.registry.formOf? part = some f) parts forms ∧
      w'.registry.rulesFor made.judgment = [rule] ∧
      ∀ filling : Nat → Nat → List Element,
        (∀ v, (w.registry.agree parts span).context.map (·.val) = some v →
          FillsAlike filling forms v) →
        ∃ σ : Substitution,
          rule.premises.map (fun premise => σ.apply premise.elements) =
            fillForms filling forms ∧
          σ.apply rule.conclusion.elements =
            [.terminal w.config.separator span].intercalate (fillForms filling forms) := by
  obtain ⟨forms, clauses, hm⟩ := makes_of_synthesize h hfresh
  refine ⟨forms, _, hm.components, hm.rulesFor, fun filling hfill => ?_⟩
  obtain ⟨σ, hσ⟩ := NameSupply.empty.rename_exists_substitution w.registry _ span hfill
  have hpremises : (clauses.map (·.elements)).map σ.apply = fillForms filling forms := by
    rw [hm.premiseClauses.2]
    exact hσ
  refine ⟨σ, ?_, ?_⟩
  · rw [← hpremises, List.map_map]
    rfl
  · rw [← hpremises, ← Form.joinWith_eq_intercalate, ← Substitution.apply_joinWith,
      ← hm.form_elements]
    rfl

/-- Both components mention `e`, and for each of them something else is put in its place. -/
theorem synthesize_general_sample : ∃ w' made rule, ∃ σ : Substitution,
    Workspace.synthesize { registry := .sample } {} [⟨0⟩, ⟨1⟩] = (w', .ok made) ∧
    made.fresh = true ∧ w'.registry.rulesFor made.judgment = [rule] ∧
    rule.premises.map (fun premise => (σ.apply premise.elements).map (·.val.text)) =
      [["x", "|-", "zero", ":", "x"], ["x", "halts"]] ∧
    (σ.apply rule.conclusion.elements).map (·.val.text) =
      ["x", "|-", "zero", ":", "x", "and", "x", "halts"] := by
  obtain ⟨w', made, h, hfresh⟩ := exists_synthesize_sample
  obtain ⟨forms, rule, hforms, hrule, hgeneral⟩ := synthesize_general h hfresh
  cases hforms with | @cons _ typing _ _ htyping hforms => ?_
  cases hforms with | @cons _ halts _ _ hhalts hforms => ?_
  cases hforms
  let filling (i k : Nat) : List Element := [.terminal (if i = 0 ∧ k = 2 then "zero" else "x") {}]
  obtain ⟨σ, hpremises, hconclusion⟩ := hgeneral filling fun v hv => by
    cases hv
    have hx : ∀ i k f, [typing, halts][i]? = some f →
        f.symbols[k]? = some (.nonterminal ⟨"Gamma", ⟨0⟩⟩) → filling i k = [.terminal "x" {}] := by
      intro i k f hf hk
      have hne : ¬ (i = 0 ∧ k = 2) := by
        rintro ⟨rfl, rfl⟩
        cases hf
        cases htyping
        exact absurd hk (by decide)
      simp only [filling, if_neg hne]
    exact fun i j k l f g hf hg hk hl => (hx i k f hf hk).trans (hx j l g hg hl).symm
  cases htyping
  cases hhalts
  have htexts := congrArg (List.map (List.map (·.val.text))) hpremises
  rw [List.map_map] at htexts
  refine ⟨w', made, rule, σ, h, hfresh, hrule, htexts.trans (by decide), ?_⟩
  rw [hconclusion]
  decide

end Workspace
end Inference
