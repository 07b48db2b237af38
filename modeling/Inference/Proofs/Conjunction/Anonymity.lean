import Inference.Proofs.Conjunction.Generality
import Inference.Proofs.Conjunction.Shape

/-!
# Inference.Proofs.Conjunction.Anonymity

Renaming forgets what variables were called, and nothing else. Forms that differ in nothing but the
names of their variables have the same conjunction, whichever of these were the same variable
within a form or across forms; and from the renamed forms one can still tell the tokens, the
categories and the places of the context.

* `SameButName`: symbols that differ in nothing but the name of a variable.
* `renameForms_alike`: forms that the renamer treats alike are renamed to the same symbols.
* `Renames.replacesBack`: the renamer puts the context nowhere else than where it was.
* `rename_alpha_iff`: forms are renamed to the same symbols exactly when they are the same but for
  names.
-/

namespace Inference

/-- Equal tokens, the context, or other variables over one category. -/
inductive SameButName (context : Option Variable) : Symbol → Symbol → Prop where
  | terminal (token : String) : SameButName context (.terminal token) (.terminal token)
  | context {v : Variable} : context = some v →
      SameButName context (.nonterminal v) (.nonterminal v)
  | other {u v : Variable} : context ≠ some u → context ≠ some v → u.category = v.category →
      SameButName context (.nonterminal u) (.nonterminal v)

/-- Forms that are the same but for names, one by one. -/
def AlphaEquivalent (context : Option Variable) (forms forms' : List Form) : Prop :=
  List.Forall₂ (fun f f' => List.Forall₂ (SameButName context) f.symbols f'.symbols) forms forms'

section Alike

open RenamingState

variable {r r' : Registry} {context : Option Variable}

theorem Registry.freshBase_congr {u v : Variable} (hcategory : u.category = v.category)
    (hd : (r.category? u.category).isSome) : r.freshBase u = r.freshBase v := by
  obtain ⟨c, hc⟩ := Option.isSome_iff_exists.mp hd
  rw [freshBase, freshBase, ← hcategory, hc]

theorem SameButName.alike {s s' : Symbol} (h : SameButName context s s')
    (hd : ∀ v, s = .nonterminal v → (r.category? v.category).isSome) : Alike r r context s s' := by
  cases h with
  | terminal token => exact .terminal token
  | context hc => exact .context hc
  | other hu hv hcategory =>
    exact .renamed hu hv hcategory (Registry.freshBase_congr hcategory (hd _ rfl))

theorem AlphaEquivalent.alike {forms forms' : List Form} (h : AlphaEquivalent context forms forms')
    (hd : ∀ f ∈ forms, r.Declares f) :
    List.Forall₂ (fun f f' => List.Forall₂ (fun e e' => Alike r r context e.val e'.val)
      f.elements f'.elements) forms forms' := by
  refine ((List.forall₂_and_left _ _).mpr ⟨hd, h⟩).imp fun f f' hf => ?_
  obtain ⟨hdeclares, hsymbols⟩ := hf
  rw [Form.symbols, Form.symbols, List.forall₂_map_left_iff, List.forall₂_map_right_iff] at hsymbols
  have hknown : ∀ e ∈ f.elements, ∀ v, e.val = .nonterminal v → (r.category? v.category).isSome :=
    fun e he v hv => Registry.declares_iff.mp hdeclares v (mem_variablesOf.mpr ⟨e, he, hv⟩)
  exact ((List.forall₂_and_left _ _).mpr ⟨hknown, hsymbols⟩).imp fun e e' he => he.2.alike he.1

theorem renameForms_alike (span span' : Span) {st st' : RenamingState}
    (hst : st.supply = st'.supply) {fs fs' : List Form}
    (h : List.Forall₂ (fun f f' => List.Forall₂ (fun e e' => Alike r r' context e.val e'.val)
      f.elements f'.elements) fs fs') :
    ((renameForms r context span st fs).2.map fun es => es.map (·.val)) =
      (renameForms r' context span' st' fs').2.map fun es => es.map (·.val) := by
  induction h generalizing st st' with
  | nil => rfl
  | cons hf _ ih =>
    obtain ⟨hsupply, hvals⟩ := renameElements_alike span span' hst hf
    simp only [renameForms, List.map_cons]
    rw [hvals, ih hsupply]

end Alike

/-! ## Renamed to the same, equal but for names -/

/-- The element is replaced, and by the context only if it is the context. -/
structure ReplacesBack (context : Option Variable) (span : Span) (e e' : Element) : Prop where
  replaces : Replaces context span e e'
  context : ∀ v, context = some v → e'.val = .nonterminal v → e.val = .nonterminal v

section ReplacesBack

variable {r : Registry} {context : Option Variable} {span : Span}

theorem ReplacesBack.sameButName {e e' f f' : Element} (he : ReplacesBack context span e e')
    (hf : ReplacesBack context span f f') (h : e'.val = f'.val) :
    SameButName context e.val f.val := by
  obtain ⟨hreplaces, hback⟩ := he
  obtain ⟨hreplaces', hback'⟩ := hf
  cases hreplaces with
  | keep hk =>
    cases hreplaces' with
    | keep _ =>
      rw [← h]
      cases hs : e.val with
      | terminal token => exact .terminal token
      | nonterminal v => exact .context (hk v hs)
    | @fresh u _ name hu =>
      have hc := hk _ h
      have hv := hback' _ hc rfl
      exact absurd (hc.trans (congrArg Symbol.nonterminal? hv).symm) hu
  | fresh name hu =>
    cases hreplaces' with
    | keep hk =>
      have hc := hk _ h.symm
      have hv := hback _ hc rfl
      exact absurd (hc.trans (congrArg Symbol.nonterminal? hv).symm) hu
    | fresh name' hv =>
      injection h with h
      injection h with _ hcategory
      exact .other hu hv hcategory

theorem Renames.replacesBack {st st' : RenamingState} {es es' : List Element}
    (h : Renames r context span st es st' es')
    (hc : ∀ v, context = some v → v.name ∈ st.supply.used) :
    List.Forall₂ (ReplacesBack context span) es es' := by
  induction h with
  | nil => exact .nil
  | keep hk _ ih => exact .cons ⟨.keep hk, fun _ _ hv => hv⟩ (ih hc)
  | fresh hv hf _ ih =>
    refine .cons ⟨.fresh _ hv, fun u hu he => ?_⟩ (ih fun u hu => ?_)
    · cases he
      exact absurd (hc _ hu) (NameSupply.fresh_unused hf)
    · exact (NameSupply.mem_used_fresh hf).mpr (.inr (hc u hu))

theorem renameForms_replacesBack {st : RenamingState} (fs : List Form)
    (hc : ∀ v, context = some v → v.name ∈ st.supply.used) :
    List.Forall₂ (fun f es => List.Forall₂ (ReplacesBack context span) f.elements es) fs
      (RenamingState.renameForms r context span st fs).2 := by
  induction fs generalizing st with
  | nil => exact .nil
  | cons f fs ih =>
    have h : Renames r context span st f.elements _ _ := renames_renameElements st f.elements
    exact .cons (h.replacesBack hc) (ih fun v hv => h.used_mono (hc v hv))

theorem forall₂_of_map_eq {α β γ : Type} {P : α → β → Prop} {Q : α → α → Prop} {g : β → γ}
    (hq : ∀ {a b a' b'}, P a b → P a' b' → g b = g b' → Q a a') {as as' : List α} {bs bs' : List β}
    (h : List.Forall₂ P as bs) (h' : List.Forall₂ P as' bs') (he : bs.map g = bs'.map g) :
    List.Forall₂ Q as as' := by
  induction h generalizing as' bs' with
  | nil =>
    cases h' with
    | nil => exact .nil
    | cons _ _ => cases he
  | cons hp _ ih =>
    cases h' with
    | nil => cases he
    | cons hp' hrest =>
      injection he with hhead htail
      exact .cons (hq hp hp' hhead) (ih hrest htail)

end ReplacesBack

namespace NameSupply

/-- The names that forms have for their variables make no difference to their conjunction. Forms
over declared categories that have the same tokens, the same categories and the context at the same
places are renamed to the same symbols, and so are the premises and the joined form equal in all but
places. Conversely, forms that are renamed to the same symbols have all of this in common. -/
theorem rename_alpha_iff (s : NameSupply) (r : Registry) {forms : List Form}
    (hd : ∀ f ∈ forms, r.Declares f) (forms' : List Form) (context : Option Nonterminal)
    (separator : String) (span : Span) :
    let premises := (s.rename r forms context span).components
    let premises' := (s.rename r forms' context span).components
    (AlphaEquivalent (context.map (·.val)) forms forms' →
      (premises.map fun es => es.map (·.val)) = premises'.map (fun es => es.map (·.val)) ∧
      (Form.assemble premises separator span).symbols =
        (Form.assemble premises' separator span).symbols) ∧
    ((premises.map fun es => es.map (·.val)) = premises'.map (fun es => es.map (·.val)) →
      AlphaEquivalent (context.map (·.val)) forms forms') := by
  intro premises premises'
  have hused : ∀ v, context.map (·.val) = some v → v.name ∈ (s.withContext context).used :=
    fun v => s.context_mem_used context
  constructor
  · intro h
    have hpremises : (premises.map fun es => es.map (·.val)) =
        premises'.map fun es => es.map (·.val) := renameForms_alike span span rfl (h.alike hd)
    refine ⟨hpremises, ?_⟩
    rw [Form.symbols_assemble, Form.symbols_assemble, hpremises]
  · intro h
    have hback : ∀ fs : List Form, List.Forall₂ (fun f es =>
        List.Forall₂ (ReplacesBack (context.map (·.val)) span) f.elements es) fs
        (s.rename r fs context span).components :=
      fun fs => renameForms_replacesBack fs hused
    refine forall₂_of_map_eq (fun {f es f' es'} hf hf' he => ?_) (hback forms) (hback forms') h
    rw [Form.symbols, Form.symbols, List.forall₂_map_left_iff, List.forall₂_map_right_iff]
    exact forall₂_of_map_eq (fun he hf => he.sameButName hf) hf hf' he

/-- One variable at three places against three variables, the last of which is over another category
than the context and called the same. -/
theorem rename_alpha_iff_sample : ∃ forms forms' : List Form, ∃ context,
    (∀ f ∈ forms, Registry.sample.Declares f) ∧
    forms.map Form.text = ["Gamma |- e e", "e"] ∧
    forms'.map Form.text = ["Gamma |- x y", "Gamma"] ∧
    (Form.assemble (empty.rename .sample forms context {}).components "and" {}).symbols =
      (Form.assemble (empty.rename .sample forms' context {}).components "and" {}).symbols := by
  let gamma : Nonterminal := ⟨⟨"Gamma", ⟨0⟩⟩, {}⟩
  let term (name : String) : Element := .ofNonterminal ⟨⟨name, ⟨1⟩⟩, {}⟩
  let forms : List Form :=
    [⟨[.ofNonterminal gamma, .terminal "|-" {}, term "e", term "e"], {}⟩, ⟨[term "e"], {}⟩]
  let forms' : List Form :=
    [⟨[.ofNonterminal gamma, .terminal "|-" {}, term "x", term "y"], {}⟩, ⟨[term "Gamma"], {}⟩]
  have hd : ∀ f ∈ forms, Registry.sample.Declares f := by decide
  have hother : ∀ name, SameButName (some gamma.val) (.nonterminal ⟨"e", ⟨1⟩⟩)
      (.nonterminal ⟨name, ⟨1⟩⟩) := by
    intro name
    exact .other (by decide) (by simp [gamma]) rfl
  have halpha : AlphaEquivalent (some gamma.val) forms forms' :=
    .cons (.cons (.context rfl) (.cons (.terminal _) (.cons (hother _) (.cons (hother _) .nil))))
      (.cons (.cons (hother _) .nil) .nil)
  obtain ⟨hsame, _⟩ := rename_alpha_iff empty .sample hd forms' (some gamma) "and" {}
  exact ⟨forms, forms', some gamma, hd, by decide +kernel, by decide +kernel, (hsame halpha).2⟩

end NameSupply

end Inference
