import Inference.Check.Checker
import Mathlib.Data.List.Forall2

/-!
# Inference.Proofs.Form

The variables of a form, occurrence by occurrence, and what it is for one list of elements to have
the shape of another.

* `variablesOf`: the variables in a list of elements.
* `SameShape`: equal tokens and equal categories, position by position.
-/

namespace Inference

/-- The variables in a list of elements, one for each occurrence. -/
def variablesOf (es : List Element) : List Variable := es.filterMap (·.val.nonterminal?)

theorem mem_variablesOf {es : List Element} {v : Variable} :
    v ∈ variablesOf es ↔ ∃ e ∈ es, e.val = .nonterminal v := by
  simp only [variablesOf, List.mem_filterMap]
  constructor
  · rintro ⟨e, he, hv⟩
    cases hs : e.val with
    | terminal t => rw [hs] at hv; cases hv
    | nonterminal u =>
      rw [hs] at hv
      cases hv
      exact ⟨e, he, hs⟩
  · rintro ⟨e, he, hv⟩
    exact ⟨e, he, by rw [hv]; rfl⟩

@[simp] theorem variablesOf_append (es fs : List Element) :
    variablesOf (es ++ fs) = variablesOf es ++ variablesOf fs := List.filterMap_append

theorem variablesOf_flatten (ess : List (List Element)) :
    variablesOf ess.flatten = (ess.map variablesOf).flatten := by
  rw [variablesOf, List.filterMap_flatten]
  rfl

theorem Form.map_val_nonterminals (f : Form) :
    f.nonterminals.map (·.val) = variablesOf f.elements := by
  simp only [Form.nonterminals, variablesOf, List.map_filterMap]
  congr 1
  funext e
  cases h : e.val <;> simp [Element.nonterminal?, h, Symbol.nonterminal?]

theorem Form.any_nonterminals_iff {f : Form} {v : Variable} :
    f.nonterminals.any (·.val == v) = true ↔ v ∈ variablesOf f.elements := by
  rw [← Form.map_val_nonterminals, List.any_eq_true, List.mem_map]
  simp only [beq_iff_eq]

theorem Form.getElem?_symbols {f : Form} {i : Nat} {s : Symbol} :
    f.symbols[i]? = some s ↔ ∃ e, f.elements[i]? = some e ∧ e.val = s := by
  rw [Form.symbols, List.getElem?_map, Option.map_eq_some_iff]

theorem Form.mem_symbols_nonterminal {f : Form} {v : Variable} :
    .nonterminal v ∈ f.symbols ↔ v ∈ variablesOf f.elements := by
  rw [mem_variablesOf, Form.symbols, List.mem_map]

theorem Symbol.fits_self (s : Symbol) : s.fits s = true := by
  cases s <;> simp [Symbol.fits]

/-- The same token, or a variable over the same category, at each position. -/
def SameShape (es es' : List Element) : Prop :=
  List.Forall₂ (fun e e' => e.val.fits e'.val = true) es es'

theorem SameShape.refl (es : List Element) : SameShape es es :=
  List.forall₂_same.mpr fun e _ => Symbol.fits_self e.val

theorem filterMap_eq_of_forall₂ {α β : Type} {f : α → Option β} {as : List α} {bs : List β}
    (h : List.Forall₂ (fun a b => f a = some b) as bs) : as.filterMap f = bs := by
  induction h with
  | nil => rfl
  | cons hf _ ih => rw [List.filterMap_cons_some hf, ih]

end Inference
