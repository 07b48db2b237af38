import Inference.Conjunction.Assembly
import Inference.Proofs.Conjunction.Renaming
import Inference.Proofs.Registry.NameIndex
import Mathlib.Algebra.GroupWithZero.Nat

/-!
# Inference.Proofs.Conjunction.Assembly

The joined form and the name of a conjunction.

* `joinWith_eq_intercalate`: parts are joined by one separator between neighbours.
* `length_joinWith`: how many elements that makes.
* `namedApart_joinWith`: joining parts leaves their variables as they are.
* `unusedName_of_free`, `search_unusedName`: the name of a conjunction when the plain name is free,
  and when it is taken.
* `judgmentId?_unusedName`: the name of a conjunction is free.
-/

namespace Inference

namespace Form

theorem joinWith_eq_intercalate (separator : Element) (parts : List (List Element)) :
    joinWith separator parts = [separator].intercalate parts := by
  induction parts using joinWith.induct with
  | case1 => rfl
  | case2 part => simp [joinWith, List.intercalate]
  | case3 part next rest ih =>
    rw [joinWith, ih]
    simp [List.intercalate]

theorem forall_mem_joinWith {P : Element → Prop} {separator : Element}
    {parts : List (List Element)} (hseparator : P separator)
    (hparts : ∀ es ∈ parts, ∀ e ∈ es, P e) : ∀ e ∈ joinWith separator parts, P e := by
  induction parts using joinWith.induct with
  | case1 => exact List.forall_mem_nil _
  | case2 part => exact List.forall_mem_singleton.mp hparts
  | case3 part next rest ih =>
    obtain ⟨hpart, hrest⟩ := List.forall_mem_cons.mp hparts
    rw [joinWith, List.forall_mem_append, List.forall_mem_cons]
    exact ⟨hpart, hseparator, ih hrest⟩

/-- There is one separator less than there are parts, and none when there are no parts. -/
theorem length_joinWith (separator : Element) (parts : List (List Element)) :
    (joinWith separator parts).length = (parts.map List.length).sum + (parts.length - 1) := by
  induction parts using joinWith.induct with
  | case1 => rfl
  | case2 part => simp [joinWith]
  | case3 part next rest ih =>
    rw [joinWith, List.length_append, List.length_cons, ih]
    simp only [List.map_cons, List.sum_cons, List.length_cons]
    omega

/-- What is looked for in every part, and is not the separator, is found where it stands. -/
theorem filterMap_joinWith {α : Type} {f : Element → Option α} {separator : Element}
    (hseparator : f separator = none) (parts : List (List Element)) :
    (joinWith separator parts).filterMap f = parts.flatten.filterMap f := by
  induction parts using joinWith.induct with
  | case1 => rfl
  | case2 part => rw [joinWith, List.flatten_cons, List.flatten_nil, List.append_nil]
  | case3 part next rest ih =>
    rw [joinWith, List.filterMap_append, List.filterMap_cons_none hseparator, ih,
      ← List.filterMap_append]
    rfl

theorem variablesOf_joinWith (token : String) (span : Span) (parts : List (List Element)) :
    variablesOf (joinWith (.terminal token span) parts) = variablesOf parts.flatten :=
  filterMap_joinWith rfl parts

theorem namedApart_joinWith {context : Option Variable} {parts : List (List Element)}
    (token : String) (span : Span) (h : NamedApart context parts.flatten) :
    NamedApart context (joinWith (.terminal token span) parts) := by
  rw [NamedApart, variablesOf_joinWith]
  exact h

end Form

namespace Registry

theorem isJudgmentName_iff {r : Registry} {name : String} :
    r.isJudgmentName name = true ↔ r.judgmentId? name ≠ none := by
  rw [isJudgmentName, Option.isSome_iff_ne_none]

theorem unusedName_of_free {r : Registry} {name : String} (h : r.judgmentId? name = none) :
    r.unusedName name = name :=
  if_neg fun htaken => isJudgmentName_iff.mp htaken h

/-- When the name is taken, the search for a number that makes it free comes to an end. -/
theorem search_unusedName {r : Registry} {name : String} (h : r.judgmentId? name ≠ none) :
    ∃ n, Text.Search (fun m => r.judgmentId? (Text.numbered (name ++ "#") m) ≠ none) 1 n ∧
      r.unusedName name = Text.numbered (name ++ "#") n := by
  have hsearch := Text.search_numbered (name ++ "#") r.judgmentNames.names
    (fun _ => isJudgmentName_iff.trans NameIndex.get?_ne_none_iff) 1
  simp only [← NameIndex.get?_ne_none_iff] at hsearch
  exact ⟨_, hsearch, if_pos (isJudgmentName_iff.mpr h)⟩

theorem judgmentId?_unusedName (r : Registry) (name : String) :
    r.judgmentId? (r.unusedName name) = none := by
  by_cases h : r.judgmentId? name = none
  · rw [unusedName_of_free h]
    exact h
  · obtain ⟨n, hsearch, hname⟩ := search_unusedName h
    rw [hname]
    exact not_not.mp hsearch.isLeast.1.2

end Registry

end Inference
