import Inference.Proofs.Conjunction.Faithful
import Inference.Proofs.Registry.Persistence

/-!
# Inference.Proofs.Conjunction.Naming

The names of conjunctions in the table. A program may name its judgments as it likes, so the name
that a conjunction would have may be taken, and so may the first numbers after it, in any pattern of
gaps. Whatever is taken, the conjunction gets a name that leads to it, and takes no name away.

* `exists_names`: the plain name of a conjunction is made of the names of its components.
* `Makes.name`: the name of a new conjunction, and what it leads to.
* `synthesize_name`: all of it, over the tables that a program can arrive at.
-/

namespace Inference

namespace Registry

variable {r : Registry}

theorem exists_names {parts : List JudgmentId} {forms : List Form}
    (hforms : List.Forall₂ (fun part f => r.formOf? part = some f) parts forms) (label : String) :
    ∃ names, List.Forall₂ (fun part name => (r.judgment? part).map (·.name) = some name)
        parts names ∧
      r.conjunctionName parts label = label ++ "[" ++ String.intercalate "," names ++ "]" := by
  refine ⟨parts.map r.judgmentText, ?_, rfl⟩
  rw [List.forall₂_map_right_iff, List.forall₂_same]
  intro part hpart
  obtain ⟨i, hi, rfl⟩ := List.mem_iff_getElem.mp hpart
  obtain ⟨j, hj⟩ := exists_judgment_of_formOf? (hforms.get hi (hforms.length_eq ▸ hi))
  rw [List.get_eq_getElem] at hj
  simp only [judgmentText, hj, Option.map_some]

end Registry

namespace Workspace

variable {w w' : Workspace} {span : Span} {parts : List JudgmentId} {made : Synthesis}
  {forms : List Form} {clauses : List Clause}

theorem Makes.name (h : w.Makes span parts w' made forms clauses) (hr : w.registry.Consistent) :
    w'.registry.judgmentId?
      (w.registry.unusedName (w.registry.conjunctionName parts w.config.label)) =
        some made.judgment := by
  have hr' : w'.registry.Consistent := Registry.consistent_of_steps hr h.steps
  rw [hr'.judgmentId?_eq_some_iff, h.registry, h.judgment, Registry.judgment?_entered_new]
  rfl

/-- A new conjunction is named after its components: the label, and their names in brackets. If that
name is taken, the search for a number under which it is free comes to an end, at the least number
from one on, and the conjunction has the name with this number. It is found under its name, and all
other names lead to the judgments they led to before. -/
theorem synthesize_name (hr : w.registry.Reachable)
    (h : w.synthesize span parts = (w', .ok made)) (hfresh : made.fresh = true) :
    ∃ names plain name,
      List.Forall₂ (fun part name => (w.registry.judgment? part).map (·.name) = some name)
        parts names ∧
      plain = w.config.label ++ "[" ++ String.intercalate "," names ++ "]" ∧
      (w'.registry.judgment? made.judgment).map (·.name) = some name ∧
      (w.registry.judgmentId? plain = none → name = plain) ∧
      (w.registry.judgmentId? plain ≠ none → ∃ n,
        Text.Search (fun m => w.registry.judgmentId? (Text.numbered (plain ++ "#") m) ≠ none) 1 n ∧
        IsLeast {m | 1 ≤ m ∧ w.registry.judgmentId? (Text.numbered (plain ++ "#") m) = none} n ∧
        name = Text.numbered (plain ++ "#") n) ∧
      w'.registry.judgmentId? name = some made.judgment ∧
      ∀ other id, w.registry.judgmentId? other = some id →
        w'.registry.judgmentId? other = some id := by
  obtain ⟨forms, clauses, hmakes⟩ := makes_of_synthesize h hfresh
  have hc : w.registry.Consistent := hr.consistent
  have hc' : w'.registry.Consistent := Registry.consistent_of_steps hc hmakes.steps
  obtain ⟨names, hnames, hplain⟩ := Registry.exists_names hmakes.components w.config.label
  have hfound := hmakes.name hc
  refine ⟨names, w.registry.conjunctionName parts w.config.label, _, hnames, hplain,
    hc'.judgmentId?_eq_some_iff.mp hfound, ?_, ?_, hfound, ?_⟩
  · exact Registry.unusedName_of_free
  · intro htaken
    obtain ⟨n, hsearch, hname⟩ := Registry.search_unusedName htaken
    have hleast := hsearch.isLeast
    simp only [Ne, not_not] at hleast
    exact ⟨n, hsearch, hleast, hname⟩
  · intro other id hid
    exact hmakes.extends.judgmentId? hc hc' hid

/-- A program that has named three of its own judgments like the conjunction, with a gap. -/
theorem synthesize_name_sample : ∃ (w w' : Workspace) (made : Synthesis), w.registry.Reachable ∧
    w.synthesize {} [⟨0⟩, ⟨1⟩] = (w', .ok made) ∧ made.fresh = true ∧
    w.registry.judgmentId? "and[typing,halts]" = some ⟨2⟩ ∧
    w.registry.judgmentId? "and[typing,halts]#1" = some ⟨3⟩ ∧
    w'.registry.judgmentId? "and[typing,halts]#2" = some made.judgment ∧
    w'.registry.judgmentId? "and[typing,halts]#3" = some ⟨4⟩ := by
  let writes : List Write := [.reserve "and[typing,halts]" {}, .reserve "and[typing,halts]#1" {},
    .reserve "and[typing,halts]#3" {}]
  let w : Workspace := { registry := Registry.sample.run writes }
  let w' : Workspace := (w.synthesize {} [⟨0⟩, ⟨1⟩]).1
  let made : Synthesis := ⟨⟨5⟩, [], true⟩
  have hr : w.registry.Reachable := ⟨Registry.typingAndHalting ++ writes, List.foldl_append⟩
  have hmade : (w.synthesize {} [⟨0⟩, ⟨1⟩]).2 = .ok made := by decide +kernel
  have h : w.synthesize {} [⟨0⟩, ⟨1⟩] = (w', .ok made) := Prod.ext rfl hmade
  obtain ⟨_, _, name, _, _, hname, _, _, hfound, hkept⟩ := synthesize_name hr h rfl
  have hnumbered : (w'.registry.judgment? made.judgment).map (·.name) =
      some "and[typing,halts]#2" := by decide +kernel
  rw [hname] at hnumbered
  refine ⟨w, w', made, hr, h, rfl, by decide +kernel, by decide +kernel, ?_, ?_⟩
  · exact Option.some.inj hnumbered ▸ hfound
  · exact hkept _ _ (by decide +kernel)

end Workspace
end Inference
