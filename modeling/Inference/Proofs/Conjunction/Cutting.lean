import Inference.Proofs.Conjunction.Numbering

/-!
# Inference.Proofs.Conjunction.Cutting

A conjunction can be assembled from all its parts at once, or extended part by part as it is written
out. Both give the same form, and from the form the parts are found again: it is cut wherever there
is a separator token. Only tokens count, so a variable that is spelled like the separator stays
inside its part. Parts may be empty.

* `foldl_append`: extending the first part by the others.
* `cut`: the pieces between the separator tokens. `cut_joinWith`: those of a joined form are the
  pieces of its parts, one part after the other.
* `assemble_cut`: so the parts are found again exactly when none of them has a separator token.
-/

namespace Inference
namespace Form

theorem joinWith_cons_append (separator : Element) (part more : List Element)
    (rest : List (List Element)) :
    joinWith separator ((part ++ separator :: more) :: rest) =
      part ++ separator :: joinWith separator (more :: rest) := by
  cases rest with
  | nil => rfl
  | cons next rest => simp [joinWith]

theorem foldl_append (separator : String) (span : Span) (first : Form) (rest : List Form) :
    rest.foldl (fun f more => f.append separator span more) first =
      ⟨(assemble ((first :: rest).map (·.elements)) separator span).elements, first.span⟩ := by
  induction rest generalizing first with
  | nil => rfl
  | cons more rest ih =>
    rw [List.foldl_cons, ih]
    simp only [append, assemble, List.map_cons, joinWith_cons_append]
    rfl

def isSeparator (separator : String) (e : Element) : Bool := e.val == .terminal separator

/-- The pieces before, between and after the separator tokens. -/
def cut (separator : String) (es : List Element) : List (List Element) :=
  es.splitOnP (isSeparator separator)

theorem cut_append (separator : String) (span : Span) (es fs : List Element) :
    cut separator (es ++ .terminal separator span :: fs) = cut separator es ++ cut separator fs := by
  have hseparator : isSeparator separator (.terminal separator span) = true := by
    simp [isSeparator, Element.terminal]
  exact List.splitOnP_append_cons es fs hseparator

theorem cut_eq_singleton {separator : String} {es : List Element}
    (h : ∀ e ∈ es, e.val ≠ .terminal separator) : cut separator es = [es] := by
  refine List.splitOnP_eq_singleton fun e he => ?_
  simpa [isSeparator] using h e he

theorem ne_of_mem_cut {separator : String} {es piece : List Element}
    (h : piece ∈ cut separator es) : ∀ e ∈ piece, e.val ≠ .terminal separator := by
  induction es generalizing piece with
  | nil =>
    have hpiece : piece = [] := by simpa [cut, List.splitOnP_nil] using h
    simp [hpiece]
  | cons e es ih =>
    rw [cut, List.splitOnP_cons_eq_if_modifyHead] at h
    by_cases he : isSeparator separator e = true
    · rw [if_pos he] at h
      rcases List.mem_cons.mp h with rfl | h
      · simp
      · exact ih h
    · rw [if_neg he] at h
      obtain ⟨first, pieces, hpieces⟩ :=
        List.exists_cons_of_ne_nil (List.splitOnP_ne_nil (isSeparator separator) es)
      have hall : ∀ p ∈ first :: pieces, ∀ e ∈ p, e.val ≠ .terminal separator :=
        fun p hp => ih (by rwa [cut, hpieces])
      obtain ⟨hfirst, hrest⟩ := List.forall_mem_cons.mp hall
      rw [hpieces, List.modifyHead_cons] at h
      rcases List.mem_cons.mp h with rfl | h
      · refine List.forall_mem_cons.mpr ⟨?_, hfirst⟩
        simpa [isSeparator] using he
      · exact hrest piece h

theorem cut_joinWith (separator : String) (span : Span) {parts : List (List Element)}
    (h : parts ≠ []) : cut separator (joinWith (.terminal separator span) parts) =
      parts.flatMap (cut separator) := by
  induction parts using joinWith.induct with
  | case1 => exact absurd rfl h
  | case2 part => simp [joinWith]
  | case3 part next rest ih =>
    have hrest := ih (List.cons_ne_nil _ _)
    rw [joinWith, cut_append, hrest]
    rfl

/-- The parts of a joined form are found again exactly when they have no separator token. -/
theorem cut_joinWith_eq_iff (separator : String) (span : Span) {parts : List (List Element)}
    (h : parts ≠ []) : cut separator (joinWith (.terminal separator span) parts) = parts ↔
      ∀ part ∈ parts, ∀ e ∈ part, e.val ≠ .terminal separator := by
  constructor
  · intro hcut part hpart
    rw [← hcut] at hpart
    exact ne_of_mem_cut hpart
  · intro hparts
    have hsingle : ∀ part ∈ parts, cut separator part = [part] :=
      fun part hpart => cut_eq_singleton (hparts part hpart)
    rw [cut_joinWith separator span h, List.flatMap_congr hsingle, List.flatMap_singleton']

/-! ## Forms -/

/-- Extending a first form by others, one after the other, gives the form assembled from all of
them, at the place of the first. A form assembled from two lists of parts, neither of them empty, is
the form of the first, a separator, and the form of the second. And the parts that a form is
assembled from, one at least, are the pieces it is cut into at the separator tokens, exactly when
none of them has such a token. -/
theorem assemble_cut (separator : String) (span : Span) :
    (∀ (first : Form) (rest : List Form),
      rest.foldl (fun f more => f.append separator span more) first =
        ⟨(assemble ((first :: rest).map (·.elements)) separator span).elements, first.span⟩) ∧
    (∀ parts parts' : List (List Element), parts ≠ [] → parts' ≠ [] →
      (assemble (parts ++ parts') separator span).elements =
        (assemble parts separator span).elements ++
          .terminal separator span :: (assemble parts' separator span).elements) ∧
    ∀ parts : List (List Element), parts ≠ [] →
      (cut separator (assemble parts separator span).elements = parts ↔
        ∀ part ∈ parts, ∀ e ∈ part, e.val ≠ .terminal separator) :=
  ⟨foldl_append separator span, fun _ _ => joinWith_append _,
    fun _ => cut_joinWith_eq_iff separator span⟩

/-- Empty parts at both ends and next to each other, around a variable that is spelled like the
separator. The token itself as a part is cut in two. -/
theorem assemble_cut_sample : ∃ parts : List (List Element), parts ≠ [] ∧
    parts.map (·.map (·.val)) =
      [[], [.nonterminal ⟨"and", ⟨0⟩⟩], [], [], [.terminal "ok", .nonterminal ⟨"e", ⟨0⟩⟩], []] ∧
    cut "and" (assemble parts "and" {}).elements = parts ∧
    (assemble (parts ++ [[.terminal "and" {}]]) "and" {}).elements =
      (assemble parts "and" {}).elements ++
        .terminal "and" {} :: (assemble [[.terminal "and" {}]] "and" {}).elements ∧
    cut "and" (assemble [[.terminal "and" {}]] "and" {}).elements = [[], []] ∧
    cut "and" (assemble [[.terminal "and" {}]] "and" {}).elements ≠ [[.terminal "and" {}]] := by
  let parts : List (List Element) := [[], [⟨.nonterminal ⟨"and", ⟨0⟩⟩, {}⟩], [], [],
    [.terminal "ok" {}, ⟨.nonterminal ⟨"e", ⟨0⟩⟩, {}⟩], []]
  have hparts : parts ≠ [] := List.cons_ne_nil _ _
  obtain ⟨_, happend, hcut⟩ := assemble_cut "and" {}
  refine ⟨parts, hparts, rfl, (hcut parts hparts).mpr (by decide),
    happend parts _ hparts (List.cons_ne_nil _ _), by decide, fun hfound => ?_⟩
  have hfree := (hcut _ (List.cons_ne_nil _ _)).mp hfound
  exact hfree _ (List.mem_singleton_self _) _ (List.mem_singleton_self _) rfl

end Form
end Inference
