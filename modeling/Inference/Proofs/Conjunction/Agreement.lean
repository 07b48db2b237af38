import Inference.Conjunction.Agreement
import Inference.Proofs.Form
import Inference.Proofs.Registry.Reachable

/-!
# Inference.Proofs.Conjunction.Agreement

What a conjunction takes from its components, and what it tells about them. It takes the first
context in their forms and the first assumption that one of them makes; each later value that
differs from the first is told. Two scans do this one after the other, and each of them touches its
own value only.

* `dissenters`: the values that differ from the first; `Unanimous`, when there are none.
* `Scan`, `Scan.foldl`: a scan in which the first value is taken.
* `agree_context`, `agree_assumption`, `agree_diagnostics`: what the two scans come to.
* `FirstAssumes`: the component that the assumption of a conjunction comes from.
* `agree_reports_dissent`: what the scans come to over the joined forms, and when judgments agree.
-/

namespace Inference

/-- The values after the first that differ from it. -/
def dissenters : List Nonterminal → List Nonterminal
  | [] => []
  | first :: later => later.filter fun nt => first.val ≠ nt.val

def Unanimous (nts : List Nonterminal) : Prop := ∀ a ∈ nts, ∀ b ∈ nts, a.val = b.val

theorem dissenters_cons_append (first : Nonterminal) (nts nts' : List Nonterminal) :
    dissenters (first :: (nts ++ nts')) = dissenters (first :: nts) ++ dissenters (first :: nts') :=
  List.filter_append nts nts'

theorem dissenters_eq_nil_iff {nts : List Nonterminal} : dissenters nts = [] ↔ Unanimous nts := by
  cases nts with
  | nil => simp [dissenters, Unanimous]
  | cons first later =>
    have hfirst : dissenters (first :: later) = [] ↔ ∀ nt ∈ later, first.val = nt.val := by
      simp [dissenters]
    rw [hfirst]
    constructor
    · intro h a ha b hb
      have hsame : ∀ nt ∈ first :: later, first.val = nt.val := List.forall_mem_cons.mpr ⟨rfl, h⟩
      rw [← hsame a ha, ← hsame b hb]
    · intro h nt hnt
      exact h first (List.mem_cons_self ..) nt (List.mem_cons_of_mem _ hnt)

theorem Unanimous.of_perm {nts nts' : List Nonterminal} (hp : nts.Perm nts') (h : Unanimous nts) :
    Unanimous nts' :=
  fun a ha b hb => h a (hp.mem_iff.mpr ha) b (hp.mem_iff.mpr hb)

theorem unanimous_perm {nts nts' : List Nonterminal} (hp : nts.Perm nts') :
    Unanimous nts ↔ Unanimous nts' :=
  ⟨.of_perm hp, .of_perm hp.symm⟩

namespace Agreement

/-- A step of a scan for one value: the first is taken, each later one that differs from it is told,
and the other value is left alone. -/
structure Scan (see : Agreement → Nonterminal → Agreement)
    (taken other : Agreement → Option Nonterminal) (told : Diagnostic) : Prop where
  taken_see : ∀ a nt, taken (see a nt) = (taken a).or (some nt)
  other_see : ∀ a nt, other (see a nt) = other a
  diagnostics_see : ∀ a nt, (see a nt).diagnostics =
    a.diagnostics ++ (dissenters ((taken a).toList ++ [nt])).map fun _ => told

theorem scan_seeContext (span : Span) : Scan (seeContext span) (·.context) (·.assumption)
    (.recoverable contextsMustAgree span) := by
  constructor <;> intro a nt <;> cases h : a.context with
  | none => simp [seeContext, h, dissenters]
  | some first =>
    by_cases he : first.val = nt.val <;> simp [seeContext, h, he, dissenters]

theorem scan_seeAssumption (span : Span) : Scan (seeAssumption span) (·.assumption) (·.context)
    (.recoverable assumptionsMustAgree span) := by
  constructor <;> intro a nt <;> cases h : a.assumption with
  | none => simp [seeAssumption, h, dissenters]
  | some first =>
    by_cases he : first.val = nt.val <;> simp [seeAssumption, h, he, dissenters]

section Scan

variable {see : Agreement → Nonterminal → Agreement} {taken other : Agreement → Option Nonterminal}
  {told : Diagnostic}

theorem Scan.foldl (h : Scan see taken other told) (nts : List Nonterminal) (a : Agreement) :
    taken (nts.foldl see a) = (taken a).or nts.head? ∧ other (nts.foldl see a) = other a ∧
      (nts.foldl see a).diagnostics =
        a.diagnostics ++ (dissenters ((taken a).toList ++ nts)).map fun _ => told := by
  induction nts generalizing a with
  | nil => cases htaken : taken a <;> simp [htaken, dissenters]
  | cons nt nts ih =>
    obtain ⟨htaken, hother, hdiagnostics⟩ := ih (see a nt)
    rw [List.foldl_cons, htaken, hother, hdiagnostics, h.taken_see, h.other_see, h.diagnostics_see]
    cases taken a with
    | none => simp [dissenters]
    | some first =>
      refine ⟨rfl, rfl, ?_⟩
      rw [List.append_assoc, ← List.map_append]
      exact congrArg _ (congrArg _ (dissenters_cons_append first [nt] nts).symm)

end Scan

end Agreement

namespace Registry

open Agreement

theorem agree_context (r : Registry) (parts : List JudgmentId) (span : Span) :
    (r.agree parts span).context = (parts.flatMap r.contextsOf).head? := by
  rw [agree, ((scan_seeAssumption span).foldl _ _).2.1, ((scan_seeContext span).foldl _ _).1]
  rfl

theorem agree_assumption (r : Registry) (parts : List JudgmentId) (span : Span) :
    (r.agree parts span).assumption = (parts.filterMap r.assumptionOf?).head? := by
  rw [agree, ((scan_seeAssumption span).foldl _ _).1, ((scan_seeContext span).foldl _ _).2.1]
  rfl

theorem agree_diagnostics (r : Registry) (parts : List JudgmentId) (span : Span) :
    (r.agree parts span).diagnostics =
      ((dissenters (parts.flatMap r.contextsOf)).map fun _ =>
        .recoverable contextsMustAgree span) ++
      ((dissenters (parts.filterMap r.assumptionOf?)).map fun _ =>
        .recoverable assumptionsMustAgree span) := by
  rw [agree, ((scan_seeAssumption span).foldl _ _).2.2, ((scan_seeContext span).foldl _ _).2.1,
    ((scan_seeContext span).foldl _ _).2.2]
  rfl

theorem holds_agree_iff {r : Registry} {parts : List JudgmentId} {span : Span} :
    (r.agree parts span).holds = true ↔
      Unanimous (parts.flatMap r.contextsOf) ∧ Unanimous (parts.filterMap r.assumptionOf?) := by
  rw [holds, List.isEmpty_iff, agree_diagnostics, List.append_eq_nil_iff, List.map_eq_nil_iff,
    List.map_eq_nil_iff, dissenters_eq_nil_iff, dissenters_eq_nil_iff]

/-- The judgment at a place in the list is the first one there that makes an assumption. -/
structure FirstAssumes (r : Registry) (parts : List JudgmentId) (i : Nat) (part : JudgmentId)
    (m : Nonterminal) : Prop where
  getElem? : parts[i]? = some part
  assumption : r.assumptionOf? part = some m
  before : ∀ other ∈ parts.take i, r.assumptionOf? other = none

theorem FirstAssumes.agree_assumption {r : Registry} {parts : List JudgmentId} {i : Nat}
    {part : JudgmentId} {m : Nonterminal} (h : r.FirstAssumes parts i part m) (span : Span) :
    (r.agree parts span).assumption = some m := by
  have hsplit : parts = parts.take i ++ part :: parts.drop (i + 1) := by
    obtain ⟨hi, hp⟩ := List.getElem?_eq_some_iff.mp h.getElem?
    rw [← hp, ← List.drop_eq_getElem_cons hi, List.take_append_drop]
  have hnil : (parts.take i).filterMap r.assumptionOf? = [] :=
    List.filterMap_eq_nil_iff.mpr h.before
  rw [Registry.agree_assumption, hsplit, List.filterMap_append, hnil, List.nil_append,
    List.filterMap_cons_some h.assumption]
  rfl

theorem exists_firstAssumes {r : Registry} {parts : List JudgmentId} {span : Span}
    {m : Nonterminal} (h : (r.agree parts span).assumption = some m) :
    ∃ i part, r.FirstAssumes parts i part m := by
  rw [agree_assumption] at h
  clear span
  induction parts with
  | nil => cases h
  | cons part parts ih =>
    cases hp : r.assumptionOf? part with
    | some nt =>
      rw [List.filterMap_cons_some hp] at h
      cases h
      exact ⟨0, part, rfl, hp, by simp⟩
    | none =>
      rw [List.filterMap_cons_none hp] at h
      obtain ⟨i, other, h1, h2, h3⟩ := ih h
      refine ⟨i + 1, other, h1, h2, fun o ho => ?_⟩
      rw [List.take_succ_cons] at ho
      rcases List.mem_cons.mp ho with rfl | ho
      · exact hp
      · exact h3 o ho

/-! ## Joined forms -/

/-- The occurrences of contexts among elements, with their places. -/
def contextsAmong (r : Registry) (es : List Element) : List Nonterminal :=
  (es.filterMap Element.nonterminal?).filter fun nt => r.isContext nt.val.category

theorem contextsAmong_append (r : Registry) (es fs : List Element) :
    r.contextsAmong (es ++ fs) = r.contextsAmong es ++ r.contextsAmong fs := by
  rw [contextsAmong, List.filterMap_append, List.filter_append]
  rfl

/-- The forms of judgments, one after the other. Where there is no form there is nothing. -/
def joinedForms (r : Registry) (parts : List JudgmentId) : List Element :=
  (parts.filterMap r.formOf?).flatMap (·.elements)

theorem joinedForms_eq {r : Registry} {parts : List JudgmentId} {forms : List Form}
    (hforms : List.Forall₂ (fun part f => r.formOf? part = some f) parts forms) :
    r.joinedForms parts = forms.flatMap (·.elements) := by
  rw [joinedForms, filterMap_eq_of_forall₂ hforms]

theorem contextsAmong_joinedForms (r : Registry) (parts : List JudgmentId) :
    r.contextsAmong (r.joinedForms parts) = parts.flatMap r.contextsOf := by
  induction parts with
  | nil => rfl
  | cons part parts ih =>
    rw [joinedForms, List.flatMap_cons, contextsOf]
    cases hform : r.formOf? part with
    | none =>
      rw [List.filterMap_cons_none hform]
      exact ih
    | some f =>
      rw [List.filterMap_cons_some hform, List.flatMap_cons, contextsAmong_append]
      exact congrArg _ ih

/-- What is found when judgments are to be conjoined, known or unknown, with forms or without. The
context is the first one in the joined forms, and the assumption is the first that is made. One
diagnostic is told for each later context that is another one, then one for each later assumption
that is another one, all of them recoverable and at the place of the request. So the judgments agree
exactly when all their contexts are one and all their assumptions are one, in whatever order they
are listed. -/
theorem agree_reports_dissent (r : Registry) (parts : List JudgmentId) (span : Span) :
    (r.agree parts span).context = (r.contextsAmong (r.joinedForms parts)).head? ∧
    (r.agree parts span).assumption = (parts.filterMap r.assumptionOf?).head? ∧
    (r.agree parts span).diagnostics =
      ((dissenters (r.contextsAmong (r.joinedForms parts))).map fun _ =>
        ⟨contextsMustAgree, span, .recoverable⟩) ++
      ((dissenters (parts.filterMap r.assumptionOf?)).map fun _ =>
        ⟨assumptionsMustAgree, span, .recoverable⟩) ∧
    ((r.agree parts span).holds = true ↔
      Unanimous (r.contextsAmong (r.joinedForms parts)) ∧
        Unanimous (parts.filterMap r.assumptionOf?)) ∧
    ∀ parts' span', parts.Perm parts' →
      (r.agree parts' span').holds = (r.agree parts span).holds := by
  rw [contextsAmong_joinedForms]
  refine ⟨agree_context r parts span, agree_assumption r parts span, agree_diagnostics r parts span,
    holds_agree_iff, fun parts' span' hp => ?_⟩
  have hcontexts := unanimous_perm (hp.flatMap_right r.contextsOf)
  have hassumptions := unanimous_perm (hp.filterMap r.assumptionOf?)
  rw [Bool.eq_iff_iff, holds_agree_iff, holds_agree_iff, hcontexts, hassumptions]

/-- A judgment over another context is listed twice, with one that is unknown and one without a form
around it; the halting judgment assumes something else than they do. -/
theorem agree_reports_dissent_sample : ∃ (r : Registry) (parts : List JudgmentId) (span : Span),
    let told (message : String) : Diagnostic := ⟨message, span, .recoverable⟩
    (r.agree parts span).diagnostics =
      [told contextsMustAgree, told contextsMustAgree, told assumptionsMustAgree] ∧
    parts.Perm parts.reverse ∧ parts ≠ parts.reverse ∧
    (r.agree parts.reverse span).holds = (r.agree parts span).holds := by
  let context : Nonterminal := ⟨⟨"Gamma'", ⟨0⟩⟩, {}⟩
  let writes : List Write := [.reserve "closed" {},
    .define ⟨2⟩ "closed" ⟨[.ofNonterminal context, .terminal "closed" {}], {}⟩,
    .assume ⟨2⟩ (some context), .reserve "open" {}]
  let parts : List JudgmentId := [⟨0⟩, ⟨9⟩, ⟨2⟩, ⟨3⟩, ⟨2⟩, ⟨1⟩]
  have hperm : parts.Perm parts.reverse := (List.reverse_perm parts).symm
  obtain ⟨_, _, hdiagnostics, _, horder⟩ :=
    agree_reports_dissent (sample.run writes) parts (.point 3 9)
  have hdissent : dissenters ((sample.run writes).contextsAmong
        ((sample.run writes).joinedForms parts)) = [context, context] ∧
      dissenters (parts.filterMap (sample.run writes).assumptionOf?) = [⟨⟨"e", ⟨1⟩⟩, {}⟩] := by
    decide +kernel
  rw [hdissent.1, hdissent.2] at hdiagnostics
  exact ⟨sample.run writes, parts, .point 3 9, hdiagnostics, hperm, by decide,
    horder parts.reverse (.point 3 9) hperm⟩

end Registry
end Inference
