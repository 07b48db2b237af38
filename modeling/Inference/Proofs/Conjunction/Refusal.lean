import Inference.Proofs.Conjunction.Faithful

/-!
# Inference.Proofs.Conjunction.Refusal

When a request for a conjunction is refused. Each component has to be a judgment of the table, not
to occur among those before it and to have a form; the first that is not in order is the one the
refusal is about. Nothing else can go wrong, and a refused request leaves everything as it was.

* `ComponentFault`, `FirstFault`: what is wrong with a component, and the first that is wrong.
* `componentForms_eq_error_iff`: the check of the components finds the first fault.
* `synthesize_eq_error_iff`: so does a request, whether or not its list is on record.
-/

namespace Inference

namespace Registry

/-- What is wrong with a judgment as a component after the given ones: the first that applies of not
being in the table, being repeated and having no form. -/
def ComponentFault (r : Registry) (before : List JudgmentId) (part : JudgmentId) :
    SynthesisError → Prop
  | .unknownJudgment id => id = part ∧ r.judgment? part = none
  | .duplicateComponent id => id = part ∧ (r.judgment? part).isSome ∧ part ∈ before
  | .missingForm id =>
    id = part ∧ (r.judgment? part).isSome ∧ part ∉ before ∧ r.formOf? part = none
  | .declaration _ => False

/-- The error is about the component at the given place of a list that comes after other components,
and nothing is wrong with those before it in the list. -/
structure FirstFault (r : Registry) (before parts : List JudgmentId) (i : Nat)
    (e : SynthesisError) : Prop where
  fault : ∃ part, parts[i]? = some part ∧ r.ComponentFault (before ++ parts.take i) part e
  earlier : ∀ k < i, ∀ part, parts[k]? = some part →
    ∀ e', ¬ r.ComponentFault (before ++ parts.take k) part e'

variable {r : Registry} {before : List JudgmentId} {part : JudgmentId}

theorem componentFault_congr {before' : List JudgmentId} (h : part ∈ before ↔ part ∈ before')
    (e : SynthesisError) : r.ComponentFault before part e ↔ r.ComponentFault before' part e := by
  cases e <;> simp only [ComponentFault, h]

theorem hasJudgment_iff : r.hasJudgment part = true ↔ (r.judgment? part).isSome := by
  simp [hasJudgment, judgment?]

theorem formOf?_eq_none (h : r.judgment? part = none) : r.formOf? part = none := by
  rw [formOf?, productionOf?, h]
  rfl

theorem not_componentFault_iff : (∀ e, ¬ r.ComponentFault before part e) ↔
    (r.formOf? part).isSome ∧ part ∉ before := by
  constructor
  · intro h
    have hj : (r.judgment? part).isSome := by
      by_contra hnone
      exact h (.unknownJudgment part) ⟨rfl, by simpa using hnone⟩
    have hmem : part ∉ before := fun hmem => h (.duplicateComponent part) ⟨rfl, hj, hmem⟩
    refine ⟨?_, hmem⟩
    by_contra hnone
    exact h (.missingForm part) ⟨rfl, hj, hmem, by simpa using hnone⟩
  · rintro ⟨hform, hmem⟩ e hfault
    cases e with
    | unknownJudgment id =>
      rw [formOf?_eq_none hfault.2] at hform
      cases hform
    | duplicateComponent id => exact hmem hfault.2.2
    | missingForm id =>
      rw [hfault.2.2.2] at hform
      cases hform
    | declaration d => exact hfault

theorem componentForms_of_fault {e : SynthesisError} (h : r.ComponentFault before part e)
    (parts : List JudgmentId) : r.componentForms before (part :: parts) = .error e := by
  cases e with
  | unknownJudgment id =>
    obtain ⟨rfl, hnone⟩ := h
    have hj : ¬ r.hasJudgment id = true := by rw [hasJudgment_iff, hnone]; simp
    rw [componentForms, if_neg hj]
  | duplicateComponent id =>
    obtain ⟨rfl, hj, hmem⟩ := h
    rw [componentForms, if_pos (hasJudgment_iff.mpr hj), if_pos hmem]
  | missingForm id =>
    obtain ⟨rfl, hj, hmem, hform⟩ := h
    rw [componentForms, if_pos (hasJudgment_iff.mpr hj), if_neg hmem, hform]
  | declaration e => exact h.elim

theorem componentForms_of_no_fault (h : ∀ e, ¬ r.ComponentFault before part e)
    (parts : List JudgmentId) : ∃ form, r.componentForms before (part :: parts) =
      (r.componentForms (part :: before) parts).map (form :: ·) := by
  obtain ⟨hform, hmem⟩ := not_componentFault_iff.mp h
  obtain ⟨form, hform⟩ := Option.isSome_iff_exists.mp hform
  refine ⟨form, ?_⟩
  rw [componentForms, if_pos (hasJudgment_of_formOf? hform), if_neg hmem, hform]
  dsimp only
  cases r.componentForms (part :: before) parts <;> rfl

theorem firstFault_cons_of_fault {parts : List JudgmentId} {i : Nat} {e e' : SynthesisError}
    (h : r.ComponentFault before part e') :
    r.FirstFault before (part :: parts) i e ↔ i = 0 ∧ r.ComponentFault before part e := by
  constructor
  · rintro ⟨⟨other, hother, hfound⟩, hearlier⟩
    cases i with
    | zero =>
      cases hother
      exact ⟨rfl, by simpa using hfound⟩
    | succ i => exact absurd (by simpa using h) (hearlier 0 (Nat.succ_pos i) part rfl e')
  · rintro ⟨rfl, hfound⟩
    exact ⟨⟨part, rfl, by simpa using hfound⟩, fun k hk => absurd hk (Nat.not_lt_zero k)⟩

theorem firstFault_cons_of_no_fault {parts : List JudgmentId} {e : SynthesisError}
    (h : ∀ e', ¬ r.ComponentFault before part e') :
    (∃ i, r.FirstFault before (part :: parts) i e) ↔
      ∃ i, r.FirstFault (part :: before) parts i e := by
  have hshift : ∀ k other e', r.ComponentFault (before ++ (part :: parts).take (k + 1)) other e' ↔
      r.ComponentFault (part :: before ++ parts.take k) other e' := by
    intro k other e'
    refine componentFault_congr ?_ e'
    simp only [List.take_succ_cons, List.cons_append, List.mem_cons, List.mem_append]
    tauto
  constructor
  · rintro ⟨i, ⟨other, hother, hfound⟩, hearlier⟩
    cases i with
    | zero =>
      cases hother
      exact absurd (by simpa using hfound) (h e)
    | succ i =>
      refine ⟨i, ⟨other, hother, (hshift i other e).mp hfound⟩, fun k hk other' hk' e' => ?_⟩
      rw [← hshift]
      exact hearlier (k + 1) (Nat.succ_lt_succ hk) other' hk' e'
  · rintro ⟨i, ⟨other, hother, hfound⟩, hearlier⟩
    refine ⟨i + 1, ⟨other, hother, (hshift i other e).mpr hfound⟩, fun k hk other' hk' e' => ?_⟩
    cases k with
    | zero =>
      cases hk'
      simpa using h e'
    | succ k =>
      rw [hshift]
      exact hearlier k (Nat.lt_of_succ_lt_succ hk) other' hk' e'

/-- The check finds the first fault. -/
theorem componentForms_eq_error_iff {parts : List JudgmentId} {e : SynthesisError} :
    r.componentForms before parts = .error e ↔ ∃ i, r.FirstFault before parts i e := by
  induction parts generalizing before with
  | nil =>
    constructor
    · intro h; cases h
    · rintro ⟨i, ⟨part, hpart, _⟩, _⟩; cases hpart
  | cons part parts ih =>
    by_cases hfault : ∃ e', r.ComponentFault before part e'
    · obtain ⟨e', hfault⟩ := hfault
      simp only [firstFault_cons_of_fault hfault, exists_eq_left]
      constructor
      · intro h
        rw [componentForms_of_fault hfault] at h
        cases h
        exact hfault
      · exact fun hfound => componentForms_of_fault hfound parts
    · have hnone : ∀ e', ¬ r.ComponentFault before part e' := fun e' h => hfault ⟨e', h⟩
      obtain ⟨form, hrest⟩ := componentForms_of_no_fault hnone parts
      rw [firstFault_cons_of_no_fault hnone, ← ih, hrest]
      cases r.componentForms (part :: before) parts <;> simp [Except.map]

theorem exists_forms_iff {parts : List JudgmentId} :
    (∃ forms, List.Forall₂ (fun part f => r.formOf? part = some f) parts forms) ↔
      ∀ part ∈ parts, (r.formOf? part).isSome := by
  induction parts with
  | nil => simp
  | cons part parts ih =>
    rw [List.forall_mem_cons, ← ih]
    constructor
    · rintro ⟨_, h⟩
      cases h with
      | cons hform hforms => exact ⟨Option.isSome_of_eq_some hform, _, hforms⟩
    · rintro ⟨hform, forms, hforms⟩
      obtain ⟨form, hform⟩ := Option.isSome_iff_exists.mp hform
      exact ⟨form :: forms, .cons hform hforms⟩

theorem exists_componentForms_eq_error_iff {parts : List JudgmentId} :
    (∃ e, r.componentForms [] parts = .error e) ↔
      (∃ part ∈ parts, r.formOf? part = none) ∨ ¬ parts.Nodup := by
  have hok : (∃ forms, r.componentForms [] parts = .ok forms) ↔
      (∀ part ∈ parts, (r.formOf? part).isSome) ∧ parts.Nodup := by
    rw [← exists_forms_iff]
    simp [componentForms_eq_ok_iff]
  have hnot : (∃ e, r.componentForms [] parts = .error e) ↔
      ¬ ∃ forms, r.componentForms [] parts = .ok forms := by
    cases r.componentForms [] parts <;> simp
  rw [hnot, hok, not_and_or]
  simp [Option.isSome_iff_ne_none]

end Registry

namespace Workspace

variable {w : Workspace}

theorem Faithful.synthesize_eq_error_iff (h : w.Faithful) (span : Span) (parts : List JudgmentId)
    (e : SynthesisError) : (w.synthesize span parts).2 = .error e ↔
      w.registry.componentForms [] parts = .error e := by
  rcases synthesize_cases h.consistent span parts with ⟨judgment, hget, heq⟩ |
    ⟨e', _, hforms, heq⟩ | ⟨w', made, forms, clauses, _, hforms, heq, _, _⟩
  · obtain ⟨forms, hforms⟩ := h.componentForms_of_get? hget
    simp [heq, hforms]
  · simp [heq, hforms]
  · simp [heq, hforms]

theorem Faithful.synthesize_of_error (h : w.Faithful) {span : Span} {parts : List JudgmentId}
    {e : SynthesisError} (he : (w.synthesize span parts).2 = .error e) :
    (w.synthesize span parts).1 = w := by
  rcases synthesize_cases h.consistent span parts with ⟨_, _, heq⟩ | ⟨_, _, _, heq⟩ |
    ⟨_, _, _, _, _, _, heq, _⟩
  · rw [heq]
  · rw [heq]
  · rw [heq] at he
    cases he

/-- A request is refused exactly when a component is no judgment of the table, is repeated or has no
form. The error is about the first component that is not in order, and says the first of these
things that is wrong with it; writing to the table is never what fails. A refused request leaves the
table and the record as they were. -/
theorem synthesize_refusal (h : w.Arises) (span : Span) (parts : List JudgmentId) :
    ((∃ e, (w.synthesize span parts).2 = .error e) ↔
      (∃ part ∈ parts, w.registry.judgment? part = none) ∨ ¬ parts.Nodup ∨
        ∃ part ∈ parts, w.registry.formOf? part = none) ∧
    (∀ e, (w.synthesize span parts).2 = .error e ↔ ∃ i, w.registry.FirstFault [] parts i e) ∧
    ∀ e, (w.synthesize span parts).2 = .error e →
      (∀ d, e ≠ .declaration d) ∧ (w.synthesize span parts).1 = w := by
  have hf := h.faithful
  refine ⟨?_, fun e => ?_, fun e he => ⟨?_, hf.synthesize_of_error he⟩⟩
  · simp only [hf.synthesize_eq_error_iff, Registry.exists_componentForms_eq_error_iff]
    constructor
    · rintro (hform | hrepeated)
      · exact .inr (.inr hform)
      · exact .inr (.inl hrepeated)
    · rintro (⟨part, hpart, hnone⟩ | hrepeated | hform)
      · exact .inl ⟨part, hpart, Registry.formOf?_eq_none hnone⟩
      · exact .inr hrepeated
      · exact .inl hform
  · rw [hf.synthesize_eq_error_iff, Registry.componentForms_eq_error_iff]
  · rintro d rfl
    rw [hf.synthesize_eq_error_iff, Registry.componentForms_eq_error_iff] at he
    obtain ⟨i, ⟨part, _, hfault⟩, _⟩ := he
    exact hfault

/-- A judgment without a form stands before one that is repeated and one that is unknown. -/
theorem synthesize_refusal_sample : ∃ w : Workspace, w.Arises ∧
    (w.synthesize {} [⟨0⟩, ⟨3⟩, ⟨0⟩, ⟨9⟩]).2 = .error (.missingForm ⟨3⟩) ∧
    (w.synthesize {} [⟨0⟩, ⟨3⟩, ⟨0⟩, ⟨9⟩]).1 = w := by
  let events : List WorkspaceEvent := [.synthesize {} [⟨0⟩, ⟨1⟩], .write (.reserve "later" {})]
  have harises : (run { registry := .sample } events).Arises :=
    ⟨.sample, {}, events, Registry.sample_reachable, rfl⟩
  obtain ⟨_, hfirst, hsame⟩ := synthesize_refusal harises {} [⟨0⟩, ⟨3⟩, ⟨0⟩, ⟨9⟩]
  have hfault : (run { registry := .sample } events).registry.FirstFault []
      [⟨0⟩, ⟨3⟩, ⟨0⟩, ⟨9⟩] 1 (.missingForm ⟨3⟩) := by
    refine ⟨⟨⟨3⟩, rfl, rfl, by decide +kernel, by decide, by decide +kernel⟩, ?_⟩
    intro k hk part hpart
    obtain rfl : k = 0 := Nat.lt_one_iff.mp hk
    cases hpart
    exact Registry.not_componentFault_iff.mpr ⟨by decide +kernel, List.not_mem_nil⟩
  have he := (hfirst _).mpr ⟨1, hfault⟩
  exact ⟨_, harises, he, (hsame _ he).2⟩

end Workspace

end Inference
