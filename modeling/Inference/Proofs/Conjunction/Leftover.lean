import Inference.Proofs.Conjunction.Registration
import Inference.Proofs.Registry.Lookup

/-!
# Inference.Proofs.Conjunction.Leftover

What a construction that is refused leaves in the declaration table. Its premises and its name are
looked at before anything is written, its form and its assumption only once the judgment is
reserved. So a category that is not declared, in the form or in the assumption, leaves a judgment
behind that has no rule, and the name is taken.

* `Admits`: what is looked at before anything is written.
* `register_of_not_admits`, `register_of_undeclared_form`, `register_of_undeclared_assumption`: the
  answer and the table, by what is not in order.
* `register_refusal`: when a construction is refused, and when the table is as it was.
-/

namespace Inference
namespace Registry

/-- The premises are over judgments with forms, and the name is free. -/
structure Admits (r : Registry) (k : Construction) : Prop where
  premises : ∃ clauses, r.premiseClauses k.span k.components k.premises = .ok clauses
  name_free : r.judgmentId? k.name = none

variable {r : Registry} {k : Construction}

theorem register_of_not_admits (h : ¬ r.Admits k) (validate : Bool) :
    ∃ e, r.register k validate = (r, .error e) := by
  rw [register]
  split
  · exact ⟨_, rfl⟩
  · rename_i clauses hc
    have htaken : r.judgmentNames.contains k.name = true := by
      by_contra hfree
      exact h ⟨⟨clauses, hc⟩,
        NameIndex.contains_eq_false_iff.mp (Bool.not_eq_true _ ▸ hfree)⟩
    rw [reserve, if_pos htaken]
    exact ⟨_, rfl⟩

theorem category?_of_undeclaredIn? {form : Form} {nt : Nonterminal}
    (h : r.undeclaredIn? form = some nt) : r.category? nt.val.category = none := by
  simpa using List.find?_some h

theorem register_of_undeclared_form (h : r.Admits k) {nt : Nonterminal}
    (hnt : r.undeclaredIn? k.form = some nt) (validate : Bool) : r.register k validate =
      (r.reservedFor k, .error (.declaration (.unknownCategory nt.val.category))) := by
  obtain ⟨⟨clauses, hc⟩, hname⟩ := h
  have hdefine : (r.reservedFor k).define r.enteredId k.name k.form =
      (r.reservedFor k, .error (.unknownCategory nt.val.category)) := by
    have hundeclared : (r.reservedFor k).undeclaredIn? k.form = some nt := hnt
    rw [define, judgment?_reservedFor]
    simp only [newJudgment, hundeclared]
  rw [register, hc]
  simp only [reserve_reservedFor hname, hdefine]

theorem register_of_undeclared_assumption (h : r.Admits k) (hform : r.Declares k.form)
    {nt : Nonterminal} (ha : k.assumption = some nt) (hnt : r.category? nt.val.category = none)
    (validate : Bool) : r.register k validate =
      (r.definedFor k, .error (.declaration (.unknownCategory nt.val.category))) := by
  obtain ⟨⟨clauses, hc⟩, hname⟩ := h
  have hassume : (r.definedFor k).assume r.enteredId k.assumption =
      (r.definedFor k, .error (.unknownCategory nt.val.category)) := by
    have hundeclared : (r.definedFor k).category? nt.val.category = none := hnt
    rw [assume, ha]
    simp [Option.filter, hundeclared]
  rw [register, hc]
  simp only [reserve_reservedFor hname, define_definedFor hform, hassume]

theorem Consistent.production_lt_of_premiseClauses (hr : r.Consistent) {span : Span}
    {components : List JudgmentId} {premises : List (List Element)} {clauses : List Clause}
    (h : r.premiseClauses span components premises = .ok clauses) :
    ∀ c ∈ clauses, c.production.index < r.productions.length := by
  induction components generalizing premises clauses with
  | nil =>
    cases h
    exact fun c hc => absurd hc List.not_mem_nil
  | cons component components ih =>
    cases premises with
    | nil =>
      cases h
      exact fun c hc => absurd hc List.not_mem_nil
    | cons elements premises =>
      rw [premiseClauses] at h
      split at h
      · cases h
      rename_i j hj
      split at h
      · cases h
      rename_i production hp
      split at h
      · cases h
      rename_i rest hrest
      cases h
      intro c hc
      rcases List.mem_cons.mp hc with rfl | hc
      · obtain ⟨_, hfound⟩ := Option.isSome_iff_exists.mp (hr.isSome_production? hj hp)
        exact (List.getElem?_eq_some_iff.mp hfound).1
      · exact ih hrest c hc

theorem Consistent.accepts (hr : r.Consistent) (h : r.Admits k) (hform : r.Declares k.form)
    (ha : ∀ nt, k.assumption = some nt → (r.category? nt.val.category).isSome) :
    ∃ clauses, r.Accepts k clauses := by
  obtain ⟨⟨clauses, hc⟩, hname⟩ := h
  exact ⟨clauses, hc, hname, hform, ha, fun c hmem =>
    Nat.le_of_lt (hr.production_lt_of_premiseClauses hc c hmem)⟩

/-! ## What is left behind -/

/-- The new judgment holds the name of a conjunction that was not entered. It has the form of the
conjunction only if that is over declared categories, and nothing else of it. -/
structure LeftBehind (r : Registry) (k : Construction) (r' : Registry) : Prop where
  name_taken : r'.judgmentId? k.name = some r.enteredId
  form : r'.formOf? r.enteredId = if r.Declares k.form then some k.form else none
  assumption : r'.assumptionOf? r.enteredId = none
  rules : r'.rulesFor r.enteredId = []
  components : (r'.judgment? r.enteredId).map (·.components) = some []

theorem leftBehind_of_judgment? {r' : Registry} (hr' : r'.Consistent) {j : Judgment}
    (hj : r'.judgment? r.enteredId = some j)
    (hnew : { j with production := none } = r.newJudgment k.name k.span)
    (hform : r'.formOf? r.enteredId = if r.Declares k.form then some k.form else none) :
    r.LeftBehind k r' := by
  obtain ⟨_, hname, _, hassumption, hrules, horigin, _⟩ := Judgment.mk.inj hnew
  refine ⟨hr'.judgmentId?_eq_some_iff.mpr ?_, hform, ?_, ?_, ?_⟩
  · rw [hj, Option.map_some, hname]
  · rw [assumptionOf?, hj, Option.bind_some, hassumption]
  · rw [rulesFor, hj]
    simp only [hrules, List.filterMap_nil]
  · rw [hj, Option.map_some, Judgment.components, horigin]

theorem leftBehind_reservedFor (hr : (r.reservedFor k).Consistent) (h : ¬ r.Declares k.form) :
    r.LeftBehind k (r.reservedFor k) := by
  refine leftBehind_of_judgment? hr judgment?_reservedFor rfl ?_
  rw [if_neg h, formOf?, productionOf?, judgment?_reservedFor]
  rfl

theorem leftBehind_definedFor (hr : (r.definedFor k).Consistent) (h : r.Declares k.form) :
    r.LeftBehind k (r.definedFor k) := by
  refine leftBehind_of_judgment? hr judgment?_definedFor rfl ?_
  have hfound : (r.definedFor k).production? ⟨r.productions.length⟩ =
      some (r.newProduction r.enteredId k.name k.form) := by
    simp [production?, definedFor, withLast]
  rw [if_pos h, formOf?, productionOf?, judgment?_definedFor, Option.bind_some, Option.bind_some,
    hfound]
  rfl

theorem LeftBehind.ne {r' : Registry} (h : r.LeftBehind k r') : r' ≠ r := by
  rintro rfl
  have hj : r'.judgment? r'.enteredId = none := List.getElem?_eq_none (Nat.le_refl _)
  have hcomponents := h.components
  rw [hj] at hcomponents
  cases hcomponents

/-- All that can come of a construction whose premises and name are in order. -/
theorem Consistent.register_cases (hr : r.Consistent) (h : r.Admits k) (validate : Bool) :
    (∃ id, r.category? id = none ∧ r.LeftBehind k (r.register k validate).1 ∧
      (r.register k validate).2 = .error (.declaration (.unknownCategory id)) ∧
      (¬ r.Declares k.form ∨ ∃ nt, k.assumption = some nt ∧ r.category? nt.val.category = none)) ∨
    (∃ clauses, r.Accepts k clauses) := by
  have hr' : (r.register k validate).1.Consistent :=
    consistent_of_steps hr (steps_register r k validate)
  by_cases hform : r.Declares k.form
  · by_cases ha : ∃ nt, k.assumption = some nt ∧ r.category? nt.val.category = none
    · obtain ⟨nt, hsome, hnt⟩ := ha
      have hreg := register_of_undeclared_assumption h hform hsome hnt validate
      rw [hreg] at hr' ⊢
      exact .inl ⟨_, hnt, leftBehind_definedFor hr' hform, rfl, .inr ⟨nt, hsome, hnt⟩⟩
    · refine .inr (hr.accepts h hform fun nt hsome => ?_)
      exact Option.isSome_iff_ne_none.mpr fun hnt => ha ⟨nt, hsome, hnt⟩
  · obtain ⟨nt, hnt⟩ := Option.ne_none_iff_exists'.mp fun he =>
      hform (undeclaredIn?_eq_none_iff.mp he)
    have hreg := register_of_undeclared_form h hnt validate
    rw [hreg] at hr' ⊢
    exact .inl ⟨_, category?_of_undeclaredIn? hnt, leftBehind_reservedFor hr' hform, rfl,
      .inl hform⟩

/-- A construction is refused exactly when a premise is over a judgment without a form, the name is
taken, or a category of the form or of the assumption is not declared. In the first two cases the
table is as it was. In the others the error is about the category, and the table is not as it was:
the name is taken by a judgment without a rule, which has the form only when that was in order. -/
theorem register_refusal (h : r.Reachable) (k : Construction) (validate : Bool) :
    ((∃ e, (r.register k validate).2 = .error e) ↔
      ¬ r.Admits k ∨ ¬ r.Declares k.form ∨
        ∃ nt, k.assumption = some nt ∧ r.category? nt.val.category = none) ∧
    ∀ e, (r.register k validate).2 = .error e →
      ((r.register k validate).1 = r ↔ ¬ r.Admits k) ∧
      (r.Admits k → r.judgmentId? k.name = none ∧ r.LeftBehind k (r.register k validate).1 ∧
        ∃ id, e = .declaration (.unknownCategory id) ∧ r.category? id = none) := by
  have hr := h.consistent
  by_cases hadmits : r.Admits k
  · rcases hr.register_cases hadmits validate with ⟨id, hid, hleft, hanswer, hwhy⟩ |
      ⟨clauses, hacc⟩
    · refine ⟨⟨fun _ => .inr hwhy, fun _ => ⟨_, hanswer⟩⟩, fun e he => ⟨?_, fun _ => ?_⟩⟩
      · exact ⟨fun hsame => absurd hsame hleft.ne, fun hnot => absurd hadmits hnot⟩
      · have hfree : r.judgmentId? k.name = none := hadmits.name_free
        rw [hanswer] at he
        cases he
        exact ⟨hfree, hleft, id, rfl, hid⟩
    · rw [register_of_accepts hacc]
      refine ⟨⟨?_, ?_⟩, fun e he => by cases he⟩
      · rintro ⟨e, he⟩
        cases he
      · rintro (hnot | hform | ⟨nt, hsome, hnt⟩)
        · exact absurd hadmits hnot
        · exact absurd hacc.form_declared hform
        · have hdeclared := hacc.assumption_declared nt hsome
          rw [hnt] at hdeclared
          cases hdeclared
  · obtain ⟨e, hreg⟩ := register_of_not_admits hadmits validate
    rw [hreg]
    exact ⟨⟨fun _ => .inl hadmits, fun _ => ⟨e, rfl⟩⟩, fun e' _ =>
      ⟨⟨fun _ => hadmits, fun _ => rfl⟩, fun hyes => absurd hyes hadmits⟩⟩

/-- A conjunction of the halting judgment whose assumption is over a category that is not there:
its judgment is left with the form, but without the rule. -/
theorem register_refusal_sample : ∃ (k : Construction) (r : Registry),
    r = (sample.register k true).1 ∧ sample.Reachable ∧
    (sample.register k true).2 = .error (.declaration (.unknownCategory ⟨9⟩)) ∧
    sample.judgmentId? k.name = none ∧ r.judgmentId? k.name = some ⟨2⟩ ∧
    r.formOf? ⟨2⟩ = some k.form ∧ r.rulesFor ⟨2⟩ = [] := by
  let elements : List Element := [.ofNonterminal ⟨⟨"e1", ⟨1⟩⟩, {}⟩, .terminal "halts" {}]
  let k : Construction :=
    { name := "and[halts]", components := [⟨1⟩], premises := [elements], form := ⟨elements, {}⟩,
      assumption := some ⟨⟨"x", ⟨9⟩⟩, {}⟩, span := {} }
  have hadmits : sample.Admits k := ⟨⟨_, rfl⟩, by decide +kernel⟩
  have hform : sample.Declares k.form := by decide +kernel
  have hanswer : (sample.register k true).2 = .error (.declaration (.unknownCategory ⟨9⟩)) := by
    decide +kernel
  obtain ⟨hfree, hleft, _⟩ := ((register_refusal sample_reachable k true).2 _ hanswer).2 hadmits
  have hfound := hleft.form
  rw [if_pos hform] at hfound
  exact ⟨k, _, rfl, sample_reachable, hanswer, hfree, hleft.name_taken, hfound, hleft.rules⟩

/-- A form over a category that is not there leaves a placeholder, and its name is taken. -/
theorem not_forall_register_unchanged :
    ¬ ∀ (r : Registry) (k : Construction) (validate : Bool) (e : SynthesisError), r.Reachable →
      (r.register k validate).2 = .error e → (r.register k validate).1 = r := by
  let elements : List Element := [.ofNonterminal ⟨⟨"e1", ⟨9⟩⟩, {}⟩, .terminal "halts" {}]
  let k : Construction :=
    { name := "and[halts]", components := [⟨1⟩], premises := [elements], form := ⟨elements, {}⟩,
      assumption := none, span := {} }
  have hanswer : (sample.register k true).2 = .error (.declaration (.unknownCategory ⟨9⟩)) := by
    decide +kernel
  have hleft : (sample.register k true).1 ≠ sample := by decide +kernel
  exact fun h => hleft (h sample k true _ sample_reachable hanswer)

end Registry
end Inference
