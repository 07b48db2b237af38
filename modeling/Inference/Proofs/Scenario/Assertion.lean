import Inference.Scenario.Assertion

/-!
# Inference.Proofs.Scenario.Assertion

What it takes for an assertion to hold of a step that succeeded. The expectations are checked one
after the other, up to the first that fails; which of them is told makes no difference to whether
all of them hold.

* `Meets`: a part is as expected, if anything is expected of it.
* `Assertion.Holds`: each part of an outcome is as expected.
* `verify_eq_ok_iff`: an assertion holds when it does not expect an error and each part is so.
* `holds_formLength_iff`: what one more expectation, on the length of the form, asks for.
-/

namespace Inference
namespace Assertion

/-- The part is as expected. -/
def Meets {α : Type} (expected : Option α) (actual : α) : Prop :=
  ∀ wanted, expected = some wanted → wanted = actual

structure Holds (a : Assertion) (o : Outcome) : Prop where
  custom : ∀ holds, a.custom = some holds → holds o = true
  name : Meets a.name o.name
  form : Meets a.form o.form
  conclusion : Meets a.conclusion o.conclusion
  premises : Meets a.premises o.premises
  context : Meets a.context o.context
  assumption : Meets a.assumption o.assumption
  fresh : Meets a.fresh o.fresh
  formLength : Meets a.formLength o.formLength
  diagnostics : Meets a.diagnostics o.diagnostics.length
  messages : ∀ m ∈ a.messages, countMessage m.1 o.diagnostics = m.2

variable {a : Assertion} {o : Outcome}

theorem firstFailure_eq_none_iff {checks : List (Option String)} :
    firstFailure checks = none ↔ ∀ check ∈ checks, check = none := by
  induction checks with
  | nil => simp [firstFailure]
  | cons check checks ih =>
    cases check with
    | none => simp [firstFailure, ih]
    | some message => simp [firstFailure]

theorem comparePart_eq_none_iff {α : Type} [DecidableEq α] {what : String} {shown : α → String}
    {expected : Option α} {actual : α} :
    comparePart what shown expected actual = none ↔ Meets expected actual := by
  cases expected with
  | none => simp [comparePart, Meets]
  | some wanted => simp [comparePart, Meets]

theorem checkCustom_eq_none_iff :
    a.checkCustom o = none ↔ ∀ holds, a.custom = some holds → holds o = true := by
  rw [checkCustom]
  cases a.custom with
  | none => simp
  | some holds => simp

theorem checkDiagnostics_eq_none_iff :
    a.checkDiagnostics o = none ↔ Meets a.diagnostics o.diagnostics.length := by
  rw [checkDiagnostics]
  cases a.diagnostics with
  | none => simp [Meets]
  | some n => simp [Meets, eq_comm]

theorem checkMessage_eq_none_iff {message : String} {n : Nat} :
    checkMessage o message n = none ↔ countMessage message o.diagnostics = n := by
  simp [checkMessage]

/-! ## All of them -/

theorem failure?_eq_none_iff : a.failure? o = none ↔ a.Holds o := by
  rw [failure?, firstFailure_eq_none_iff, List.forall_mem_append]
  simp only [List.forall_mem_cons, List.forall_mem_map, comparePart_eq_none_iff,
    checkCustom_eq_none_iff, checkDiagnostics_eq_none_iff, checkMessage_eq_none_iff]
  constructor
  · rintro ⟨⟨custom, name, form, conclusion, premises, context, assumption, fresh, formLength,
      diagnostics, _⟩, messages⟩
    exact { custom, name, form, conclusion, premises, context, assumption, fresh, formLength,
            diagnostics, messages }
  · intro h
    exact ⟨⟨h.custom, h.name, h.form, h.conclusion, h.premises, h.context, h.assumption, h.fresh,
      h.formLength, h.diagnostics, List.forall_mem_nil _⟩, h.messages⟩

/-- When an assertion holds of a step that succeeded. -/
theorem verify_eq_ok_iff {step : String} :
    a.verify step (.ok o) = .ok () ↔ a.error = none ∧ a.Holds o := by
  rw [← failure?_eq_none_iff]
  cases herror : a.error with
  | some text => simp [verify, herror]
  | none =>
    cases hfailure : a.failure? o with
    | none => simp [verify, herror, hfailure]
    | some message => simp [verify, herror, hfailure]

theorem holds_formLength_iff {n : Nat} : { a with formLength := some n }.Holds o ↔
    { a with formLength := none }.Holds o ∧ n = o.formLength := by
  constructor
  · intro h
    exact ⟨{ h with formLength := fun _ hnone => by cases hnone }, h.formLength n rfl⟩
  · rintro ⟨h, hn⟩
    exact { h with formLength := fun _ hsome => Option.some.inj hsome ▸ hn }

end Assertion
end Inference
