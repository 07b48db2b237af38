import Inference.Proofs.Registry.Consistent
import Inference.Registry.Declaration

/-!
# Inference.Proofs.Registry.Declaration

Declaring a program is made of accepted single writes, also when a declaration fails half way. So
what every write keeps holds of the table of a program.

* `steps_declare`: one declaration, whether or not it is accepted.
* `holds_ofDeclarations`: what each declaration keeps holds of the table of a whole program.
* `steps_ofDeclarations`, `consistent_ofDeclarations`: how that table came about.
-/

namespace Inference
namespace Registry

variable {r r' : Registry}

theorem steps_declareJudgment (r : Registry) (name form : String)
    (assumes productionName : Option String) (span : Span) :
    Steps r (r.declareJudgment name form assumes productionName span).1 := by
  rw [declareJudgment]
  split
  · exact .refl
  rename_i assumption _
  have s₁ := steps_reserve r name span
  split
  · rename_i h₁
    rwa [h₁] at s₁
  rename_i reserved id h₁
  rw [h₁] at s₁
  have s₂ := s₁.trans
    (steps_define reserved id (productionName.getD name) (r.readForm form span))
  split
  · rename_i h₂
    rwa [h₂] at s₂
  rename_i defined _ h₂
  rw [h₂] at s₂
  have s₃ := s₂.trans (steps_assume defined id assumption)
  split
  all_goals
    rename_i h₃
    rwa [h₃] at s₃

theorem steps_declareRule (r : Registry) (name judgment : String)
    (premises : List (String × String)) (conclusion : Option String) (span : Span) :
    Steps r (r.declareRule name judgment premises conclusion span).1 := by
  rw [declareRule]
  split
  · exact .refl
  split
  · exact .refl
  split
  · exact .refl
  split
  · exact .refl
  · exact steps_addRule r name _ _ _ span

theorem steps_declare (r : Registry) (d : Declaration) : Steps r (r.declare d).1 := by
  cases d with
  | category name isContext span => exact steps_addCategory r name isContext span
  | judgment name form assumes productionName span =>
    exact steps_declareJudgment r name form assumes productionName span
  | rule name judgment premises conclusion span =>
    exact steps_declareRule r name judgment premises conclusion span
  | placeholder name => exact steps_reserve r name {}

/-- What each declaration keeps, be it accepted or not, a list of declarations keeps. -/
theorem holds_declareAll {P : Registry → Prop} (hstep : ∀ r d, P r → P (r.declare d).1)
    {ds : List Declaration} (hr : P r) (h : r.declareAll ds = .ok r') : P r' := by
  induction ds generalizing r with
  | nil =>
    cases h
    exact hr
  | cons d ds ih =>
    have hfirst := hstep r d hr
    rw [declareAll] at h
    split at h
    · cases h
    · rename_i declared _ hd
      rw [hd] at hfirst
      exact ih hfirst h

theorem eq_of_complete (h : r.complete = .ok r') : r' = r := by
  rw [complete] at h
  split at h
  · cases h
  · cases h
    rfl

/-- So it holds of the table of a program if it holds of the empty table. -/
theorem holds_ofDeclarations {P : Registry → Prop} (hempty : P empty)
    (hstep : ∀ r d, P r → P (r.declare d).1) {ds : List Declaration}
    (h : ofDeclarations ds = .ok r) : P r := by
  rw [ofDeclarations] at h
  split at h
  · cases h
  rename_i declared hdeclared
  split at h
  · cases h
  rename_i completed hcomplete
  cases eq_of_complete hcomplete
  exact holds_declareAll hstep (holds_declareAll hstep hempty hdeclared) h

theorem steps_ofDeclarations {ds : List Declaration} (h : ofDeclarations ds = .ok r) :
    Steps empty r :=
  holds_ofDeclarations .refl (fun r d hr => hr.trans (steps_declare r d)) h

theorem consistent_ofDeclarations {ds : List Declaration} (h : ofDeclarations ds = .ok r) :
    r.Consistent :=
  consistent_of_steps consistent_empty (steps_ofDeclarations h)

end Registry
end Inference
