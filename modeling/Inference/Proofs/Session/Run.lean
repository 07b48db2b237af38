import Inference.Proofs.Conjunction.Clean
import Inference.Session

/-!
# Inference.Proofs.Session.Run

A session at work: it starts over the table of a program and is asked for one thing after another,
in any order, requests that fail among them.

* `Session.perform`, `Session.run`: one request, and a list of them.
* `Sound`: what a session over a program without problems keeps; `sound_run`, for every run.
* `checkDeclarations_run`: checking the declarations after any run finds nothing.
-/

namespace Inference

inductive SessionRequest where
  | synthesize (span : Span) (parts : List JudgmentId)
  | synthesizeNamed (span : Span) (names : List String)
  | takeDiagnostics
  | checkDeclarations
  | reset

namespace Session

/-- The session after a request, whatever the answer is. -/
def perform (s : Session) : SessionRequest → Session
  | .synthesize span parts => (s.synthesize span parts).1
  | .synthesizeNamed span names => (s.synthesizeNamed span names).1
  | .takeDiagnostics => s.takeDiagnostics.1
  | .checkDeclarations => s.checkDeclarations.1
  | .reset => s.reset.1

def run (s : Session) (requests : List SessionRequest) : Session := requests.foldl perform s

theorem synthesize_registry (s : Session) (span : Span) (parts : List JudgmentId) :
    (s.synthesize span parts).1.registry = (s.workspace.synthesize span parts).1.registry := by
  rw [synthesize]
  split
  · rename_i h; rw [h]; rfl
  · rename_i h; rw [h]; rfl

theorem synthesize_baseline (s : Session) (span : Span) (parts : List JudgmentId) :
    (s.synthesize span parts).1.baseline = s.baseline := by
  rw [synthesize]
  split <;> rfl

theorem seed_registry (s : Session) :
    s.seed.1.registry = (s.workspace.synthesize {} []).1.registry := by
  rw [seed, Workspace.seedTrivial]
  split
  · rename_i h; rw [h]; rfl
  · rename_i h; rw [h]; rfl

theorem seed_baseline (s : Session) : s.seed.1.baseline = s.baseline := by
  rw [seed]
  split <;> rfl

/-- The trivial conjunction can always be made. -/
theorem seed_eq_ok {s : Session} (hr : s.registry.Consistent) : s.seed.2 = .ok () := by
  rcases Workspace.synthesize_cases hr {} [] with ⟨_, _, h⟩ | ⟨e, _, he, _⟩ |
    ⟨w', made, forms, clauses, _, _, h, _⟩
  · rw [seed, Workspace.seedTrivial, h]
  · cases he
  · rw [seed, Workspace.seedTrivial, h]

/-! ## Programs without problems -/

/-- The table of the session and the one that it goes back to are without problems, and are such
as a program can arrive at. -/
structure Sound (s : Session) : Prop where
  reachable : s.registry.Reachable
  clean : s.registry.Clean
  baseline_reachable : s.baseline.Reachable
  baseline_clean : s.baseline.Clean

variable {s : Session}

theorem Sound.of_synthesize {s' : Session} (hs : s.Sound) {span : Span} {parts : List JudgmentId}
    (hregistry : s'.registry = (s.workspace.synthesize span parts).1.registry)
    (hbaseline : s'.baseline = s.baseline) : s'.Sound where
  reachable := by
    rw [hregistry]
    exact Registry.Reachable.synthesize hs.reachable span parts
  clean := by
    rw [hregistry]
    exact Workspace.clean_synthesize hs.reachable.consistent hs.clean span parts
  baseline_reachable := by rw [hbaseline]; exact hs.baseline_reachable
  baseline_clean := by rw [hbaseline]; exact hs.baseline_clean

theorem Sound.synthesize (hs : s.Sound) (span : Span) (parts : List JudgmentId) :
    (s.synthesize span parts).1.Sound :=
  hs.of_synthesize (s.synthesize_registry span parts) (s.synthesize_baseline span parts)

theorem Sound.seed (hs : s.Sound) : s.seed.1.Sound :=
  hs.of_synthesize s.seed_registry s.seed_baseline

theorem Sound.synthesizeNamed (hs : s.Sound) (span : Span) (names : List String) :
    (s.synthesizeNamed span names).1.Sound := by
  rw [Session.synthesizeNamed]
  split
  · exact hs
  · rename_i parts _
    exact hs.synthesize span parts

theorem Sound.checkDeclarations_eq (hs : s.Sound) : s.checkDeclarations = (s, 0) := by
  rw [checkDeclarations, hs.clean.checkAll_eq_nil]
  simp only [List.append_nil]

theorem sound_perform (hs : s.Sound) (request : SessionRequest) : (s.perform request).Sound := by
  cases request with
  | synthesize span parts => exact hs.synthesize span parts
  | synthesizeNamed span names => exact hs.synthesizeNamed span names
  | takeDiagnostics => exact ⟨hs.reachable, hs.clean, hs.baseline_reachable, hs.baseline_clean⟩
  | checkDeclarations =>
    rw [perform, hs.checkDeclarations_eq]
    exact hs
  | reset =>
    have hback : Sound { s with
        workspace := { s.workspace.clear with registry := s.baseline }, diagnostics := [] } :=
      ⟨hs.baseline_reachable, hs.baseline_clean, hs.baseline_reachable, hs.baseline_clean⟩
    exact hback.seed

theorem sound_run (hs : s.Sound) (requests : List SessionRequest) : (s.run requests).Sound := by
  induction requests generalizing s with
  | nil => exact hs
  | cons request requests ih => exact ih (sound_perform hs request)

/-- Over a program without problems a session starts under every accepted configuration, and no
matter what is asked of it, checking the declarations then finds nothing and changes nothing. -/
theorem checkDeclarations_run {registry : Registry} (hr : registry.Reachable)
    (hclean : registry.checkAll.2 = 0) {config : Config} (hconfig : config.check = .ok ())
    (id : Nat) :
    ∃ s, Session.start id registry config = .ok s ∧
      ∀ requests, (s.run requests).checkDeclarations = (s.run requests, 0) := by
  let new : Session := { id, workspace := { registry, config }, baseline := registry }
  have hclean : registry.Clean := Registry.checkAll_count_eq_zero_iff.mp hclean
  have hnew : new.Sound := ⟨hr, hclean, hr, hclean⟩
  have hseed : new.seed = (new.seed.1, .ok ()) := Prod.ext rfl (seed_eq_ok hr.consistent)
  refine ⟨new.seed.1, ?_, fun requests => (sound_run hnew.seed requests).checkDeclarations_eq⟩
  rw [Session.start, hconfig]
  simp only
  rw [hseed]

theorem checkDeclarations_run_sample : Registry.sample.checkAll.2 = 0 ∧
    ∃ s, Session.start 1 .sample {} = .ok s ∧
      ∀ requests, (s.run requests).checkDeclarations = (s.run requests, 0) :=
  ⟨by decide, checkDeclarations_run Registry.sample_reachable (by decide) rfl 1⟩

end Session
end Inference
