import Inference.Proofs.Conjunction.History
import Inference.Proofs.Session.Run

/-!
# Inference.Proofs.Session.Reset

Setting a session back. A session keeps its number, its configuration and the table it started over
whatever is asked of it, and making the trivial conjunction depends on nothing else and cannot fail.
So a session that is set back is the session that was started, and goes on like a new one.

* `start_eq_ok_iff`: the trivial conjunction can be made over every table, whatever it declares.
* `origin_run`: what a session keeps in every run.
* `SessionAnswer`, `Session.answers`: what a session answers to a list of requests.
* `reset_run`: setting a session back after any run gives back the session that was started.
-/

namespace Inference

namespace Registry

theorem accepts_trivial (r : Registry) (config : Config) (span : Span) :
    r.Accepts (r.construct config span [] []).1 [] where
  premises := rfl
  name_free := r.judgmentId?_unusedName _
  form_declared := declares_iff.mpr fun _ hv => by cases hv
  assumption_declared _ hnt := by cases hnt
  productions _ hc := by cases hc

end Registry

theorem Config.check_eq_ok_iff {config : Config} : config.check = .ok () ↔
    config.separator ≠ "" ∧ ∀ c ∈ config.separator.toList, ¬ Text.isBlank c := by
  rw [check]
  split
  · rename_i h
    simp only [Bool.or_eq_true, decide_eq_true_eq, List.any_eq_true] at h
    constructor
    · intro hok
      cases hok
    · rintro ⟨hne, hblank⟩
      rcases h with h | ⟨c, hc, hb⟩
      · exact absurd h hne
      · exact absurd hb (hblank c hc)
  · rename_i h
    simpa using h

namespace Session

def unseeded (id : Nat) (registry : Registry) (config : Config) : Session :=
  { id, workspace := { registry, config }, baseline := registry }

theorem exists_seed_unseeded (id : Nat) (registry : Registry) (config : Config) :
    ∃ s, (unseeded id registry config).seed = (s, .ok ()) := by
  have hreg := Registry.register_of_accepts (registry.accepts_trivial config {}) config.validate
  have hmade : ∃ w made, Workspace.synthesize { registry, config } {} [] = (w, .ok made) := by
    rw [Workspace.synthesize]
    simp only [Cache.get?, List.find?_nil, Option.map_none, Registry.componentForms, hreg]
    exact ⟨_, _, rfl⟩
  obtain ⟨w, made, hmade⟩ := hmade
  rw [seed, Workspace.seedTrivial, unseeded, hmade]
  exact ⟨_, rfl⟩

theorem start_eq_ok_iff {id : Nat} {registry : Registry} {config : Config} {s : Session} :
    Session.start id registry config = .ok s ↔
      config.check = .ok () ∧ (unseeded id registry config).seed = (s, .ok ()) := by
  obtain ⟨s', hseed⟩ := exists_seed_unseeded id registry config
  cases hcheck : config.check with
  | error e => simp [Session.start, hcheck]
  | ok _ =>
    have hstart : Session.start id registry config = .ok s' := by
      rw [unseeded] at hseed
      rw [Session.start, hcheck]
      simp only [hseed]
    simp [hstart, hseed]

/-- The session before its trivial conjunction was made. -/
def origin (s : Session) : Session := unseeded s.id s.baseline s.config

theorem origin_synthesize (s : Session) (span : Span) (parts : List JudgmentId) :
    (s.synthesize span parts).1.origin = s.origin := by
  have hconfig := s.workspace.config_synthesize span parts
  rw [synthesize]
  split
  · rename_i h
    rw [h] at hconfig
    exact congrArg (unseeded s.id s.baseline) hconfig
  · rename_i h
    rw [h] at hconfig
    exact congrArg (unseeded s.id s.baseline) hconfig

theorem origin_seed (s : Session) : s.seed.1.origin = s.origin := by
  rw [← s.origin_synthesize {} [], seed, Workspace.seedTrivial, synthesize]
  rcases s.workspace.synthesize {} [] with ⟨w, e | made⟩
  · rfl
  · rfl

theorem origin_perform (s : Session) (request : SessionRequest) :
    (s.perform request).origin = s.origin := by
  cases request with
  | synthesize span parts => exact s.origin_synthesize span parts
  | synthesizeNamed span names =>
    rw [perform, synthesizeNamed]
    split
    · rfl
    · exact s.origin_synthesize span _
  | takeDiagnostics => rfl
  | checkDeclarations => rfl
  | reset => exact origin_seed _

theorem origin_run (s : Session) (requests : List SessionRequest) :
    (s.run requests).origin = s.origin := by
  induction requests generalizing s with
  | nil => rfl
  | cons request requests ih => exact (ih (s.perform request)).trans (s.origin_perform request)

/-- Which judgment was the trivial conjunction before does not matter. -/
theorem seed_trivial {s s' : Session} (h : s.seed = (s', .ok ())) (judgment : JudgmentId) :
    seed { s with trivial := judgment } = (s', .ok ()) := by
  rw [seed] at h ⊢
  rcases hmade : s.workspace.seedTrivial with ⟨w, e | made⟩
  · simp [hmade] at h
  · simp only [hmade] at h ⊢
    exact h

theorem reset_eq {s s' : Session} (h : s.origin.seed = (s', .ok ())) : s.reset = (s', .ok ()) :=
  seed_trivial h s.trivial

theorem origin_of_start {id : Nat} {registry : Registry} {config : Config} {s : Session}
    (hs : Session.start id registry config = .ok s) : s.origin = unseeded id registry config := by
  obtain ⟨_, hseed⟩ := start_eq_ok_iff.mp hs
  have hstart := origin_seed (unseeded id registry config)
  rw [hseed] at hstart
  exact hstart

theorem reset_of_start {id : Nat} {registry : Registry} {config : Config} {s : Session}
    (hs : Session.start id registry config = .ok s) (requests : List SessionRequest) :
    (s.run requests).reset = (s, .ok ()) := by
  obtain ⟨_, hseed⟩ := start_eq_ok_iff.mp hs
  have horigin : (s.run requests).origin = unseeded id registry config :=
    (s.origin_run requests).trans (origin_of_start hs)
  exact reset_eq (horigin ▸ hseed)

/-! ## Answers -/

inductive SessionAnswer where
  | judgment (answer : Except SessionError JudgmentId)
  | diagnostics (found : List Diagnostic)
  | count (problems : Nat)
  | done (answer : Except SessionError Unit)

def answer (s : Session) : SessionRequest → SessionAnswer
  | .synthesize span parts => .judgment (s.synthesize span parts).2
  | .synthesizeNamed span names => .judgment (s.synthesizeNamed span names).2
  | .takeDiagnostics => .diagnostics s.takeDiagnostics.2
  | .checkDeclarations => .count s.checkDeclarations.2
  | .reset => .done s.reset.2

def answers (s : Session) : List SessionRequest → List SessionAnswer
  | [] => []
  | request :: requests => s.answer request :: (s.perform request).answers requests

theorem answers_append (s : Session) (requests more : List SessionRequest) :
    s.answers (requests ++ more) = s.answers requests ++ (s.run requests).answers more := by
  induction requests generalizing s with
  | nil => rfl
  | cons request requests ih =>
    rw [List.cons_append, answers, answers, ih, List.cons_append]
    rfl

/-- A session starts over every table, whatever is declared in it, exactly when the separator is one
token. Set back after any run, it is in every respect the session that was started, and goes on to
answer what that one would answer. -/
theorem reset_run (id : Nat) (registry : Registry) (config : Config) :
    ((∃ s, Session.start id registry config = .ok s) ↔
      config.separator ≠ "" ∧ ∀ c ∈ config.separator.toList, ¬ Text.isBlank c) ∧
    ∀ s, Session.start id registry config = .ok s → ∀ requests,
      (s.run requests).reset = (s, .ok ()) ∧
      ∀ more, s.answers (requests ++ .reset :: more) =
        s.answers requests ++ .done (.ok ()) :: s.answers more := by
  refine ⟨?_, fun s hs requests => ?_⟩
  · simp only [start_eq_ok_iff, exists_and_left, exists_seed_unseeded, and_true,
      Config.check_eq_ok_iff]
  · obtain ⟨_, hseed⟩ := start_eq_ok_iff.mp hs
    have horigin : (s.run requests).origin = unseeded id registry config := by
      have hstart := origin_seed (unseeded id registry config)
      rw [hseed] at hstart
      rw [origin_run, hstart]
      rfl
    have hreset : (s.run requests).reset = (s, .ok ()) := reset_eq (horigin ▸ hseed)
    refine ⟨hreset, fun more => ?_⟩
    rw [answers_append, answers, answer, perform, hreset]

/-- A session over a table in which the first names for the trivial conjunction are taken. -/
theorem reset_run_sample :
    ∃ s, Session.start 1 (Registry.empty.run [.reserve "and[]" {}, .reserve "and[]#1" {}]) {} =
        .ok s ∧
      s.registry.judgmentId? "and[]#2" = some s.trivial ∧
      (s.run [.synthesize {} [⟨0⟩], .synthesize {} [s.trivial], .takeDiagnostics,
        .checkDeclarations]).reset = (s, .ok ()) := by
  have hreset := (reset_run 1
    (Registry.empty.run [.reserve "and[]" {}, .reserve "and[]#1" {}]) {}).2 _ rfl
  exact ⟨_, rfl, by decide +kernel, (hreset _).1⟩

end Session
end Inference
