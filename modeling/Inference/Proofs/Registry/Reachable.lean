import Inference.Conjunction.Workspace
import Inference.Proofs.Registry.Write

/-!
# Inference.Proofs.Registry.Reachable

The tables that a program can arrive at. It starts from the empty table and writes to it in any
order, entries of its own as well as conjunctions; a write that is refused leaves what it wrote
before it was refused.

* `Reachable`: the tables after any number of writes.
* `steps_write`: whatever a write does is made of accepted single writes.
-/

namespace Inference

/-- The ways to write to a table from outside. A conjunction is asked for with whatever
configuration and conjunctions made earlier. -/
inductive Write where
  | addCategory (name : String) (isContext : Bool) (span : Span)
  | reserve (name : String) (span : Span)
  | define (judgment : JudgmentId) (name : String) (form : Form)
  | assume (judgment : JudgmentId) (assumption : Option Nonterminal)
  | setOrigin (judgment : JudgmentId) (origin : Origin)
  | addRule (name : String) (judgment : JudgmentId) (premises : List Clause) (conclusion : Clause)
      (span : Span)
  | register (k : Construction) (validate : Bool)
  | synthesize (config : Config) (cache : Cache) (span : Span) (parts : List JudgmentId)

namespace Registry

def write (r : Registry) : Write → Registry
  | .addCategory name isContext span => (r.addCategory name isContext span).1
  | .reserve name span => (r.reserve name span).1
  | .define judgment name form => (r.define judgment name form).1
  | .assume judgment assumption => (r.assume judgment assumption).1
  | .setOrigin judgment origin => (r.setOrigin judgment origin).1
  | .addRule name judgment premises conclusion span =>
    (r.addRule name judgment premises conclusion span).1
  | .register k validate => (r.register k validate).1
  | .synthesize config cache span parts =>
    (Workspace.synthesize { registry := r, config, cache } span parts).1.registry

def run (r : Registry) (writes : List Write) : Registry := writes.foldl write r

def Reachable (r : Registry) : Prop := ∃ writes, Registry.empty.run writes = r

theorem steps_register (r : Registry) (k : Construction) (validate : Bool) :
    Steps r (r.register k validate).1 := by
  rw [register]
  split
  · exact .refl
  rename_i clauses _
  have s₁ := steps_reserve r k.name k.span
  split
  · rename_i h₁
    rwa [h₁] at s₁
  rename_i reserved id h₁
  rw [h₁] at s₁
  have s₂ := s₁.trans (steps_define reserved id k.name k.form)
  split
  · rename_i h₂
    rwa [h₂] at s₂
  rename_i defined production h₂
  rw [h₂] at s₂
  have s₃ := s₂.trans (steps_assume defined id k.assumption)
  split
  · rename_i h₃
    rwa [h₃] at s₃
  rename_i assumed h₃
  rw [h₃] at s₃
  have s₄ := s₃.trans (steps_setOrigin assumed id (.conjunction k.components))
  split
  · rename_i h₄
    rwa [h₄] at s₄
  rename_i placed h₄
  rw [h₄] at s₄
  have s₅ := s₄.trans (steps_addRule placed k.name id clauses
    { elements := k.form.elements, span := k.span, production } k.span)
  dsimp only
  split
  all_goals
    rename_i h₅
    rwa [h₅] at s₅

theorem steps_synthesize (w : Workspace) (span : Span) (parts : List JudgmentId) :
    Steps w.registry (w.synthesize span parts).1.registry := by
  rw [Workspace.synthesize]
  split
  · exact .refl
  split
  · exact .refl
  rename_i forms _
  dsimp only
  have h := steps_register w.registry (w.registry.construct w.config span parts forms).1
    w.config.validate
  split
  · rename_i hreg; rw [hreg] at h; exact h
  · rename_i hreg; rw [hreg] at h; exact h

theorem steps_write (r : Registry) (w : Write) : Steps r (r.write w) := by
  cases w with
  | addCategory name isContext span => exact steps_addCategory r name isContext span
  | reserve name span => exact steps_reserve r name span
  | define judgment name form => exact steps_define r judgment name form
  | assume judgment assumption => exact steps_assume r judgment assumption
  | setOrigin judgment origin => exact steps_setOrigin r judgment origin
  | addRule name judgment premises conclusion span =>
    exact steps_addRule r name judgment premises conclusion span
  | register k validate => exact steps_register r k validate
  | synthesize config cache span parts =>
    exact steps_synthesize { registry := r, config, cache } span parts

theorem steps_run (r : Registry) (writes : List Write) : Steps r (r.run writes) := by
  induction writes generalizing r with
  | nil => exact .refl
  | cons w writes ih => exact (steps_write r w).trans (ih (r.write w))

theorem Reachable.steps {r : Registry} (h : r.Reachable) : Steps Registry.empty r := by
  obtain ⟨writes, rfl⟩ := h
  exact steps_run _ writes

theorem Reachable.write {r : Registry} (h : r.Reachable) (w : Write) : (r.write w).Reachable := by
  obtain ⟨writes, rfl⟩ := h
  exact ⟨writes ++ [w], List.foldl_append⟩

theorem Reachable.synthesize {w : Workspace} (h : w.registry.Reachable) (span : Span)
    (parts : List JudgmentId) : (w.synthesize span parts).1.registry.Reachable :=
  h.write (.synthesize w.config w.cache span parts)

/-! ## A program -/

/-- A typing judgment over a context, and a judgment of terms that assumes the term it is about.
Both mention `e`. -/
def typingAndHalting : List Write :=
  let context : Element := .ofNonterminal ⟨⟨"Gamma", ⟨0⟩⟩, {}⟩
  let term : Nonterminal := ⟨⟨"e", ⟨1⟩⟩, {}⟩
  let type : Element := .ofNonterminal ⟨⟨"tau", ⟨2⟩⟩, {}⟩
  [.addCategory "Gamma" true {}, .addCategory "e" false {}, .addCategory "tau" false {},
    .reserve "typing" {}, .reserve "halts" {},
    .define ⟨0⟩ "typing"
      ⟨[context, .terminal "|-" {}, .ofNonterminal term, .terminal ":" {}, type], {}⟩,
    .define ⟨1⟩ "halts" ⟨[.ofNonterminal term, .terminal "halts" {}], {}⟩,
    .assume ⟨1⟩ (some term)]

def sample : Registry := Registry.empty.run typingAndHalting

theorem sample_reachable : sample.Reachable := ⟨typingAndHalting, rfl⟩

end Registry
end Inference
