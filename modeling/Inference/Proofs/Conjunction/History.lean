import Inference.Proofs.Conjunction.Synthesis
import Inference.Proofs.Registry.Extends

/-!
# Inference.Proofs.Conjunction.History

A workspace in use. Its table is written to, past it or by conjunctions made in other workspaces,
while it is asked for conjunctions in any order; what fails is part of the history too.

* `WorkspaceEvent`, `Workspace.run`: what can happen to a workspace, and a history of it.
* `Tracked`: the conjunctions on record are judgments of the table, different ones for different
  lists; `tracked_run`, for every history.
* `synthesize_identity`: a list of components has one conjunction, made when it is first asked for,
  and no other list has the same.
-/

namespace Inference

namespace Cache

theorem get?_insert {c : Cache} {parts : List JudgmentId} (h : c.get? parts = none)
    (judgment : JudgmentId) (other : List JudgmentId) :
    (c.insert parts judgment).1.get? other =
      if other = parts then some judgment else c.get? other := by
  have hinsert : (c.insert parts judgment).1 = ⟨c.entries ++ [(parts, judgment)]⟩ := by
    rw [insert, h]
  rw [hinsert, get?, List.find?_append, get?]
  by_cases he : other = parts
  · subst he
    have hnone : c.entries.find? (·.1 == other) = none := Option.map_eq_none_iff.mp h
    simp [hnone]
  · simp [he, Ne.symm he]

end Cache

inductive WorkspaceEvent where
  /-- The table is written to by someone else. -/
  | write (w : Write)
  | synthesize (span : Span) (parts : List JudgmentId)
  | clear

namespace Workspace

def perform (w : Workspace) : WorkspaceEvent → Workspace
  | .write e => { w with registry := w.registry.write e }
  | .synthesize span parts => (w.synthesize span parts).1
  | .clear => w.clear

def run (w : Workspace) (events : List WorkspaceEvent) : Workspace := events.foldl perform w

/-- A request for a conjunction, as an event. -/
def requestEvent (request : Span × List JudgmentId) : WorkspaceEvent :=
  .synthesize request.1 request.2

theorem clear_not_mem_requests (requests : List (Span × List JudgmentId)) :
    .clear ∉ requests.map requestEvent := by
  simp [requestEvent]

theorem config_synthesize (w : Workspace) (span : Span) (parts : List JudgmentId) :
    (w.synthesize span parts).1.config = w.config := by
  rw [synthesize]
  repeat' split
  all_goals rfl

theorem config_perform (w : Workspace) (e : WorkspaceEvent) : (w.perform e).config = w.config := by
  cases e with
  | write e => rfl
  | synthesize span parts => exact config_synthesize w span parts
  | clear => rfl

theorem extends_perform (w : Workspace) (e : WorkspaceEvent) :
    w.registry.Extends (w.perform e).registry := by
  cases e with
  | write e => exact Registry.extends_write w.registry e
  | synthesize span parts => exact Registry.extends_synthesize w span parts
  | clear => exact .refl _

theorem run_append (w : Workspace) (earlier later : List WorkspaceEvent) :
    w.run (earlier ++ later) = (w.run earlier).run later := List.foldl_append

theorem config_run (w : Workspace) (events : List WorkspaceEvent) :
    (w.run events).config = w.config := by
  induction events generalizing w with
  | nil => rfl
  | cons e events ih =>
    show ((w.perform e).run events).config = w.config
    rw [ih, config_perform]

theorem extends_run (w : Workspace) (events : List WorkspaceEvent) :
    w.registry.Extends (w.run events).registry := by
  induction events generalizing w with
  | nil => exact .refl _
  | cons e events ih => exact (extends_perform w e).trans (ih (w.perform e))

/-- In the course of the events the list is asked for, and its conjunction is given. -/
def Gives (w : Workspace) (events : List WorkspaceEvent) (parts : List JudgmentId) : Prop :=
  ∃ earlier span later made, events = earlier ++ .synthesize span parts :: later ∧
    ((w.run earlier).synthesize span parts).2 = .ok made

theorem Gives.cons {w : Workspace} {events : List WorkspaceEvent} {parts : List JudgmentId}
    {e : WorkspaceEvent} (h : (w.perform e).Gives events parts) : w.Gives (e :: events) parts := by
  obtain ⟨earlier, span, later, made, rfl, hmade⟩ := h
  exact ⟨e :: earlier, span, later, made, rfl, hmade⟩

theorem synthesize_hit {w : Workspace} {parts : List JudgmentId} {judgment : JudgmentId}
    (h : w.cache.get? parts = some judgment) (span : Span) :
    w.synthesize span parts = (w, .ok ⟨judgment, [], false⟩) := by
  rw [synthesize, h]

/-- A request finds its list on record, or fails and leaves the record alone, or makes a new
conjunction. -/
theorem synthesize_outcome (w : Workspace) (span : Span) (parts : List JudgmentId) :
    (∃ judgment, w.cache.get? parts = some judgment ∧
      w.synthesize span parts = (w, .ok ⟨judgment, [], false⟩)) ∨
    (∃ e, (w.synthesize span parts).2 = .error e ∧
      (w.synthesize span parts).1.cache = w.cache) ∨
    (∃ w' made forms clauses, w.cache.get? parts = none ∧
      w.synthesize span parts = (w', .ok made) ∧ made.fresh = true ∧
      w.Makes span parts w' made forms clauses) := by
  cases hcache : w.cache.get? parts with
  | some judgment => exact .inl ⟨judgment, rfl, synthesize_hit hcache span⟩
  | none =>
    cases hforms : w.registry.componentForms [] parts with
    | error e => exact .inr (.inl (by simp [synthesize, hcache, hforms]))
    | ok forms =>
      rcases hreg : w.registry.register (w.registry.construct w.config span parts forms).1
        w.config.validate with ⟨registry, e | ⟨judgment, problems⟩⟩
      · exact .inr (.inl (by simp [synthesize, hcache, hforms, hreg]))
      · have hmade : ∃ w' made, w.synthesize span parts = (w', .ok made) ∧ made.fresh = true := by
          simp [synthesize, hcache, hforms, hreg]
        obtain ⟨w', made, heq, hfresh⟩ := hmade
        obtain ⟨forms, clauses, hmakes⟩ := makes_of_synthesize heq hfresh
        exact .inr (.inr ⟨w', made, forms, clauses, rfl, heq, hfresh, hmakes⟩)

section Makes

variable {w w' : Workspace} {span : Span} {parts : List JudgmentId} {made : Synthesis}
  {forms : List Form} {clauses : List Clause}

theorem Makes.get? (h : w.Makes span parts w' made forms clauses)
    (hnone : w.cache.get? parts = none) (other : List JudgmentId) :
    w'.cache.get? other = if other = parts then some made.judgment else w.cache.get? other := by
  rw [h.cache, Cache.get?_insert hnone]

theorem Makes.isSome_judgment? (h : w.Makes span parts w' made forms clauses) :
    (w'.registry.judgment? made.judgment).isSome := by
  rw [h.registry, h.judgment, Registry.judgment?_entered_new]
  rfl

theorem Makes.judgment?_eq_none (h : w.Makes span parts w' made forms clauses) :
    w.registry.judgment? made.judgment = none := by
  rw [h.judgment]
  exact List.getElem?_eq_none (Nat.le_refl _)

end Makes

/-- What is given is on record afterwards. It is new exactly when the list was not on record. -/
theorem get?_of_synthesize {w : Workspace} {span : Span} {parts : List JudgmentId}
    {made : Synthesis} (h : (w.synthesize span parts).2 = .ok made) :
    (w.synthesize span parts).1.cache.get? parts = some made.judgment ∧
      (made.fresh = true ↔ w.cache.get? parts = none) := by
  rcases w.synthesize_outcome span parts with ⟨judgment, hget, heq⟩ | ⟨e, he, _⟩ |
    ⟨w', made', _, _, hnone, heq, hfresh, hmakes⟩
  · rw [heq] at h
    cases h
    rw [heq]
    exact ⟨hget, by simp [hget]⟩
  · rw [he] at h
    cases h
  · rw [heq] at h
    cases h
    rw [heq]
    exact ⟨by rw [hmakes.get? hnone, if_pos rfl], by simp [hfresh, hnone]⟩

theorem get?_synthesize {w : Workspace} {other : List JudgmentId} {judgment : JudgmentId}
    (h : w.cache.get? other = some judgment) (span : Span) (parts : List JudgmentId) :
    (w.synthesize span parts).1.cache.get? other = some judgment := by
  rcases w.synthesize_outcome span parts with ⟨_, _, heq⟩ | ⟨_, _, hcache⟩ |
    ⟨w', _, _, _, hnone, heq, _, hmakes⟩
  · rw [heq, h]
  · rw [hcache, h]
  · have hne : other ≠ parts := by
      rintro rfl
      rw [hnone] at h
      cases h
    rw [heq, hmakes.get? hnone, if_neg hne, h]

theorem get?_perform {w : Workspace} {parts : List JudgmentId} {judgment : JudgmentId}
    (h : w.cache.get? parts = some judgment) {e : WorkspaceEvent} (he : e ≠ .clear) :
    (w.perform e).cache.get? parts = some judgment := by
  cases e with
  | write e => exact h
  | synthesize span others => exact get?_synthesize h span others
  | clear => exact absurd rfl he

/-- What is on record stays there until the record is cleared. -/
theorem get?_run {w : Workspace} {parts : List JudgmentId} {judgment : JudgmentId}
    (h : w.cache.get? parts = some judgment) {events : List WorkspaceEvent}
    (hevents : .clear ∉ events) : (w.run events).cache.get? parts = some judgment := by
  induction events generalizing w with
  | nil => exact h
  | cons e events ih =>
    rw [List.mem_cons, not_or] at hevents
    exact ih (get?_perform h (Ne.symm hevents.1)) hevents.2

/-- Nothing comes on record without having been given. -/
theorem gives_of_get?_run {w : Workspace} {parts : List JudgmentId} {judgment : JudgmentId}
    {events : List WorkspaceEvent} (h : (w.run events).cache.get? parts = some judgment) :
    w.cache.get? parts = some judgment ∨ w.Gives events parts := by
  induction events generalizing w with
  | nil => exact .inl h
  | cons e events ih =>
    rcases ih (w := w.perform e) h with h | h
    · cases e with
      | write e => exact .inl h
      | clear => cases h
      | synthesize span others =>
        rcases w.synthesize_outcome span others with ⟨_, _, heq⟩ | ⟨_, _, hcache⟩ |
          ⟨w', made, _, _, hnone, heq, _, hmakes⟩
        · rw [perform, heq] at h
          exact .inl h
        · rw [perform, hcache] at h
          exact .inl h
        · rw [perform, heq, hmakes.get? hnone] at h
          split at h
          · rename_i he
            subst he
            exact .inr ⟨[], span, events, made, rfl, by rw [run, List.foldl_nil, heq]⟩
          · exact .inl h
    · exact .inr h.cons

theorem exists_get?_of_gives {w : Workspace} {parts : List JudgmentId}
    {events : List WorkspaceEvent} (hevents : .clear ∉ events) (h : w.Gives events parts) :
    ∃ judgment, (w.run events).cache.get? parts = some judgment := by
  obtain ⟨earlier, span, later, made, rfl, hmade⟩ := h
  refine ⟨made.judgment, ?_⟩
  rw [run_append]
  have hlater : .clear ∉ later := fun hmem =>
    hevents (List.mem_append_right _ (List.mem_cons_of_mem _ hmem))
  exact get?_run (get?_of_synthesize hmade).1 hlater

/-! ## One conjunction for each list -/

/-- The conjunctions on record are judgments of the table, different ones for different lists. -/
structure Tracked (w : Workspace) : Prop where
  known : ∀ parts judgment, w.cache.get? parts = some judgment →
    (w.registry.judgment? judgment).isSome
  distinct : ∀ parts parts' judgment, w.cache.get? parts = some judgment →
    w.cache.get? parts' = some judgment → parts = parts'

variable {w w' : Workspace}

theorem Tracked.of_extends (h : w.Tracked) (hcache : w'.cache = w.cache)
    (he : w.registry.Extends w'.registry) : w'.Tracked where
  known parts judgment hget := he.isSome_judgment? (h.known parts judgment (hcache ▸ hget))
  distinct parts parts' judgment hget hget' :=
    h.distinct parts parts' judgment (hcache ▸ hget) (hcache ▸ hget')

theorem Tracked.synthesize (h : w.Tracked) (span : Span) (parts : List JudgmentId) :
    (w.synthesize span parts).1.Tracked := by
  have he := Registry.extends_synthesize w span parts
  rcases w.synthesize_outcome span parts with ⟨_, _, heq⟩ | ⟨_, _, hcache⟩ |
    ⟨w', made, _, _, hnone, heq, _, hmakes⟩
  · rw [heq]
    exact h
  · exact h.of_extends hcache he
  · rw [heq] at he ⊢
    have hnew : ∀ other, w.cache.get? other ≠ some made.judgment := by
      intro other hget
      have hknown := h.known other made.judgment hget
      rw [hmakes.judgment?_eq_none] at hknown
      cases hknown
    refine ⟨fun other judgment hget => ?_, fun other other' judgment hget hget' => ?_⟩
    · rw [hmakes.get? hnone] at hget
      split at hget
      · cases hget
        exact hmakes.isSome_judgment?
      · exact he.isSome_judgment? (h.known other judgment hget)
    · rw [hmakes.get? hnone] at hget hget'
      split at hget <;> split at hget'
      · rename_i he he'
        rw [he, he']
      · cases hget
        exact absurd hget' (hnew other')
      · cases hget'
        exact absurd hget (hnew other)
      · exact h.distinct other other' judgment hget hget'

/-- Nothing is on record at the start. -/
theorem tracked_new (registry : Registry) (config : Config) :
    ({ registry, config } : Workspace).Tracked where
  known _ _ hget := by cases hget
  distinct _ _ _ hget := by cases hget

theorem tracked_perform (h : w.Tracked) (e : WorkspaceEvent) : (w.perform e).Tracked := by
  cases e with
  | write e => exact h.of_extends rfl (w.registry.extends_write e)
  | synthesize span parts => exact h.synthesize span parts
  | clear => exact tracked_new w.registry w.config

theorem tracked_run (h : w.Tracked) (events : List WorkspaceEvent) : (w.run events).Tracked := by
  induction events generalizing w with
  | nil => exact h
  | cons e events ih => exact ih (tracked_perform h e)

/-- In a history in which the record is never cleared, a conjunction that is given is new exactly
when its list is asked for successfully for the first time. From then on, whatever is written
meanwhile, a request for the same list anywhere gives the same judgment again and changes nothing
and tells nothing, and no request for another list gives that judgment. -/
theorem synthesize_identity (registry : Registry) (config : Config) {before : List WorkspaceEvent}
    (hbefore : .clear ∉ before) {span : Span} {parts : List JudgmentId} {made : Synthesis}
    (h : ((run { registry, config } before).synthesize span parts).2 = .ok made) :
    (made.fresh = true ↔ ¬ Gives { registry, config } before parts) ∧
    ∀ between, .clear ∉ between → ∀ later,
      run { registry, config } (before ++ .synthesize span parts :: between) = later →
      (∀ span', later.synthesize span' parts = (later, .ok ⟨made.judgment, [], false⟩)) ∧
      ∀ span' parts' made', (later.synthesize span' parts').2 = .ok made' →
        (made'.judgment = made.judgment ↔ parts' = parts) := by
  obtain ⟨hget, hfresh⟩ := get?_of_synthesize h
  refine ⟨?_, fun between hbetween later hlater => ?_⟩
  · rw [hfresh]
    constructor
    · intro hnone hgives
      obtain ⟨judgment, hsome⟩ := exists_get?_of_gives hbefore hgives
      rw [hnone] at hsome
      cases hsome
    · intro hgives
      rw [Option.eq_none_iff_forall_ne_some]
      intro judgment hsome
      rcases gives_of_get?_run hsome with hsome | hgiven
      · cases hsome
      · exact hgives hgiven
  · have htracked : later.Tracked := hlater ▸ tracked_run (tracked_new registry config) _
    have hknown : later.cache.get? parts = some made.judgment := by
      rw [← hlater, run_append]
      exact get?_run hget hbetween
    refine ⟨fun span' => synthesize_hit hknown span', fun span' parts' made' h' => ?_⟩
    obtain ⟨hget', _⟩ := get?_of_synthesize h'
    constructor
    · intro he
      exact (htracked.synthesize span' parts').distinct parts' parts made.judgment (he ▸ hget')
        (get?_synthesize hknown span' parts')
    · rintro rfl
      rw [synthesize_hit hknown] at h'
      cases h'
      rfl

/-- A list asked for after a refused request and another order of the same components, and asked for
again after a write to a component and a conjunction of both conjunctions. -/
theorem synthesize_identity_sample : ∃ made later,
    ((run { registry := .sample } [.synthesize {} [⟨0⟩, ⟨1⟩], .synthesize {} [⟨0⟩, ⟨0⟩]]).synthesize
      {} [⟨1⟩, ⟨0⟩]).2 = .ok made ∧
    run { registry := .sample } [.synthesize {} [⟨0⟩, ⟨1⟩], .synthesize {} [⟨0⟩, ⟨0⟩],
      .synthesize {} [⟨1⟩, ⟨0⟩], .write (.assume ⟨1⟩ none), .synthesize {} [⟨3⟩, ⟨2⟩]] = later ∧
    later.synthesize (.point 7 1) [⟨1⟩, ⟨0⟩] = (later, .ok ⟨made.judgment, [], false⟩) ∧
    ∀ made', (later.synthesize {} [⟨0⟩, ⟨1⟩]).2 = .ok made' → made'.judgment ≠ made.judgment := by
  obtain ⟨made, h⟩ : ∃ made, ((run { registry := .sample }
      [.synthesize {} [⟨0⟩, ⟨1⟩], .synthesize {} [⟨0⟩, ⟨0⟩]]).synthesize {} [⟨1⟩, ⟨0⟩]).2 =
        .ok made := ⟨_, rfl⟩
  obtain ⟨_, hlater⟩ := synthesize_identity .sample {} (by simp) h
  obtain ⟨hsame, hother⟩ :=
    hlater [.write (.assume ⟨1⟩ none), .synthesize {} [⟨3⟩, ⟨2⟩]] (by simp) _ rfl
  refine ⟨made, _, h, rfl, hsame _, fun made' h' he => ?_⟩
  exact absurd ((hother {} _ made' h').mp he) (by decide)

end Workspace
end Inference
