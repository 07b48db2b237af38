import Inference.Proofs.Conjunction.Shape
import Inference.Proofs.Session.Store

/-!
# Inference.Proofs.Session.Independence

What went before leaves no trace in a conjunction. For judgments that a session started with, the
conjunction has the shape that the starting table alone gives it, whether it is made early or late,
after whatever other requests, and however often the session was set back. So any two runs give
conjunctions of one shape, or refuse with one error.

* `Workspace.Settled`: a judgment is what the conjunction of judgments of a table always is.
* `Requested.settled`: so is every conjunction on record.
* `synthesize_settled`: a request to a session after any run.
* `shape_run`: two runs compared.
-/

namespace Inference

/-- How many diagnostics are told when the conjunction of the judgments is made. -/
def Registry.reportCount (r : Registry) (config : Config) (parts : List JudgmentId) : Nat :=
  (r.agree parts {}).diagnostics.length +
    if config.validate then (r.conjoinedShape config {} parts).problemCount else 0

namespace Workspace

variable {base : Registry} {config : Config} {w w' : Workspace} {parts : List JudgmentId}
  {judgment : JudgmentId}

theorem Stores.agrees (h : Stores base w) (hr : base.Consistent)
    (hparts : ∀ part ∈ parts, (base.judgment? part).isSome) : base.Agrees w.registry parts := by
  have hjudgment : ∀ part ∈ parts, w.registry.judgment? part = base.judgment? part := by
    intro part hpart
    obtain ⟨j, hj⟩ := Option.isSome_iff_exists.mp (hparts part hpart)
    rw [hj]
    exact Registry.getElem?_of_prefix h.judgments hj
  refine ⟨h.categories, hjudgment, fun part hpart => ?_⟩
  obtain ⟨j, hj⟩ := Option.isSome_iff_exists.mp (hparts part hpart)
  have hproduction : ∀ id, j.production = some id →
      w.registry.production? id = base.production? id := by
    intro id hid
    obtain ⟨p, hp⟩ := Option.isSome_iff_exists.mp (hr.isSome_production? hj hid)
    rw [hp]
    exact Registry.getElem?_of_prefix h.productions hp
  rw [Registry.formOf?, Registry.formOf?, Registry.productionOf?, Registry.productionOf?,
    hjudgment part hpart, hj, Option.bind_some]
  cases hid : j.production with
  | none => rfl
  | some id => rw [Option.bind_some, Option.bind_some, hproduction id hid]

/-- The judgment is what the conjunction of the parts is over the given table. -/
structure Settled (base : Registry) (config : Config) (parts : List JudgmentId) (r : Registry)
    (judgment : JudgmentId) : Prop where
  shape : r.shape? judgment = some (base.conjoinedShape config {} parts)
  name : NumberedFrom (base.conjunctionName parts config.label) (r.judgmentText judgment)

theorem Settled.entered {r : Registry} (h : Settled base config parts r judgment)
    (hr : r.Consistent) {k : Construction} {clauses : List Clause}
    (hknown : (r.judgment? judgment).isSome) :
    Settled base config parts (r.entered k clauses) judgment where
  shape := Registry.shape?_entered hr h.shape
  name := by
    obtain ⟨j, hj⟩ := Option.isSome_iff_exists.mp hknown
    have hname := h.name
    rw [Registry.judgmentText, hj] at hname
    rw [Registry.judgmentText, Registry.judgment?_entered hj]
    exact hname

theorem Makes.settled {span : Span} {made : Synthesis} {forms : List Form} {clauses : List Clause}
    (h : w.Makes span parts w' made forms clauses) (hagrees : base.Agrees w.registry parts)
    (hconfig : w.config = config) : Settled base config parts w'.registry made.judgment where
  shape := by rw [h.shape?, hagrees.conjoinedShape w.config {} span, hconfig]
  name := by
    rw [← hconfig, ← hagrees.conjunctionName]
    exact h.judgmentText_numberedFrom

/-- Every conjunction of judgments of the given table that is on record is settled. -/
structure Settles (base : Registry) (config : Config) (w : Workspace) : Prop where
  stores : Stores base w
  same_config : w.config = config
  settled : ∀ parts judgment, w.cache.get? parts = some judgment →
    (∀ part ∈ parts, (base.judgment? part).isSome) →
    Settled base config parts w.registry judgment

theorem Settles.synthesize (hr : base.Consistent) (h : Settles base config w) (span : Span)
    (parts : List JudgmentId) : Settles base config (w.synthesize span parts).1 := by
  refine holds_synthesize h.stores.consistent h fun w' made forms clauses hnone hmakes => ?_
  refine ⟨h.stores.makes hnone hmakes, hmakes.config.trans h.same_config, ?_⟩
  intro other judgment hget hother
  rw [hmakes.get? hnone] at hget
  split at hget
  · rename_i he
    subst he
    cases hget
    exact hmakes.settled (h.stores.agrees hr hother) h.same_config
  · obtain ⟨j, hj, _⟩ := h.stores.conjunction hget
    rw [hmakes.registry]
    exact (h.settled other judgment hget hother).entered h.stores.consistent
      (Option.isSome_of_eq_some hj)

section Requested

variable (hr : base.Consistent) (h : Requested base config w)
include hr h

theorem Requested.settles : Settles base config w :=
  h.of_step ⟨stores_new hr config, rfl, fun _ _ hget => by cases hget⟩
    fun _ hw => hw.synthesize hr

theorem Requested.faithful : w.Faithful :=
  h.of_step (faithful_new hr config) fun _ hw => hw.synthesize

variable (hparts : ∀ part ∈ parts, (base.judgment? part).isSome)
include hparts

theorem Requested.synthesize_eq_error_iff (span : Span) (e : SynthesisError) :
    (w.synthesize span parts).2 = .error e ↔ base.componentForms [] parts = .error e := by
  rw [(h.faithful hr).synthesize_eq_error_iff,
    ((h.settles hr).stores.agrees hr hparts).componentForms]

theorem Requested.settled_of_synthesize {span : Span} {made : Synthesis}
    (hmade : w.synthesize span parts = (w', .ok made)) :
    Settled base config parts w'.registry made.judgment := by
  have hget := (get?_of_synthesize (congrArg Prod.snd hmade)).1
  have hsettles := (h.synthesize span parts).settles hr
  rw [hmade] at hget hsettles
  exact hsettles.settled parts made.judgment hget hparts

theorem Requested.diagnostics_length {span : Span} {made : Synthesis}
    (hmade : w.synthesize span parts = (w', .ok made)) (hsize : w.cache.size < w'.cache.size) :
    made.diagnostics.length = base.reportCount config parts := by
  have hagrees := (h.settles hr).stores.agrees hr hparts
  have hconfig := (h.settles hr).same_config
  have hfresh : made.fresh = true := by
    refine (get?_of_synthesize (congrArg Prod.snd hmade)).2.mpr ?_
    cases hget : w.cache.get? parts with
    | none => rfl
    | some judgment =>
      rw [synthesize_hit hget] at hmade
      cases hmade
      exact absurd hsize (Nat.lt_irrefl _)
  obtain ⟨forms, clauses, hmakes⟩ := makes_of_synthesize hmade hfresh
  rw [hmakes.diagnostics_length, hagrees.conjoinedShape w.config {} span, hagrees.agree,
    base.agree_movedTo parts {} span, Agreement.movedTo_diagnostics_length, hconfig,
    Registry.reportCount]

end Requested

end Workspace

namespace Session

open Workspace (Requested Settled)

/-! ## Requests to sessions -/

variable {registry : Registry} {config : Config} {t : Session} {parts : List JudgmentId}

section Settled

variable (hr : registry.Consistent) (h : Requested registry config t.workspace)
  (hparts : ∀ part ∈ parts, (registry.judgment? part).isSome) (span : Span)
include hr h hparts

/-- A session answers a request for judgments that it started with in the same way at all times. -/
theorem synthesize_settled :
    (∃ e, registry.componentForms [] parts = .error e ∧
      (t.synthesize span parts).2 = .error (.synthesis e)) ∨
    ∃ u j found, (∃ forms, registry.componentForms [] parts = .ok forms) ∧
      t.synthesize span parts = (u, .ok j) ∧ Settled registry config parts u.registry j ∧
      u.diagnostics = t.diagnostics ++ found ∧
      (t.conjunctionCount < u.conjunctionCount →
        found.length = registry.reportCount config parts) := by
  rcases hmade : t.workspace.synthesize span parts with ⟨w, e | made⟩
  · refine .inl ⟨e, ?_, by rw [synthesize, hmade]⟩
    rw [← h.synthesize_eq_error_iff hr hparts span, hmade]
  · have hok : ∃ forms, registry.componentForms [] parts = .ok forms := by
      cases hforms : registry.componentForms [] parts with
      | ok forms => exact ⟨forms, rfl⟩
      | error e =>
        rw [← h.synthesize_eq_error_iff hr hparts span, hmade] at hforms
        cases hforms
    refine .inr ⟨_, made.judgment, made.diagnostics, hok, by rw [synthesize, hmade], ?_, rfl, ?_⟩
    · exact h.settled_of_synthesize hr hparts hmade
    · exact h.diagnostics_length hr hparts hmade

end Settled

/-- Two sessions over one table are asked for all manner of things, and then both for the
conjunction of judgments they started with. Both refuse with the same error, or both conjunctions
have the same shape: the same components, form and assumption and the same rule, with equal premises
over equal productions and an equal conclusion. Their names are equal but for a number at the end.
If neither was made before, equally many diagnostics are told. -/
theorem shape_run (hr : registry.Reachable) (hconfig : config.check = .ok ())
    (hparts : ∀ part ∈ parts, (registry.judgment? part).isSome) (id id' : Nat) :
    ∃ s s', Session.start id registry config = .ok s ∧
      Session.start id' registry config = .ok s' ∧
      ∀ requests requests' t t', s.run requests = t → s'.run requests' = t' → ∀ span span',
      (∃ e, (t.synthesize span parts).2 = .error e ∧ (t'.synthesize span' parts).2 = .error e) ∨
      ∃ u u' j j' found found' shape,
        t.synthesize span parts = (u, .ok j) ∧ t'.synthesize span' parts = (u', .ok j') ∧
        u.registry.shape? j = some shape ∧ u'.registry.shape? j' = some shape ∧
        shape.origin = .conjunction parts ∧
        NumberedFrom (registry.conjunctionName parts config.label) (u.registry.judgmentText j) ∧
        NumberedFrom (registry.conjunctionName parts config.label) (u'.registry.judgmentText j') ∧
        u.diagnostics = t.diagnostics ++ found ∧ u'.diagnostics = t'.diagnostics ++ found' ∧
        (t.conjunctionCount < u.conjunctionCount → t'.conjunctionCount < u'.conjunctionCount →
          found.length = found'.length) := by
  obtain ⟨s, hs⟩ := exists_start hconfig id registry
  obtain ⟨s', hs'⟩ := exists_start hconfig id' registry
  refine ⟨s, s', hs, hs', ?_⟩
  rintro requests requests' _ _ rfl rfl span span'
  have h := synthesize_settled hr.consistent (requested_run hs requests) hparts span
  have h' := synthesize_settled hr.consistent (requested_run hs' requests') hparts span'
  rcases h with ⟨e, he, hrefused⟩ | ⟨u, j, found, ⟨forms, hok⟩, hmade, hj, hfound, hcount⟩
  · rcases h' with ⟨e', he', hrefused'⟩ | ⟨_, _, _, ⟨forms, hok⟩, _⟩
    · cases he.symm.trans he'
      exact .inl ⟨.synthesis e, hrefused, hrefused'⟩
    · cases he.symm.trans hok
  · rcases h' with ⟨e, he, _⟩ | ⟨u', j', found', _, hmade', hj', hfound', hcount'⟩
    · cases hok.symm.trans he
    · exact .inr ⟨u, u', j, j', found, found', _, hmade, hmade', hj.shape, hj'.shape, rfl, hj.name,
        hj'.name, hfound, hfound', fun hnew hnew' => (hcount hnew).trans (hcount' hnew').symm⟩

/-- The conjunction is made late in one run, after the session was set back, and early in the
other. -/
theorem shape_run_sample : ∃ s s' t t' u u' shape,
    Session.start 1 .sample {} = .ok s ∧ Session.start 2 .sample {} = .ok s' ∧
    s.run [.synthesize {} [⟨0⟩], .reset, .synthesize {} [⟨1⟩]] = t ∧
    s'.run [.synthesize {} [⟨0⟩, ⟨1⟩], .synthesize {} [⟨0⟩, ⟨0⟩], .takeDiagnostics] = t' ∧
    t.synthesize {} [⟨0⟩, ⟨1⟩] = (u, .ok ⟨4⟩) ∧
    t'.synthesize (.point 7 1) [⟨0⟩, ⟨1⟩] = (u', .ok ⟨3⟩) ∧
    u.registry.shape? ⟨4⟩ = some shape ∧ u'.registry.shape? ⟨3⟩ = some shape := by
  have hconfig : ({} : Config).check = .ok () := rfl
  have hparts : ∀ part ∈ ([⟨0⟩, ⟨1⟩] : List JudgmentId),
      (Registry.sample.judgment? part).isSome := by
    decide
  obtain ⟨s, s', hs, hs', hrun⟩ := shape_run Registry.sample_reachable hconfig hparts 1 2
  have h : ((s.run [.synthesize {} [⟨0⟩], .reset, .synthesize {} [⟨1⟩]]).synthesize {}
      [⟨0⟩, ⟨1⟩]).2 = .ok ⟨4⟩ := by
    cases hs
    decide +kernel
  have h' : ((s'.run [.synthesize {} [⟨0⟩, ⟨1⟩], .synthesize {} [⟨0⟩, ⟨0⟩],
      .takeDiagnostics]).synthesize (.point 7 1) [⟨0⟩, ⟨1⟩]).2 = .ok ⟨3⟩ := by
    cases hs'
    decide +kernel
  rcases hrun _ _ _ _ rfl rfl {} (.point 7 1) with ⟨e, he, _⟩ |
    ⟨u, u', j, j', _, _, shape, hmade, hmade', hshape, hshape', _⟩
  · cases h.symm.trans he
  · rw [hmade] at h
    rw [hmade'] at h'
    cases h
    cases h'
    exact ⟨s, s', _, _, u, u', shape, hs, hs', rfl, rfl, hmade, hmade', hshape, hshape'⟩

end Session
end Inference
