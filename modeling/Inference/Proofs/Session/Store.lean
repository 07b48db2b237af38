import Inference.Proofs.Conjunction.Faithful
import Inference.Proofs.Registry.Lookup
import Inference.Proofs.Session.Reset

/-!
# Inference.Proofs.Session.Store

What a session has written. Its workspace is that of a list of requests for conjunctions, those made
since it was last set back. Each of them that makes a conjunction adds one judgment, one production
and one rule to the table and one entry to the record, and nothing else is ever written.

* `Workspace.Requested`: the workspaces that requests alone lead to; `Session.requested_run`, for
  every session.
* `Workspace.Stores`: the table is the given one with the conjunctions on record after it;
  `Requested.stores`, after any requests.
* `store_run`: what this says of a session.
-/

namespace Inference

namespace Cache

variable {c : Cache}

theorem entries_insert {parts : List JudgmentId} (h : c.get? parts = none)
    (judgment : JudgmentId) :
    (c.insert parts judgment).1.entries = c.entries ++ [(parts, judgment)] := by
  rw [insert, h]

theorem get?_eq_none_iff {parts : List JudgmentId} :
    c.get? parts = none ↔ parts ∉ c.entries.map (·.1) := by
  rw [get?, Option.map_eq_none_iff, List.find?_eq_none, List.mem_map]
  constructor
  · rintro h ⟨entry, hmem, rfl⟩
    exact h entry hmem (beq_self_eq_true entry.1)
  · intro h entry hmem hkey
    exact h ⟨entry, hmem, eq_of_beq hkey⟩

theorem get?_eq_some_iff (h : (c.entries.map (·.1)).Nodup) {parts : List JudgmentId}
    {judgment : JudgmentId} :
    c.get? parts = some judgment ↔ (parts, judgment) ∈ c.entries := by
  constructor
  · intro hget
    obtain ⟨entry, hfind, rfl⟩ := Option.map_eq_some_iff.mp hget
    have hkey : entry.1 = parts := by simpa using List.find?_some hfind
    exact hkey ▸ List.mem_of_find?_eq_some hfind
  · intro hmem
    cases hget : c.get? parts with
    | none => exact absurd (List.mem_map_of_mem hmem) (get?_eq_none_iff.mp hget)
    | some other =>
      obtain ⟨entry, hfind, rfl⟩ := Option.map_eq_some_iff.mp hget
      have hkey : entry.1 = parts := by simpa using List.find?_some hfind
      rw [List.inj_on_of_nodup_map h (List.mem_of_find?_eq_some hfind) hmem hkey]

end Cache

namespace Workspace

/-- The workspace comes about from a table and a configuration by requests for conjunctions. -/
def Requested (registry : Registry) (config : Config) (w : Workspace) : Prop :=
  ∃ requests : List (Span × List JudgmentId),
    run { registry, config } (requests.map requestEvent) = w

section Requested

variable {registry : Registry} {config : Config} {w : Workspace}

theorem requested_new (registry : Registry) (config : Config) :
    Requested registry config { registry, config } := ⟨[], rfl⟩

theorem Requested.synthesize (h : Requested registry config w) (span : Span)
    (parts : List JudgmentId) : Requested registry config (w.synthesize span parts).1 := by
  obtain ⟨requests, rfl⟩ := h
  refine ⟨requests ++ [(span, parts)], ?_⟩
  rw [List.map_append, run_append]
  rfl

/-- What holds at the start and is kept by each request holds after any number of them. -/
theorem Requested.of_step {P : Workspace → Prop} (h : Requested registry config w)
    (hnew : P { registry, config })
    (hstep : ∀ w, P w → ∀ span parts, P (w.synthesize span parts).1) : P w := by
  obtain ⟨requests, rfl⟩ := h
  generalize ({ registry, config } : Workspace) = start at hnew
  induction requests generalizing start with
  | nil => exact hnew
  | cons request requests ih => exact ih _ (hstep start hnew request.1 request.2)

end Requested

/-- The table has the entries of the given one and after them those of the conjunctions on record,
in the order of the record. -/
structure Stores (base : Registry) (w : Workspace) : Prop where
  consistent : w.registry.Consistent
  categories : w.registry.categories = base.categories
  judgments : base.judgments <+: w.registry.judgments
  productions : base.productions <+: w.registry.productions
  rules : base.rules <+: w.registry.rules
  entries : w.cache.entries =
    (w.registry.judgments.drop base.judgments.length).map fun j => (j.components, j.id)
  lists : (w.cache.entries.map (·.1)).Nodup
  conjunctions : ∀ j ∈ w.registry.judgments.drop base.judgments.length,
    j.origin = .conjunction j.components ∧ j.components.Nodup ∧
      ∀ part ∈ j.components, part.index < j.id.index
  productions_length : w.registry.productions.length = base.productions.length + w.cache.size
  rules_length : w.registry.rules.length = base.rules.length + w.cache.size

section Stores

variable {base : Registry} {w w' : Workspace}

theorem Stores.judgments_length (h : Stores base w) :
    w.registry.judgments.length = base.judgments.length + w.cache.size := by
  have hlen := congrArg List.length h.entries
  have hle := h.judgments.length_le
  rw [List.length_map, List.length_drop] at hlen
  rw [Cache.size]
  omega

theorem stores_new (hr : base.Consistent) (config : Config) :
    Stores base { registry := base, config } where
  consistent := hr
  categories := rfl
  judgments := List.prefix_refl _
  productions := List.prefix_refl _
  rules := List.prefix_refl _
  entries := by simp
  lists := .nil
  conjunctions := by simp
  productions_length := rfl
  rules_length := rfl

theorem Makes.index_lt {span : Span} {parts : List JudgmentId} {made : Synthesis}
    {forms : List Form} {clauses : List Clause} (h : w.Makes span parts w' made forms clauses)
    {part : JudgmentId} (hpart : part ∈ parts) : part.index < made.judgment.index := by
  obtain ⟨i, hi, rfl⟩ := List.mem_iff_getElem.mp hpart
  have hform := h.components.get hi (h.components.length_eq ▸ hi)
  rw [h.judgment]
  exact of_decide_eq_true (Registry.hasJudgment_of_formOf? hform)

theorem Stores.makes (h : Stores base w) {span : Span} {parts : List JudgmentId}
    {made : Synthesis} {forms : List Form} {clauses : List Clause}
    (hnone : w.cache.get? parts = none) (hmakes : w.Makes span parts w' made forms clauses) :
    Stores base w' := by
  let new := w.registry.enteredJudgment (w.construction span parts forms)
  have hid : new.id = made.judgment := hmakes.judgment.symm
  have hdrop : w'.registry.judgments.drop base.judgments.length =
      w.registry.judgments.drop base.judgments.length ++ [new] := by
    rw [hmakes.registry]
    exact List.drop_append_of_le_length h.judgments.length_le
  have hentries : w'.cache.entries = w.cache.entries ++ [(parts, made.judgment)] := by
    rw [hmakes.cache, Cache.entries_insert hnone]
  have hsize : w'.cache.size = w.cache.size + 1 := by
    rw [Cache.size, hentries, List.length_append]
    rfl
  exact {
    consistent := Registry.consistent_of_steps h.consistent hmakes.steps
    categories := by
      rw [hmakes.registry]
      exact h.categories
    judgments := by
      rw [hmakes.registry]
      exact h.judgments.trans (List.prefix_append _ _)
    productions := by
      rw [hmakes.registry]
      exact h.productions.trans (List.prefix_append _ _)
    rules := by
      rw [hmakes.registry]
      exact h.rules.trans (List.prefix_append _ _)
    entries := by
      have hcomponents : new.components = parts := rfl
      rw [hentries, hdrop, List.map_append, ← h.entries, List.map_singleton, hcomponents, hid]
    lists := by
      rw [hentries, List.map_append]
      exact List.concat_eq_append ▸ List.Nodup.concat (Cache.get?_eq_none_iff.mp hnone) h.lists
    conjunctions := by
      rw [hdrop, List.forall_mem_append, List.forall_mem_singleton]
      refine ⟨h.conjunctions, rfl, hmakes.nodup, fun part hpart => ?_⟩
      rw [hid]
      exact hmakes.index_lt hpart
    productions_length := by
      rw [hsize, hmakes.registry, Registry.entered, List.length_append, h.productions_length,
        Nat.add_assoc, List.length_singleton]
    rules_length := by
      rw [hsize, hmakes.registry, Registry.entered, List.length_append, h.rules_length,
        Nat.add_assoc, List.length_singleton] }

theorem Stores.synthesize (h : Stores base w) (span : Span) (parts : List JudgmentId) :
    Stores base (w.synthesize span parts).1 :=
  holds_synthesize h.consistent h fun _ _ _ _ hnone hmakes => h.makes hnone hmakes

theorem Requested.stores {config : Config} (hr : base.Consistent) (h : Requested base config w) :
    Stores base w :=
  h.of_step (stores_new hr config) fun _ hw => hw.synthesize

theorem Stores.mem_drop_iff (h : Stores base w) {j : Judgment} :
    j ∈ w.registry.judgments.drop base.judgments.length ↔
      base.judgment? j.id = none ∧ w.registry.judgment? j.id = some j := by
  have hbeyond : base.judgment? j.id = none ↔ base.judgments.length ≤ j.id.index :=
    List.getElem?_eq_none_iff
  rw [hbeyond, List.mem_iff_getElem?]
  simp only [List.getElem?_drop]
  constructor
  · rintro ⟨i, hi⟩
    have hid : j.id = ⟨base.judgments.length + i⟩ := h.consistent.judgment?_id hi
    rw [hid]
    exact ⟨Nat.le_add_right _ _, hi⟩
  · rintro ⟨hle, hj⟩
    refine ⟨j.id.index - base.judgments.length, ?_⟩
    rw [Nat.add_sub_cancel' hle]
    exact hj

/-- A judgment is on record for a list exactly when it is beyond the given table and the list is
that of its components. -/
theorem Stores.get?_eq_some_iff (h : Stores base w) {parts : List JudgmentId}
    {judgment : JudgmentId} :
    w.cache.get? parts = some judgment ↔ base.judgment? judgment = none ∧
      ∃ j, w.registry.judgment? judgment = some j ∧ j.components = parts := by
  rw [Cache.get?_eq_some_iff h.lists, h.entries, List.mem_map]
  constructor
  · rintro ⟨j, hj, he⟩
    cases he
    obtain ⟨hnone, hj⟩ := h.mem_drop_iff.mp hj
    exact ⟨hnone, j, hj, rfl⟩
  · rintro ⟨hnone, j, hj, rfl⟩
    cases h.consistent.judgment?_id hj
    exact ⟨j, h.mem_drop_iff.mpr ⟨hnone, hj⟩, rfl⟩

theorem Stores.conjunction (h : Stores base w) {parts : List JudgmentId} {judgment : JudgmentId}
    (hget : w.cache.get? parts = some judgment) :
    ∃ j, w.registry.judgment? judgment = some j ∧ j.origin = .conjunction parts ∧
      parts.Nodup ∧ ∀ part ∈ parts, part.index < judgment.index := by
  obtain ⟨hnone, j, hj, rfl⟩ := h.get?_eq_some_iff.mp hget
  cases h.consistent.judgment?_id hj
  exact ⟨j, hj, h.conjunctions j (h.mem_drop_iff.mpr ⟨hnone, hj⟩)⟩

theorem Stores.existsUnique_get? (h : Stores base w) {judgment : JudgmentId}
    (hnone : base.judgment? judgment = none) (hsome : (w.registry.judgment? judgment).isSome) :
    ∃! parts, w.cache.get? parts = some judgment := by
  obtain ⟨j, hj⟩ := Option.isSome_iff_exists.mp hsome
  refine ⟨j.components, h.get?_eq_some_iff.mpr ⟨hnone, j, hj, rfl⟩, fun parts hget => ?_⟩
  obtain ⟨_, j', hj', rfl⟩ := h.get?_eq_some_iff.mp hget
  cases hj.symm.trans hj'
  rfl

/-- Taking conjunctions apart comes to an end. -/
theorem Stores.wellFounded (h : Stores base w) : WellFounded fun part judgment =>
    ∃ parts, w.cache.get? parts = some judgment ∧ part ∈ parts := by
  refine Subrelation.wf ?_ (InvImage.wf Handle.index Nat.lt_wfRel.wf)
  rintro part judgment ⟨parts, hget, hpart⟩
  obtain ⟨_, _, _, _, hlt⟩ := h.conjunction hget
  exact hlt part hpart

end Stores

end Workspace

namespace Session

/-! ## The workspace of a session -/

open Workspace (Requested requested_new)

variable {id : Nat} {registry : Registry} {config : Config} {s : Session}

theorem workspace_synthesize (s : Session) (span : Span) (parts : List JudgmentId) :
    (s.synthesize span parts).1.workspace = (s.workspace.synthesize span parts).1 := by
  rw [synthesize]
  split
  · rename_i h; rw [h]
  · rename_i h; rw [h]

theorem workspace_seed (s : Session) :
    s.seed.1.workspace = (s.workspace.synthesize {} []).1 := by
  rw [seed, Workspace.seedTrivial]
  split
  · rename_i h; rw [h]
  · rename_i h; rw [h]

theorem requested_perform (horigin : s.origin = unseeded id registry config)
    (h : Requested registry config s.workspace) (request : SessionRequest) :
    Requested registry config (s.perform request).workspace := by
  cases request with
  | synthesize span parts =>
    rw [perform, workspace_synthesize]
    exact h.synthesize span parts
  | synthesizeNamed span names =>
    rw [perform, synthesizeNamed]
    split
    · exact h
    · rename_i parts _
      rw [workspace_synthesize]
      exact h.synthesize span parts
  | takeDiagnostics => exact h
  | checkDeclarations => exact h
  | reset =>
    have hback : { s.workspace.clear with registry := s.baseline } =
        ({ registry, config } : Workspace) := congrArg Session.workspace horigin
    rw [perform, reset, workspace_seed, hback]
    exact (requested_new registry config).synthesize {} []

theorem requested_run (hs : Session.start id registry config = .ok s)
    (requests : List SessionRequest) : Requested registry config (s.run requests).workspace := by
  obtain ⟨_, hseed⟩ := start_eq_ok_iff.mp hs
  have horigin := origin_of_start hs
  have hnew : Requested registry config s.workspace := by
    have hworkspace := workspace_seed (unseeded id registry config)
    rw [hseed] at hworkspace
    rw [hworkspace]
    exact (requested_new registry config).synthesize {} []
  clear hs hseed
  induction requests generalizing s with
  | nil => exact hnew
  | cons request requests ih =>
    exact ih ((s.origin_perform request).trans horigin) (requested_perform horigin hnew request)

theorem exists_start (hconfig : config.check = .ok ()) (id : Nat) (registry : Registry) :
    ∃ s, Session.start id registry config = .ok s := by
  obtain ⟨s, hseed⟩ := exists_seed_unseeded id registry config
  exact ⟨s, start_eq_ok_iff.mpr ⟨hconfig, hseed⟩⟩

theorem exists_makes_start (hr : registry.Consistent)
    (hs : Session.start id registry config = .ok s) :
    ∃ made forms clauses,
      ({ registry, config } : Workspace).Makes {} [] s.workspace made forms clauses ∧
      s.diagnostics = made.diagnostics := by
  obtain ⟨_, hseed⟩ := start_eq_ok_iff.mp hs
  rcases Workspace.synthesize_cases (w := (unseeded id registry config).workspace) hr {} [] with
    ⟨_, hget, _⟩ | ⟨_, _, hforms, _⟩ | ⟨w', made, forms, clauses, _, _, heq, _, hmakes⟩
  · cases hget
  · cases hforms
  · rw [seed, Workspace.seedTrivial, heq] at hseed
    cases hseed
    exact ⟨made, forms, clauses, hmakes, List.nil_append _⟩

/-- What a session has written at any time. The declarations it started with stand at their handles
as they were. The judgments beyond them are the conjunctions on record, each for one list only. Each
is the conjunction of its list, in which no judgment is repeated and all are older than it, so that
taking conjunctions apart comes to an end. As many judgments, productions and rules were added as
conjunctions are counted. -/
theorem store_run (hr : registry.Reachable) (hconfig : config.check = .ok ()) (id : Nat) :
    ∃ s, Session.start id registry config = .ok s ∧ ∀ requests t, s.run requests = t →
      (registry.categories <+: t.registry.categories ∧
        registry.judgments <+: t.registry.judgments ∧
        registry.productions <+: t.registry.productions ∧
        registry.rules <+: t.registry.rules) ∧
      (∀ parts judgment, t.workspace.cache.get? parts = some judgment →
        registry.judgment? judgment = none ∧
        ∃ j, t.registry.judgment? judgment = some j ∧ j.origin = .conjunction parts ∧
          parts.Nodup ∧ ∀ part ∈ parts, part.index < judgment.index) ∧
      (∀ judgment, registry.judgment? judgment = none → (t.registry.judgment? judgment).isSome →
        ∃! parts, t.workspace.cache.get? parts = some judgment) ∧
      (WellFounded fun part judgment =>
        ∃ parts, t.workspace.cache.get? parts = some judgment ∧ part ∈ parts) ∧
      t.registry.judgments.length = registry.judgments.length + t.conjunctionCount ∧
      t.registry.productions.length = registry.productions.length + t.conjunctionCount ∧
      t.registry.rules.length = registry.rules.length + t.conjunctionCount := by
  obtain ⟨s, hs⟩ := exists_start hconfig id registry
  refine ⟨s, hs, ?_⟩
  rintro requests _ rfl
  have h := (requested_run hs requests).stores hr.consistent
  refine ⟨⟨h.categories ▸ List.prefix_refl _, h.judgments, h.productions, h.rules⟩,
    fun parts judgment hget => ⟨(h.get?_eq_some_iff.mp hget).1, h.conjunction hget⟩,
    fun judgment => h.existsUnique_get?, h.wellFounded, h.judgments_length, h.productions_length,
    h.rules_length⟩

/-- A run with a conjunction of conjunctions, one that is on record already, two that fail and one
that is forgotten when the session is set back. -/
theorem store_run_sample : ∃ s, Session.start 1 .sample {} = .ok s ∧ ∃ t,
    s.run [.synthesize {} [⟨1⟩], .reset, .synthesize {} [⟨0⟩, ⟨1⟩], .synthesize {} [⟨0⟩, ⟨0⟩],
      .synthesizeNamed {} ["typing", "absent"], .synthesize {} [⟨0⟩, ⟨1⟩],
      .synthesize {} [⟨3⟩, ⟨2⟩, ⟨0⟩]] = t ∧
    t.conjunctionCount = 3 ∧ t.registry.judgments.length = 5 ∧
    ∃! parts, t.workspace.cache.get? parts = some ⟨4⟩ := by
  have hconfig : ({} : Config).check = .ok () := rfl
  obtain ⟨s, hs, hrun⟩ := store_run Registry.sample_reachable hconfig 1
  refine ⟨s, hs, _, rfl, ?_⟩
  obtain ⟨_, _, hunique, _⟩ := hrun _ _ rfl
  cases hs
  exact ⟨by decide +kernel, by decide +kernel, hunique ⟨4⟩ (by decide) (by decide +kernel)⟩

end Session
end Inference
