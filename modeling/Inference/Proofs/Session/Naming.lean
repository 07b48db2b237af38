import Inference.Proofs.Conjunction.Refusal
import Inference.Proofs.Registry.Persistence
import Inference.Proofs.Session.Store

/-!
# Inference.Proofs.Session.Naming

A session is asked for conjunctions by the names of the components. What it has on record can then
be read as a table from lists of names to judgments: a request that is accepted adds its own list
with the judgment it gave, unless the list was there, and nothing else changes in the table.

* `Registry.Resolves`: what a list of names stands for; names keep what they stand for.
* `Session.OnRecord`: the conjunction of the judgments of these names is on record.
* `onRecord_synthesizeNamed`: the record after a request that is accepted;
  `conjunctionCount_lt_iff`: whether it made the conjunction.
* `OnRecord.judgment_eq_iff`: different lists have different conjunctions.
-/

namespace Inference

namespace Registry

/-- The names are those of the judgments, one for each. -/
def Resolves (r : Registry) (names : List String) (parts : List JudgmentId) : Prop :=
  List.Forall₂ (fun name part => r.judgmentId? name = some part) names parts

variable {r r' : Registry} {names names' : List String} {parts parts' : List JudgmentId}

theorem Resolves.parts_unique (h : r.Resolves names parts) (h' : r.Resolves names parts') :
    parts = parts' := by
  induction h generalizing parts' with
  | nil =>
    cases h'
    rfl
  | cons hname _ ih =>
    cases h' with
    | cons hname' hrest' => rw [Option.some.inj (hname.symm.trans hname'), ih hrest']

theorem Consistent.names_unique (hr : r.Consistent) (h : r.Resolves names parts)
    (h' : r.Resolves names' parts) : names = names' := by
  induction h generalizing names' with
  | nil =>
    cases h'
    rfl
  | cons hname _ ih =>
    cases h' with
    | cons hname' hrest' =>
      have hsame := (hr.judgmentId?_eq_some_iff.mp hname).symm.trans
        (hr.judgmentId?_eq_some_iff.mp hname')
      rw [Option.some.inj hsame, ih hrest']

theorem Extends.resolves (h : r.Extends r') (hr : r.Consistent) (hr' : r'.Consistent)
    (hnames : r.Resolves names parts) : r'.Resolves names parts :=
  hnames.imp fun _ _ => h.judgmentId? hr hr'

theorem Extends.resolves_of_known (h : r.Extends r') (hr : r.Consistent) (hr' : r'.Consistent)
    (hknown : ∀ part ∈ parts, (r.judgment? part).isSome) (hnames : r'.Resolves names parts) :
    r.Resolves names parts := by
  induction hnames with
  | nil => exact .nil
  | cons hname _ ih =>
    rw [List.forall_mem_cons] at hknown
    exact .cons ((h.judgmentId?_eq_some_iff hr hr' hknown.1).mp hname) (ih hknown.2)

end Registry

namespace Session

/-- The conjunction of the judgments of these names, in this order, is on record. -/
def OnRecord (s : Session) (names : List String) (judgment : JudgmentId) : Prop :=
  ∃ parts, s.registry.Resolves names parts ∧ s.workspace.cache.get? parts = some judgment

theorem resolve_eq_ok_iff {s : Session} {names : List String} {parts : List JudgmentId} :
    s.resolve names = .ok parts ↔ s.registry.Resolves names parts := by
  induction names generalizing parts with
  | nil => simp [resolve, Registry.Resolves, eq_comm]
  | cons name names ih =>
    rw [resolve]
    constructor
    · intro h
      split at h
      · cases h
      rename_i part hpart
      split at h
      · cases h
      rename_i rest hrest
      cases h
      exact .cons hpart (ih.mp hrest)
    · intro h
      cases h with
      | cons hpart hrest =>
        rw [hpart, ih.mpr hrest]

theorem OnRecord.judgment_unique {s : Session} {names : List String} {j j' : JudgmentId}
    (h : s.OnRecord names j) (h' : s.OnRecord names j') : j = j' := by
  obtain ⟨parts, hnames, hget⟩ := h
  obtain ⟨parts', hnames', hget'⟩ := h'
  cases hnames.parts_unique hnames'
  exact Option.some.inj (hget.symm.trans hget')

theorem synthesizeNamed_eq_ok {s : Session} {span : Span} {names : List String}
    {judgment : JudgmentId} (h : (s.synthesizeNamed span names).2 = .ok judgment) :
    ∃ parts made, s.registry.Resolves names parts ∧
      (s.workspace.synthesize span parts).2 = .ok made ∧ made.judgment = judgment ∧
      (s.synthesizeNamed span names).1.workspace = (s.workspace.synthesize span parts).1 := by
  rw [synthesizeNamed] at h ⊢
  split at h
  · cases h
  rename_i parts hparts
  rw [workspace_synthesize]
  rw [synthesize] at h
  split at h
  · cases h
  · rename_i made hmade
    cases h
    exact ⟨parts, made, resolve_eq_ok_iff.mp hparts, by rw [hmade], rfl, rfl⟩

section Faithful

variable {s : Session} (hs : s.workspace.Faithful)
include hs

theorem synthesizeNamed_of_error {span : Span} {names : List String} {e : SessionError}
    (h : (s.synthesizeNamed span names).2 = .error e) : (s.synthesizeNamed span names).1 = s := by
  rw [synthesizeNamed] at h ⊢
  split at h
  · rfl
  rename_i parts _
  rw [synthesize] at h ⊢
  split at h
  · rename_i workspace _ hrefused
    have hsame : (s.workspace.synthesize span parts).1 = s.workspace :=
      hs.synthesize_of_error (congrArg Prod.snd hrefused)
    rw [hrefused] at hsame
    cases hsame
    rfl
  · cases h

theorem OnRecord.judgment_eq_iff {names names' : List String} {j j' : JudgmentId}
    (h : s.OnRecord names j) (h' : s.OnRecord names' j') : j = j' ↔ names = names' := by
  constructor
  · rintro rfl
    obtain ⟨parts, hnames, hget⟩ := h
    obtain ⟨parts', hnames', hget'⟩ := h'
    cases hs.tracked.distinct parts parts' j hget hget'
    exact hs.consistent.names_unique hnames hnames'
  · rintro rfl
    exact h.judgment_unique h'

theorem isSome_judgment?_of_get? {parts : List JudgmentId} {judgment : JudgmentId}
    (hget : s.workspace.cache.get? parts = some judgment) :
    ∀ part ∈ parts, (s.registry.judgment? part).isSome := by
  obtain ⟨forms, _, hconjoins⟩ := hs.conjoined parts judgment hget
  intro part hpart
  have hform := Registry.exists_forms_iff.mp ⟨forms, hconjoins.components⟩ part hpart
  obtain ⟨form, hform⟩ := Option.isSome_iff_exists.mp hform
  exact Registry.hasJudgment_iff.mp (Registry.hasJudgment_of_formOf? hform)

variable {span : Span} {names : List String} {judgment : JudgmentId}
  (h : (s.synthesizeNamed span names).2 = .ok judgment)
include h

/-- A request that is accepted adds its list to the record, and nothing else. -/
theorem onRecord_synthesizeNamed (other : List String) (j : JudgmentId) :
    (s.synthesizeNamed span names).1.OnRecord other j ↔
      s.OnRecord other j ∨ other = names ∧ j = judgment := by
  obtain ⟨parts, made, hnames, hmade, rfl, hworkspace⟩ := synthesizeNamed_eq_ok h
  have hr := hs.consistent
  have hr' := (hs.synthesize span parts).consistent
  have hextends := Registry.extends_synthesize s.workspace span parts
  have hget := (Workspace.get?_of_synthesize hmade).1
  rw [OnRecord, registry, hworkspace]
  constructor
  · rintro ⟨others, hothers, hfound⟩
    rcases s.workspace.synthesize_outcome span parts with ⟨_, _, heq⟩ | ⟨e, he, _⟩ |
      ⟨w', made', _, _, hnone, heq, _, hmakes⟩
    · rw [heq] at hothers hfound
      exact .inl ⟨others, hothers, hfound⟩
    · rw [he] at hmade
      cases hmade
    · by_cases hsame : others = parts
      · subst hsame
        have hothers' := hextends.resolves hr hr' hnames
        exact .inr ⟨hr'.names_unique hothers hothers', Option.some.inj (hfound.symm.trans hget)⟩
      · rw [heq, hmakes.get? hnone, if_neg hsame] at hfound
        have hknown := isSome_judgment?_of_get? hs hfound
        exact .inl ⟨others, hextends.resolves_of_known hr hr' hknown hothers, hfound⟩
  · rintro (⟨others, hothers, hfound⟩ | ⟨rfl, rfl⟩)
    · exact ⟨others, hextends.resolves hr hr' hothers, Workspace.get?_synthesize hfound span parts⟩
    · exact ⟨parts, hextends.resolves hr hr' hnames, hget⟩

omit hs in
theorem conjunctionCount_lt_iff :
    s.conjunctionCount < (s.synthesizeNamed span names).1.conjunctionCount ↔
      ∀ j, ¬ s.OnRecord names j := by
  obtain ⟨parts, made, hnames, hmade, rfl, hworkspace⟩ := synthesizeNamed_eq_ok h
  rw [conjunctionCount, conjunctionCount, hworkspace]
  rcases s.workspace.synthesize_outcome span parts with ⟨known, hget, heq⟩ | ⟨e, he, _⟩ |
    ⟨w', made', _, _, hnone, heq, _, hmakes⟩
  · rw [heq]
    exact ⟨fun hlt => absurd hlt (Nat.lt_irrefl _),
      fun hnot => absurd ⟨parts, hnames, hget⟩ (hnot known)⟩
  · rw [he] at hmade
    cases hmade
  · have hsize : w'.cache.size = s.workspace.cache.size + 1 := by
      rw [Cache.size, hmakes.cache, Cache.entries_insert hnone, List.length_append]
      rfl
    rw [heq]
    refine ⟨fun _ j honrecord => ?_, fun _ => ?_⟩
    · obtain ⟨others, hothers, hfound⟩ := honrecord
      cases hnames.parts_unique hothers
      rw [hnone] at hfound
      cases hfound
    · simp only [hsize]
      omega

end Faithful

end Session
end Inference
