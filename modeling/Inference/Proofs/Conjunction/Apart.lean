import Inference.Proofs.Conjunction.Renaming
import Inference.Proofs.Registry.Reachable

/-!
# Inference.Proofs.Conjunction.Apart

The names that a renamer gives, whatever its supply was asked for before. Each is the text for the
category of the variable with a number after it, and the numbers grow from left to right. Names that
are built on different texts could still be spelled alike, `t1` with 1 and `t` with 11; that they
never are rests on the names in use and not on the numbers.

* `Renames.exists_numbers`: the numbers in the names.
* `Renames.nodup_names`: no name is given twice.
* `find?_replacements_take`: what a variable is looked up as.
* `rename_apart`: all of it, for a supply after any requests.
-/

namespace Inference

theorem Registry.freshBase_eq (r : Registry) (v : Variable) :
    r.freshBase v = ((r.category? v.category).map (·.name)).getD v.baseName := by
  rw [freshBase]
  cases r.category? v.category <;> rfl

section Renames

variable {r : Registry} {context : Option Variable} {span : Span}

/-- The numbers in the names that are given start after the counter and grow. -/
theorem Renames.exists_numbers {st st' : RenamingState} {es es' : List Element}
    (h : Renames r context span st es st' es') :
    ∃ numbers : List Nat, numbers.Pairwise (· < ·) ∧ (∀ n ∈ numbers, st.supply.counter < n) ∧
      List.Forall₂ (fun p n => p.2.val.name = Text.numbered (r.freshBase p.1) n)
        (replacements context es es') numbers := by
  induction h with
  | nil => exact ⟨[], .nil, List.forall_mem_nil _, .nil⟩
  | keep hk _ ih =>
    rw [replacements_cons_keep hk]
    exact ih
  | @fresh st _ v _ supply _ _ _ hv hf _ ih =>
    obtain ⟨numbers, hgrow, hafter, hnames⟩ := ih
    obtain ⟨hlt, hname⟩ := NameSupply.exists_number_of_fresh hf
    rw [replacements_cons_fresh hv]
    refine ⟨supply.counter :: numbers, List.pairwise_cons.mpr ⟨hafter, hgrow⟩, ?_,
      .cons hname hnames⟩
    exact List.forall_mem_cons.mpr ⟨hlt, fun n hn => Nat.lt_trans hlt (hafter n hn)⟩

theorem Renames.nodup_names {st st' : RenamingState} {es es' : List Element}
    (h : Renames r context span st es st' es') :
    ((replacements context es es').map fun p => p.2.val.name).Nodup := by
  induction h with
  | nil => exact .nil
  | keep hk _ ih =>
    rw [replacements_cons_keep hk]
    exact ih
  | fresh hv hf hes ih =>
    rw [replacements_cons_fresh hv, List.map_cons, List.nodup_cons]
    refine ⟨fun hmem => ?_, ih⟩
    obtain ⟨p, hp, hname⟩ := List.mem_map.mp hmem
    exact hes.replacement_unused hp ((NameSupply.mem_used_fresh hf).mpr (.inl hname))

end Renames

/-! ## The first replacement -/

section Replacements

variable {context : Option Variable} {span : Span} {es es' : List Element}

theorem replacements_ne_context (h : List.Forall₂ (Replaces context span) es es')
    {p : Variable × Nonterminal} (hp : p ∈ replacements context es es') : context ≠ some p.1 := by
  induction h with
  | nil => cases hp
  | cons he _ ih =>
    cases he with
    | keep hk =>
      rw [replacements_cons_keep hk] at hp
      exact ih hp
    | fresh name hv =>
      rw [replacements_cons_fresh hv] at hp
      rcases List.mem_cons.mp hp with rfl | hp
      · exact hv
      · exact ih hp

/-- What is found for a variable stands at the first place that has it. -/
theorem find?_replacements_take (h : List.Forall₂ (Replaces context span) es es') {v : Variable}
    (hc : context ≠ some v) {k : Nat} {s : Span} (hk : es[k]? = some ⟨.nonterminal v, s⟩)
    (hfirst : v ∉ variablesOf (es.take k)) :
    ∃ nt, (replacements context es es').find? (·.1 == v) = some (v, nt) ∧
      es'[k]? = some (.ofNonterminal nt) := by
  induction h generalizing k with
  | nil => cases hk
  | @cons e e' es es' he _ ih =>
    cases k with
    | zero =>
      cases hk
      cases he with
      | keep hkeep => exact absurd (hkeep v rfl) hc
      | fresh name hv =>
        rw [replacements_cons_fresh hv]
        exact ⟨_, List.find?_cons_of_pos (beq_self_eq_true v), rfl⟩
    | succ k =>
      have hsplit : variablesOf (e :: es.take k) = variablesOf [e] ++ variablesOf (es.take k) :=
        variablesOf_append [e] _
      rw [List.take_succ_cons, hsplit, List.mem_append, not_or] at hfirst
      obtain ⟨nt, hfind, hplace⟩ := ih hk hfirst.2
      refine ⟨nt, ?_, hplace⟩
      cases he with
      | keep hkeep => rw [replacements_cons_keep hkeep, hfind]
      | @fresh u _ name hu =>
        have hne : u ≠ v := fun he => hfirst.1 (List.mem_singleton.mpr he.symm)
        rw [replacements_cons_fresh hu, List.find?_cons_of_neg (by simpa using hne), hfind]

end Replacements

namespace NameSupply

variable (s : NameSupply) (r : Registry) (forms : List Form) (context : Option Nonterminal)
  (span : Span)

theorem mem_used_withContext {name : String} (h : name ∈ s.used) :
    name ∈ (s.withContext context).used := by
  cases context with
  | none => exact h
  | some nt => exact mem_used_reserve.mpr (.inr h)

theorem renamed?_eq_none_iff {v : Variable} :
    (s.rename r forms context span).renamed? v = none ↔
      context.map (·.val) = some v ∨ v ∉ variablesOf (forms.flatMap (·.elements)) := by
  obtain ⟨st, h, _⟩ := s.renames_rename r forms context span
  rw [Renamed.renamed?, rename_renamings, Option.map_eq_none_iff]
  constructor
  · intro hnone
    by_contra hboth
    obtain ⟨hc, hmem⟩ := not_or.mp hboth
    obtain ⟨nt, hfind, _⟩ := find?_replacements h.replaces hc (not_not.mp hmem)
    rw [hnone] at hfind
    cases hfind
  · rintro (hc | hmem)
    · refine List.find?_eq_none.mpr fun p hp hv => ?_
      exact replacements_ne_context h.replaces hp (eq_of_beq hv ▸ hc)
    · exact find?_replacements_eq_none h.replaces hmem

theorem renamed?_of_first {v : Variable} (hc : context.map (·.val) ≠ some v) {k : Nat}
    {place : Span} (hk : (forms.flatMap (·.elements))[k]? = some ⟨.nonterminal v, place⟩)
    (hfirst : v ∉ variablesOf ((forms.flatMap (·.elements)).take k)) :
    ∃ nt, (s.rename r forms context span).renamed? v = some nt ∧
      (s.rename r forms context span).components.flatten[k]? = some (.ofNonterminal nt) := by
  obtain ⟨st, h, _⟩ := s.renames_rename r forms context span
  obtain ⟨nt, hfind, hplace⟩ := find?_replacements_take h.replaces hc hk hfirst
  exact ⟨nt, by rw [Renamed.renamed?, rename_renamings, hfind]; rfl, hplace⟩

/-- Over any table and with a supply that was asked for anything before, renaming replaces forms
element by element. Terminals and the context stay as they are, and any other variable becomes one
over its category. Read from left to right, the names of these have numbers that grow, after the
name of the category, or after the base name of the variable when there is no such category. No two
of them are equal, and none is the name of the context or a name that was reserved or given out
before. A variable is looked up as what stands at the first place that has it, and is not found
exactly when it is the context or has no place. -/
theorem rename_apart (requests : List SupplyRequest) :
    let renamed := (empty.run requests).rename r forms context span
    let shared := context.map (·.val)
    let before := forms.flatMap (·.elements)
    let after := renamed.components.flatten
    let names := (replacements shared before after).map fun p => p.2.val.name
    List.Forall₂ (fun f es => List.Forall₂ (Replaces shared span) f.elements es) forms
      renamed.components ∧
    (∃ numbers : List Nat, numbers.Pairwise (· < ·) ∧
      List.Forall₂ (fun p n => p.2.val.name = Text.numbered
          (((r.category? p.1.category).map (·.name)).getD p.1.baseName) n)
        (replacements shared before after) numbers) ∧
    names.Nodup ∧
    (∀ name ∈ names, (∀ v, shared = some v → name ≠ v.name) ∧
      name ∉ empty.namesOf requests) ∧
    ∀ v, (renamed.renamed? v = none ↔ shared = some v ∨ v ∉ variablesOf before) ∧
      (shared ≠ some v → ∀ (k : Nat) (place : Span),
        before[k]? = some ⟨.nonterminal v, place⟩ → v ∉ variablesOf (before.take k) →
        ∃ nt, renamed.renamed? v = some nt ∧ after[k]? = some (.ofNonterminal nt)) := by
  intro renamed shared before after names
  obtain ⟨st, h, _⟩ := (empty.run requests).renames_rename r forms context span
  obtain ⟨numbers, hgrow, _, hnumbers⟩ := h.exists_numbers
  simp only [Registry.freshBase_eq] at hnumbers
  refine ⟨rename_replaces .., ⟨numbers, hgrow, hnumbers⟩, h.nodup_names, fun name hname => ?_,
    fun v => ⟨renamed?_eq_none_iff .., fun hc k place => renamed?_of_first _ _ _ _ _ hc⟩⟩
  obtain ⟨p, hp, rfl⟩ := List.mem_map.mp hname
  have hunused := h.replacement_unused hp
  constructor
  · intro v hv he
    exact hunused (he ▸ context_mem_used _ context hv)
  · intro hmem
    have hused : p.2.val.name ∈ (empty.run requests).used := mem_used_run.mpr (.inl hmem)
    exact hunused (mem_used_withContext _ _ hused)

/-- A name that was reserved is passed over, and what was given out before counts on. The first
variable has a place in both forms and is looked up as what stands at the first. The last one is
over no category of the table, and its name is built on its own. -/
theorem rename_apart_sample : ∃ forms renamed,
    [(⟨0⟩ : JudgmentId), ⟨1⟩].mapM Registry.sample.formOf? = some forms ∧
    (empty.run [.reserve "e2", .fresh "tau"]).rename .sample
      (forms ++ [⟨[.ofNonterminal ⟨⟨"x7'", ⟨9⟩⟩, {}⟩], {}⟩])
      (some ⟨⟨"Gamma", ⟨0⟩⟩, {}⟩) {} = renamed ∧
    renamed.components.map (fun es => es.map (·.val.text)) =
      [["Gamma", "|-", "e3", ":", "tau4"], ["e5", "halts"], ["x6"]] ∧
    ∃ nt, renamed.renamed? ⟨"e", ⟨1⟩⟩ = some nt ∧
      renamed.components.flatten[2]? = some (.ofNonterminal nt) := by
  obtain ⟨_, _, _, _, hlookup⟩ := rename_apart .sample
    [⟨[.ofNonterminal ⟨⟨"Gamma", ⟨0⟩⟩, {}⟩, .terminal "|-" {}, .ofNonterminal ⟨⟨"e", ⟨1⟩⟩, {}⟩,
        .terminal ":" {}, .ofNonterminal ⟨⟨"tau", ⟨2⟩⟩, {}⟩], {}⟩,
      ⟨[.ofNonterminal ⟨⟨"e", ⟨1⟩⟩, {}⟩, .terminal "halts" {}], {}⟩,
      ⟨[.ofNonterminal ⟨⟨"x7'", ⟨9⟩⟩, {}⟩], {}⟩]
    (some ⟨⟨"Gamma", ⟨0⟩⟩, {}⟩) {} [.reserve "e2", .fresh "tau"]
  obtain ⟨_, hplace⟩ := hlookup ⟨"e", ⟨1⟩⟩
  exact ⟨_, _, rfl, rfl, by decide +kernel, hplace (by decide) 2 {} rfl (by decide)⟩

end NameSupply

end Inference
