import Inference.Proofs.Conjunction.Synthesis

/-!
# Inference.Proofs.Conjunction.Assumption

Which variable a conjunction assumes. The assumption comes from the first component that makes one,
under the name it goes by after renaming. It is looked up by the variable alone, and components may
use one variable independently of each other, so what is found belongs to the first component that
mentions the variable.

* `conjoinedAssumption_standsFor`: the assumption stands for its variable in that component.
* `synthesize_assumption`: when that is the component that makes the assumption.
-/

namespace Inference
namespace Registry

variable {r : Registry} {parts : List JudgmentId} {forms : List Form} {span : Span}
  {m : Nonterminal}

theorem conjoinedAssumption_eq_none (ha : (r.agree parts span).assumption = none) :
    conjoinedAssumption (r.agree parts span) (r.renamedForms parts span forms) = none := by
  rw [conjoinedAssumption, ha]
  rfl

theorem conjoinedAssumption_eq_self (ha : (r.agree parts span).assumption = some m)
    (hc : r.sharedContext parts span = some m.val) :
    conjoinedAssumption (r.agree parts span) (r.renamedForms parts span forms) = some m := by
  rw [conjoinedAssumption, ha, Option.map_some]
  exact congrArg some (if_pos hc)

/-- An assumption other than the context stands in the first form with its variable, in the place
of that variable. -/
theorem conjoinedAssumption_standsFor (ha : (r.agree parts span).assumption = some m)
    (hc : r.sharedContext parts span ≠ some m.val) {i : Nat} {f : Form} (hf : forms[i]? = some f)
    (hm : m.val ∈ variablesOf f.elements)
    (hfirst : ∀ g ∈ forms.take i, m.val ∉ variablesOf g.elements) :
    ∃ es nt, (r.renamedForms parts span forms).components[i]? = some es ∧
      conjoinedAssumption (r.agree parts span) (r.renamedForms parts span forms) = some nt ∧
      StandsFor f.elements es m.val nt ∧ r.sharedContext parts span ≠ some nt.val := by
  have hrep := NameSupply.empty.rename_replaces r forms (r.agree parts span).context span
  obtain ⟨hi, rfl⟩ := List.getElem?_eq_some_iff.mp hf
  have hes := List.getElem?_eq_getElem (hrep.length_eq ▸ hi)
  obtain ⟨nt, hnt, hstands⟩ :=
    NameSupply.empty.renamed?_rename r forms (r.agree parts span).context span hc hf hes hm hfirst
  refine ⟨_, nt, hes, ?_, hstands, ?_⟩
  · have hnt : (r.renamedForms parts span forms).renamed? m.val = some nt := hnt
    have hc : ¬(r.agree parts span).context.map (·.val) = some m.val := hc
    rw [conjoinedAssumption, ha, Option.map_some, if_neg hc, hnt]
    rfl
  · exact NameSupply.empty.rename_ne_context r forms (r.agree parts span).context span hnt

theorem exists_first_form {v : Variable} {i : Nat} {f : Form} (hf : forms[i]? = some f)
    (hv : v ∈ variablesOf f.elements) :
    ∃ j g, j ≤ i ∧ forms[j]? = some g ∧ v ∈ variablesOf g.elements ∧
      ∀ g' ∈ forms.take j, v ∉ variablesOf g'.elements := by
  induction forms generalizing i with
  | nil => cases hf
  | cons g forms ih =>
    by_cases hg : v ∈ variablesOf g.elements
    · exact ⟨0, g, Nat.zero_le i, rfl, hg, by simp⟩
    · cases i with
      | zero => cases hf; exact absurd hv hg
      | succ i =>
        obtain ⟨j, g', hle, hj, hv', hbefore⟩ := ih hf
        refine ⟨j + 1, g', Nat.succ_le_succ hle, hj, hv', ?_⟩
        rw [List.take_succ_cons]
        exact List.forall_mem_cons.mpr ⟨hg, hbefore⟩

theorem forall_forms_iff (h : List.Forall₂ (fun part f => r.formOf? part = some f) parts forms)
    {p : Form → Prop} :
    (∀ f ∈ forms, p f) ↔ ∀ part ∈ parts, ∀ f, r.formOf? part = some f → p f := by
  induction h with
  | nil => simp
  | cons hf _ ih => simp [ih, hf]

end Registry

namespace Workspace

variable {w w' : Workspace} {span : Span} {parts : List JudgmentId} {made : Synthesis}
  {forms : List Form} {clauses : List Clause}

theorem Makes.assumptionOf? (h : w.Makes span parts w' made forms clauses) :
    w'.registry.assumptionOf? made.judgment = Registry.conjoinedAssumption
      (w.registry.agree parts span) (w.registry.renamedForms parts span forms) := by
  rw [h.registry, h.judgment, Registry.assumptionOf?_entered_new]
  rfl

theorem Makes.getElem?_form (h : w.Makes span parts w' made forms clauses) {i : Nat}
    {part : JudgmentId} (hp : parts[i]? = some part) {f : Form}
    (hf : w.registry.formOf? part = some f) : forms[i]? = some f := by
  obtain ⟨hi, rfl⟩ := List.getElem?_eq_some_iff.mp hp
  have hi' : i < forms.length := h.components.length_eq ▸ hi
  have hsome := h.components.get hi hi'
  rw [List.get_eq_getElem, hf] at hsome
  rw [List.getElem?_eq_getElem hi']
  exact hsome.symm

theorem Makes.exists_premise (h : w.Makes span parts w' made forms clauses) {i : Nat}
    {part : JudgmentId} (hp : parts[i]? = some part) : ∃ c, clauses[i]? = some c := by
  have hi := (List.getElem?_eq_some_iff.mp hp).1
  exact ⟨_, List.getElem?_eq_getElem (h.premiseClauses.1.length_eq ▸ hi)⟩

theorem Makes.getElem?_premise (h : w.Makes span parts w' made forms clauses) {i : Nat}
    {es : List Element} :
    (w.registry.renamedForms parts span forms).components[i]? = some es ↔
      ∃ premise, clauses[i]? = some premise ∧ premise.elements = es := by
  rw [← h.premiseClauses.2, List.getElem?_map, Option.map_eq_some_iff]

theorem Makes.not_mem_of_standsFor (h : w.Makes span parts w' made forms clauses) {i j : Nat}
    (hij : i ≠ j) {c d : Clause} (hc : clauses[i]? = some c) (hd : clauses[j]? = some d)
    {es : List Element} {m : Variable} {nt : Nonterminal} (hs : StandsFor es c.elements m nt)
    (hne : w.registry.sharedContext parts span ≠ some nt.val) :
    nt.val ∉ variablesOf d.elements := by
  intro hmem
  have hget : ∀ {k : Nat} {c : Clause}, clauses[k]? = some c →
      (clauses.map (·.elements))[k]? = some c.elements := by
    intro k c hk
    rw [List.getElem?_map, hk]
    rfl
  rcases Nat.lt_or_gt_of_ne hij with hlt | hgt
  · exact hne (h.namedApart.eq_context hlt (hget hc) (hget hd) hs.mem hmem)
  · exact hne (h.namedApart.eq_context hgt (hget hd) (hget hc) hmem hs.mem)

/-- An assumption other than the context stays with the component that makes it exactly when no
component before it mentions its variable. -/
theorem Makes.assumption_own_iff (h : w.Makes span parts w' made forms clauses) {m : Nonterminal}
    (ha : (w.registry.agree parts span).assumption = some m)
    (hc : w.registry.sharedContext parts span ≠ some m.val) {i : Nat} {f : Form}
    (hf : forms[i]? = some f) (hm : m.val ∈ variablesOf f.elements) {premise : Clause}
    (hp : clauses[i]? = some premise) :
    ∃ a, w'.registry.assumptionOf? made.judgment = some a ∧
      ((∃ k : Nat, f.symbols[k]? = some (.nonterminal m.val) ∧
          premise.symbols[k]? = some (.nonterminal a.val)) ↔
        ∀ g ∈ forms.take i, m.val ∉ variablesOf g.elements) := by
  obtain ⟨j, g, hle, hgj, hmg, hbefore⟩ := Registry.exists_first_form hf hm
  obtain ⟨es, nt, hes, hnt, hstands, hne⟩ :=
    Registry.conjoinedAssumption_standsFor ha hc hgj hmg hbefore
  obtain ⟨c, hcj, rfl⟩ := h.getElem?_premise.mp hes
  refine ⟨nt, h.assumptionOf?.trans hnt, ?_, ?_⟩
  · rintro ⟨k, _, hk⟩
    have hmem : nt.val ∈ variablesOf premise.elements :=
      Form.mem_symbols_nonterminal.mp (List.mem_of_getElem? hk)
    by_cases hji : j = i
    · exact hji ▸ hbefore
    · exact absurd hmem (h.not_mem_of_standsFor hji hcj hp hstands hne)
  · intro hnone
    have hji : j = i := by
      rcases Nat.lt_or_eq_of_le hle with hlt | he
      · have hmem : g ∈ forms.take i :=
          List.mem_of_getElem? (by rw [List.getElem?_take, if_pos hlt, hgj])
        exact absurd hmg (hnone g hmem)
      · exact he
    subst hji
    cases hgj.symm.trans hf
    cases hcj.symm.trans hp
    obtain ⟨k, s, hk, hk'⟩ := hstands
    exact ⟨k, Form.getElem?_symbols.mpr ⟨_, hk, rfl⟩, Form.getElem?_symbols.mpr ⟨_, hk', rfl⟩⟩

/-- The assumption of a new conjunction, when `m` is the first assumption that one of its
components makes and that component mentions it. If `m` is the context it is kept. Otherwise what is
assumed stands in the premise of that component, in the place of `m`, exactly when no component
before it mentions the same variable. -/
theorem synthesize_assumption (h : w.synthesize span parts = (w', .ok made))
    (hfresh : made.fresh = true) {i : Nat} {part : JudgmentId} {m : Nonterminal}
    (hfirst : w.registry.FirstAssumes parts i part m) {f : Form}
    (hf : w.registry.formOf? part = some f) (hm : .nonterminal m.val ∈ f.symbols) :
    ∃ a rule premise, w'.registry.assumptionOf? made.judgment = some a ∧
      w'.registry.rulesFor made.judgment = [rule] ∧ rule.premises[i]? = some premise ∧
      ((w.registry.agree parts span).context.map (·.val) = some m.val → a = m) ∧
      ((w.registry.agree parts span).context.map (·.val) ≠ some m.val →
        ((∃ k : Nat, f.symbols[k]? = some (.nonterminal m.val) ∧
            premise.symbols[k]? = some (.nonterminal a.val)) ↔
          ∀ other ∈ parts.take i, ∀ g, w.registry.formOf? other = some g →
            .nonterminal m.val ∉ g.symbols)) := by
  obtain ⟨forms, clauses, hmakes⟩ := makes_of_synthesize h hfresh
  have ha := hfirst.agree_assumption span
  have hfi := hmakes.getElem?_form hfirst.getElem? hf
  obtain ⟨premise, hci⟩ := hmakes.exists_premise hfirst.getElem?
  simp only [Form.mem_symbols_nonterminal] at hm ⊢
  by_cases hc : w.registry.sharedContext parts span = some m.val
  · refine ⟨m, _, _, ?_, hmakes.rulesFor, hci, fun _ => rfl, fun hne => absurd hc hne⟩
    rw [hmakes.assumptionOf?, Registry.conjoinedAssumption_eq_self ha hc]
  · obtain ⟨a, ha, hiff⟩ := hmakes.assumption_own_iff ha hc hfi hm hci
    refine ⟨a, _, _, ha, hmakes.rulesFor, hci, fun he => absurd he hc, fun _ => ?_⟩
    rw [hiff]
    exact Registry.forall_forms_iff (List.forall₂_take i hmakes.components)

theorem synthesize_assumption_sample : ∃ w' made a,
    Workspace.synthesize { registry := .sample } {} [⟨1⟩, ⟨0⟩] = (w', .ok made) ∧
    made.fresh = true ∧ w'.registry.assumptionOf? made.judgment = some a ∧
    ∃ rule premise, w'.registry.rulesFor made.judgment = [rule] ∧
      rule.premises[0]? = some premise ∧ .nonterminal a.val ∈ premise.symbols := by
  obtain ⟨w', made, h, hfresh⟩ : ∃ w' made,
      Workspace.synthesize { registry := .sample } {} [⟨1⟩, ⟨0⟩] = (w', .ok made) ∧
      made.fresh = true := ⟨_, _, rfl, rfl⟩
  have hfirst : Registry.sample.FirstAssumes [⟨1⟩, ⟨0⟩] 0 ⟨1⟩ ⟨⟨"e", ⟨1⟩⟩, {}⟩ :=
    ⟨rfl, rfl, fun _ hother => by cases hother⟩
  obtain ⟨a, rule, premise, ha, hrule, hp, _, hiff⟩ :=
    synthesize_assumption h hfresh hfirst rfl (by decide)
  obtain ⟨k, _, hk⟩ := (hiff (by decide)).mpr fun _ hother => by cases hother
  exact ⟨w', made, a, h, hfresh, ha, rule, premise, hrule, hp, List.mem_of_getElem? hk⟩

/-- The assumption need not stay with the component that makes it: when an earlier component
mentions the same variable, what that one is renamed to is assumed. -/
theorem not_forall_assumption_own : ¬ ∀ (w w' : Workspace) (span : Span)
    (parts : List JudgmentId) (made : Synthesis) (i : Nat) (part : JudgmentId) (m : Nonterminal)
    (f : Form), w.registry.Reachable → w.synthesize span parts = (w', .ok made) →
    made.fresh = true → w.registry.FirstAssumes parts i part m →
    w.registry.formOf? part = some f → .nonterminal m.val ∈ f.symbols →
    (w.registry.agree parts span).context.map (·.val) ≠ some m.val →
    ∃ (a : Nonterminal) (rule : Rule) (premise : Clause) (k : Nat),
      w'.registry.assumptionOf? made.judgment = some a ∧
      w'.registry.rulesFor made.judgment = [rule] ∧ rule.premises[i]? = some premise ∧
      f.symbols[k]? = some (.nonterminal m.val) ∧
      premise.symbols[k]? = some (.nonterminal a.val) := by
  intro hall
  have hfirst : Registry.sample.FirstAssumes [⟨0⟩, ⟨1⟩] 1 ⟨1⟩ ⟨⟨"e", ⟨1⟩⟩, {}⟩ :=
    ⟨rfl, rfl, by decide⟩
  obtain ⟨a, rule, premise, k, ha, hrule, hp, hk, hk'⟩ := hall { registry := .sample } _ {}
    [⟨0⟩, ⟨1⟩] _ 1 ⟨1⟩ _ _ Registry.sample_reachable rfl rfl hfirst rfl (by decide) (by decide)
  have ha : some ⟨⟨"e1", ⟨1⟩⟩, {}⟩ = some a := ha
  cases ha
  have hsymbols : premise.symbols = [.nonterminal ⟨"e3", ⟨1⟩⟩, .terminal "halts"] := by
    cases hrule
    cases hp
    rfl
  have hmem := List.mem_of_getElem? hk'
  rw [hsymbols] at hmem
  exact absurd hmem (by decide)

end Workspace
end Inference
