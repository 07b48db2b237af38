import Inference.Proofs.Registry.Lookup

/-!
# Inference.Proofs.Check.WellFormed

Which judgments the checker accepts. That a rule is well formed is said clause by clause and
variable by variable, in no order and without a scope; the checker passes over the clauses once and
remembers the category that each name is first used at. As long as it finds nothing, every variable
that it has seen is bound to its own category, so any two of one name agree.

* `Symbol.Matches`, `WellFormedRule`, `WellFormed`: judgments in good order.
* `Quiet`: between two checkers nothing was found; `foldl_quiet`, what this says of a loop.
* `ruleProblems_eq_nil_iff`, `judgmentProblems_eq_nil_iff`: what no problem is found in.
* `checkJudgment_eq_zero_iff`: the checker accepts exactly the well-formed judgments.
-/

namespace Inference

/-- A symbol of a clause stands where the form has one like it: the same token, or a variable over
the same category. -/
inductive Symbol.Matches : Symbol → Symbol → Prop where
  | terminal (token : String) : Matches (.terminal token) (.terminal token)
  | nonterminal {u v : Variable} : u.category = v.category →
      Matches (.nonterminal u) (.nonterminal v)

theorem Symbol.fits_iff_matches {s s' : Symbol} : s.fits s' = true ↔ s.Matches s' := by
  constructor
  · intro h
    cases s <;> cases s' <;> simp [Symbol.fits] at h
    · subst h
      exact .terminal _
    · exact .nonterminal h
  · intro h
    cases h with
    | terminal token => simp [Symbol.fits]
    | nonterminal hc => simp [Symbol.fits, hc]

theorem sameShape_iff {f g : Form} :
    SameShape f.elements g.elements ↔ List.Forall₂ Symbol.Matches f.symbols g.symbols := by
  simp only [SameShape, Form.symbols, List.forall₂_map_left_iff, List.forall₂_map_right_iff,
    Symbol.fits_iff_matches]

namespace Registry

/-- A rule for a judgment with the given production: it concludes an instance of that production,
its clauses have the shapes of theirs, and no name in it is used at two categories. -/
structure WellFormedRule (r : Registry) (production : ProductionId) (rule : Rule) : Prop where
  conclusion : rule.conclusion.production = production
  clauses : ∀ clause ∈ rule.clauses, ∃ p, r.production? clause.production = some p ∧
    List.Forall₂ Symbol.Matches p.form.symbols clause.symbols
  oneCategory : ∀ c ∈ rule.clauses, ∀ d ∈ rule.clauses, ∀ u v : Variable,
    .nonterminal u ∈ c.symbols → .nonterminal v ∈ d.symbols → u.name = v.name →
    u.category = v.category

/-- There is such a judgment, it has a production, what it assumes is in its form, and its rules are
well formed. -/
def WellFormed (r : Registry) (id : JudgmentId) : Prop :=
  ∃ j production p, r.judgment? id = some j ∧ j.production = some production ∧
    r.production? production = some p ∧
    (∀ nt, j.assumption = some nt → .nonterminal nt.val ∈ p.form.symbols) ∧
    ∀ rule ∈ r.rules, rule.judgment = id → r.WellFormedRule production rule

end Registry

theorem Scope.categoryOf?_define {s : Scope} {v : Variable} (h : s.categoryOf? v.name = none)
    (name : String) : (s.define v).1.categoryOf? name =
      if name = v.name then some v.category else s.categoryOf? name := by
  have hnone : s.lookup? v.name = none := by simpa [Scope.categoryOf?] using h
  rw [Scope.lookup?, List.findSome?_eq_none_iff] at hnone
  have hcurrent : s.current.lookup? v.name = none := hnone s.current (by simp [Scope.frames])
  have hdefine : (s.define v).1 = { s with current := s.current ++ [v] } := by
    simp [Scope.define, hcurrent]
  have hframe : Frame.lookup? (s.current ++ [v]) name =
      (s.current.lookup? name).or ([v].find? (·.name == name)) := by
    simp only [Frame.lookup?, List.find?_append]
  rw [hdefine]
  simp only [Scope.categoryOf?, Scope.lookup?, Scope.frames, List.findSome?_cons, hframe]
  by_cases hn : name = v.name
  · subst hn
    simp [hcurrent]
  · simp [hn, Ne.symm hn]

namespace Checker

variable {r : Registry}

/-- From one checker to a later one no problem was found, and what was bound still is. -/
structure Quiet (c c' : Checker) : Prop where
  problems : c'.problems = c.problems
  bound : ∀ name category, c.scope.categoryOf? name = some category →
    c'.scope.categoryOf? name = some category

theorem Quiet.refl (c : Checker) : Quiet c c := ⟨rfl, fun _ _ h => h⟩

theorem Quiet.trans {c c' c'' : Checker} (h : Quiet c c') (h' : Quiet c' c'') : Quiet c c'' :=
  ⟨h'.problems.trans h.problems, fun _ _ hb => h'.bound _ _ (h.bound _ _ hb)⟩

def Binds (vs : List Variable) (c : Checker) : Prop :=
  ∀ v ∈ vs, c.scope.categoryOf? v.name = some v.category

theorem Binds.of_quiet {vs : List Variable} {c c' : Checker} (h : Binds vs c) (hq : Quiet c c') :
    Binds vs c' := fun v hv => hq.bound _ _ (h v hv)

theorem Accumulates.problems_prefix {α : Type} {step : Checker → α → Checker}
    (h : Accumulates step) (c : Checker) (a : α) : c.problems <+: (step c a).problems := by
  have hafter := h { c with problems := [] } a c.problems
  simp only [after, List.append_nil] at hafter
  rw [hafter]
  exact List.prefix_append _ _

theorem Accumulates.loop {α : Type} {step : Checker → α → Checker} (h : Accumulates step) :
    Accumulates fun c (as : List α) => as.foldl step c :=
  fun c as earlier => h.foldl as c earlier

/-- In a loop that finds nothing no step finds anything, and what a step brings about lasts to the
end if later steps that find nothing keep it. -/
theorem foldl_quiet {α : Type} {step : Checker → α → Checker} {Q : α → Checker → Prop}
    (hstep : Accumulates step) (hkept : ∀ a c c', Q a c → Quiet c c' → Q a c')
    (hquiet : ∀ c a, (step c a).problems = c.problems → Quiet c (step c a) ∧ Q a (step c a))
    (as : List α) {c : Checker} (h : (as.foldl step c).problems = c.problems) :
    Quiet c (as.foldl step c) ∧ ∀ a ∈ as, Q a (as.foldl step c) := by
  induction as generalizing c with
  | nil => exact ⟨.refl c, by simp⟩
  | cons a as ih =>
    rw [List.foldl_cons] at h ⊢
    have hrest : (step c a).problems <+: c.problems := h ▸ hstep.loop.problems_prefix (step c a) as
    have hfirst : (step c a).problems = c.problems :=
      (hstep.problems_prefix c a).eq_of_length_le hrest.length_le |>.symm
    obtain ⟨hq, ha⟩ := hquiet c a hfirst
    obtain ⟨hq', has⟩ := ih (c := step c a) (by rw [h, hfirst])
    exact ⟨hq.trans hq', List.forall_mem_cons.mpr ⟨hkept a _ _ ha hq', has⟩⟩

theorem add_problems_eq_iff {c : Checker} {problems : List Problem} :
    (c.add problems).problems = c.problems ↔ problems = [] := by
  simp [add]

theorem checkVariable_quiet (c : Checker) (nt : Nonterminal)
    (h : (checkVariable r c nt).problems = c.problems) :
    Quiet c (checkVariable r c nt) ∧ Binds [nt.val] (checkVariable r c nt) := by
  simp only [Binds, List.forall_mem_singleton]
  simp only [checkVariable] at h ⊢
  split
  · rename_i hnone
    refine ⟨⟨rfl, fun name category hb => ?_⟩, ?_⟩
    · have hne : name ≠ nt.val.name := by
        rintro rfl
        rw [hnone] at hb
        cases hb
      rw [Scope.categoryOf?_define hnone, if_neg hne, hb]
    · rw [Scope.categoryOf?_define hnone, if_pos rfl]
  · rename_i category hsome
    by_cases he : category = nt.val.category
    · rw [if_pos he]
      exact ⟨.refl c, he ▸ hsome⟩
    · rw [hsome] at h
      simp only [if_neg he, add_problems_eq_iff] at h
      cases h

theorem checkClause_quiet (c : Checker) (clause : Clause)
    (h : (checkClause r c clause).problems = c.problems) :
    Quiet c (checkClause r c clause) ∧
      (FitsProduction r clause ∧ Binds (variablesOf clause.elements) (checkClause r c clause)) := by
  simp only [checkClause] at h ⊢
  cases hp : r.production? clause.production with
  | none =>
    simp only [hp, add_problems_eq_iff] at h
    cases h
  | some p =>
    simp only [hp] at h
    have hgrows := (accumulates_checkVariable r).loop.problems_prefix
      (c.add (shapeProblems r p.form clause)) clause.nonterminals
    rw [h] at hgrows
    have hshape : shapeProblems r p.form clause = [] := by
      have hle := hgrows.length_le
      simp only [add, List.length_append] at hle
      exact List.eq_nil_of_length_eq_zero (by omega)
    have hadd : c.add (shapeProblems r p.form clause) = c := by simp [hshape, add]
    simp only [hadd] at h ⊢
    obtain ⟨hq, hbinds⟩ := foldl_quiet (Q := fun (nt : Nonterminal) c => Binds [nt.val] c)
      (accumulates_checkVariable r) (fun nt _ _ hb hq => hb.of_quiet hq) checkVariable_quiet _ h
    refine ⟨hq, ⟨p, hp, shapeProblems_eq_nil_iff.mp hshape⟩, ?_⟩
    rw [← Form.map_val_nonterminals, Binds, List.forall_mem_map]
    exact fun nt hnt => hbinds nt hnt nt.val (by simp)

/-! ## Rules and judgments -/

theorem mem_variables_clauses {rule : Rule} {v : Variable} :
    v ∈ rule.clauses.flatMap (variablesOf ·.elements) ↔
      ∃ c ∈ rule.clauses, .nonterminal v ∈ c.symbols := by
  simp [List.mem_flatMap, Form.mem_symbols_nonterminal]

theorem fitsProduction_iff {clause : Clause} : FitsProduction r clause ↔
    ∃ p, r.production? clause.production = some p ∧
      List.Forall₂ Symbol.Matches p.form.symbols clause.symbols := by
  simp only [FitsProduction, ← sameShape_iff]

theorem ruleProblems_eq_nil_iff {j : Judgment} {production : ProductionId}
    (hj : j.production = some production) {rule : Rule} :
    ruleProblems r j rule = [] ↔ r.WellFormedRule production rule := by
  constructor
  · intro h
    let opened : Checker := { empty.add (conclusionProblems j rule) with scope := Scope.empty.push }
    have hgrows := (accumulates_checkClause r).loop.problems_prefix opened rule.clauses
    have hfinal : (rule.clauses.foldl (checkClause r) opened).problems = [] := h
    rw [hfinal, List.prefix_nil] at hgrows
    have hconclusion : conclusionProblems j rule = [] := by simpa [opened, add, empty] using hgrows
    obtain ⟨-, hclauses⟩ := foldl_quiet
      (Q := fun clause c => FitsProduction r clause ∧ Binds (variablesOf clause.elements) c)
      (accumulates_checkClause r) (fun _ _ _ hc hq => ⟨hc.1, hc.2.of_quiet hq⟩) checkClause_quiet
      rule.clauses (hfinal.trans hgrows.symm)
    refine ⟨?_, fun clause hc => fitsProduction_iff.mp (hclauses clause hc).1,
      fun c hc d hd u v hu hv hn => ?_⟩
    · by_contra hne
      rw [conclusionProblems, hj, if_neg fun he => hne (Option.some.inj he).symm] at hconclusion
      cases hconclusion
    · have hu := (hclauses c hc).2 u (Form.mem_symbols_nonterminal.mp hu)
      have hv := (hclauses d hd).2 v (Form.mem_symbols_nonterminal.mp hv)
      rw [hn, hv] at hu
      exact (Option.some.inj hu).symm
  · rintro ⟨hconclusion, hclauses, hvariables⟩
    have hone : OneCategory (rule.clauses.flatMap (variablesOf ·.elements)) := by
      intro u hu v hv hn
      obtain ⟨c, hc, hu⟩ := mem_variables_clauses.mp hu
      obtain ⟨d, hd, hv⟩ := mem_variables_clauses.mp hv
      exact hvariables c hc d hd u v hu hv hn
    refine ruleProblems_eq_nil (by rw [hj, hconclusion])
      (fun clause hc => fitsProduction_iff.mpr (hclauses clause hc)) hone ?_
    intro clause hc v hv
    exact List.mem_flatMap.mpr ⟨clause, hc, hv⟩

theorem formProblems_eq_nil_iff (hr : r.Consistent) {id : JudgmentId} {j : Judgment}
    (hj : r.judgment? id = some j) :
    formProblems r j = [] ↔ ∃ production p, j.production = some production ∧
      r.production? production = some p ∧
      ∀ nt, j.assumption = some nt → .nonterminal nt.val ∈ p.form.symbols := by
  cases hp : j.production with
  | none => simp [formProblems, hp]
  | some production =>
    obtain ⟨p, hfound⟩ := Option.isSome_iff_exists.mp (hr.isSome_production? hj hp)
    have hof : r.productionOf? id = some production :=
      Registry.productionOf?_eq_some_iff.mpr ⟨j, hj, hp⟩
    have hown : p.judgment = j.id := by
      have hiff := (hr.production_iff id production).mp hof
      rw [hfound] at hiff
      rw [hr.judgment?_id hj]
      exact Option.some.inj hiff
    rw [formProblems_eq hp hfound hown (hr.forms_declared p (List.mem_of_getElem? hfound))]
    simp only [Option.some.injEq, exists_and_left, exists_eq_left', hfound,
      Form.mem_symbols_nonterminal]
    cases j.assumption with
    | none => simp
    | some nt => simp

theorem judgmentProblems_eq_nil_iff (hr : r.Consistent) {id : JudgmentId} :
    judgmentProblems r id = [] ↔ r.WellFormed id := by
  cases hj : r.judgment? id with
  | none => simp [judgmentProblems, Registry.WellFormed, hj]
  | some j =>
    have hrules : ∀ rule, rule ∈ r.rulesFor id ↔ rule ∈ r.rules ∧ rule.judgment = id := by
      simp [hr.rulesFor_eq_filter]
    simp only [judgmentProblems, hj, List.append_eq_nil_iff, List.flatMap_eq_nil_iff, hrules,
      formProblems_eq_nil_iff hr hj]
    constructor
    · rintro ⟨⟨production, p, hp, hfound, hassumption⟩, hnil⟩
      exact ⟨j, production, p, hj, hp, hfound, hassumption, fun rule hrule hid =>
        (ruleProblems_eq_nil_iff hp).mp (hnil rule ⟨hrule, hid⟩)⟩
    · rintro ⟨j', production, p, hj', hp, hfound, hassumption, hwell⟩
      cases hj.symm.trans hj'
      exact ⟨⟨production, p, hp, hfound, hassumption⟩, fun rule hrule =>
        (ruleProblems_eq_nil_iff hp).mpr (hwell rule hrule.1 hrule.2)⟩

/-- The checker finds nothing in a judgment exactly when there is such a judgment and it is well
formed, whatever it has checked before. -/
theorem checkJudgment_eq_zero_iff (hr : r.Reachable) (earlier : List JudgmentId)
    (id : JudgmentId) :
    (checkJudgment r (checkJudgments r .empty earlier).1 id).2 = 0 ↔ r.WellFormed id := by
  have hscope : (checkJudgments r .empty earlier).1.scope = {} := by
    rw [checkJudgments_eq r rfl]
    rfl
  rw [checkJudgment_eq r hscope, List.length_eq_zero_iff,
    judgmentProblems_eq_nil_iff hr.consistent]

/-- A conjunction, checked after a judgment with a rule that uses `e` at two categories. -/
theorem checkJudgment_eq_zero_iff_sample : ∃ r : Registry, r.Reachable ∧
    (checkJudgments r .empty [⟨9⟩, ⟨1⟩]).2 = [1, 1] ∧ ¬ r.WellFormed ⟨1⟩ ∧
    (checkJudgment r (checkJudgments r .empty [⟨9⟩, ⟨1⟩]).1 ⟨2⟩).2 = 0 ∧ r.WellFormed ⟨2⟩ := by
  let named (name : String) (category : Nat) : Element :=
    .ofNonterminal ⟨⟨name, ⟨category⟩⟩, {}⟩
  let typing : Clause :=
    { elements := [named "Gamma" 0, .terminal "|-" {}, named "x" 1, .terminal ":" {}, named "e" 2]
      span := {}, production := ⟨0⟩ }
  let halting : Clause :=
    { elements := [named "e" 1, .terminal "halts" {}], span := {}, production := ⟨1⟩ }
  let writes : List Write := [.addRule "mixed" ⟨1⟩ [typing] halting {},
    .synthesize {} {} {} [⟨0⟩, ⟨1⟩]]
  have h : (Registry.sample.run writes).Reachable :=
    ⟨Registry.typingAndHalting ++ writes, List.foldl_append⟩
  have hrefused := checkJudgment_eq_zero_iff h [⟨9⟩] ⟨1⟩
  have haccepted := checkJudgment_eq_zero_iff h [⟨9⟩, ⟨1⟩] ⟨2⟩
  have hcount : (checkJudgment (Registry.sample.run writes)
      (checkJudgments (Registry.sample.run writes) .empty [⟨9⟩, ⟨1⟩]).1 ⟨2⟩).2 = 0 := by
    decide +kernel
  refine ⟨_, h, by decide +kernel, fun hwell => ?_, hcount, haccepted.mp hcount⟩
  exact absurd (hrefused.mpr hwell) (by decide +kernel)

end Checker
end Inference
