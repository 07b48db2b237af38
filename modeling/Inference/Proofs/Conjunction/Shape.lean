import Inference.Proofs.Conjunction.Clean
import Inference.Proofs.Conjunction.Refusal

/-!
# Inference.Proofs.Conjunction.Shape

What a judgment is, apart from its handles, its name and the places in it. The shape of a
conjunction depends on its components and on the categories of the table; where it is asked for, and
whatever else stands in the table, makes no difference to it.

* `Shape`, `Registry.shape?`: the shape of a judgment.
* `Agrees`: two tables that have the same components to offer.
* `Registry.conjoinedShape`: the shape of the conjunction of components; `Agrees.conjoinedShape`,
  what it depends on.
* `Makes.shape?`: a new conjunction has this shape.
-/

namespace Inference

structure RuleShape where
  premises : List (ProductionId × List Symbol)
  conclusion : List Symbol
  deriving DecidableEq

structure Shape where
  origin : Origin
  form : List Symbol
  assumption : Option Variable
  rules : List RuleShape
  deriving DecidableEq

def Rule.shape (rule : Rule) : RuleShape :=
  ⟨rule.premises.map fun c => (c.production, c.symbols), rule.conclusion.symbols⟩

/-- How many problems the checker finds in a conjunction of the shape. -/
def Shape.problemCount (s : Shape) : Nat :=
  match s.assumption with
  | none => 0
  | some v => if .nonterminal v ∈ s.form then 0 else 1

namespace Registry

/-- The shape of a judgment, once it has a form. -/
def shape? (r : Registry) (id : JudgmentId) : Option Shape :=
  match r.judgment? id, r.formOf? id with
  | some j, some form =>
    some ⟨j.origin, form.symbols, j.assumption.map (·.val), (r.rulesFor id).map Rule.shape⟩
  | _, _ => none

theorem shape?_entered {r : Registry} (hr : r.Consistent) {k : Construction}
    {clauses : List Clause} {id : JudgmentId} {s : Shape} (h : r.shape? id = some s) :
    (r.entered k clauses).shape? id = some s := by
  rw [shape?] at h
  split at h
  · rename_i j form hj hform
    rw [shape?, judgment?_entered hj, formOf?_entered hform, rulesFor_entered hr hj]
    exact h
  · cases h

end Registry

namespace Agreement

/-- The same agreement with its diagnostics at another place. -/
def movedTo (span : Span) (a : Agreement) : Agreement :=
  { a with diagnostics := a.diagnostics.map fun d => { d with span } }

@[simp] theorem movedTo_context (span : Span) (a : Agreement) :
    (a.movedTo span).context = a.context := rfl

@[simp] theorem movedTo_diagnostics_length (span : Span) (a : Agreement) :
    (a.movedTo span).diagnostics.length = a.diagnostics.length := List.length_map _

variable (span span' : Span)

theorem seeContext_movedTo (a : Agreement) (nt : Nonterminal) :
    (a.movedTo span').seeContext span' nt = (a.seeContext span nt).movedTo span' := by
  cases hc : a.context with
  | none => simp [seeContext, movedTo, hc]
  | some first =>
    by_cases he : first.val = nt.val
    · simp [seeContext, movedTo, hc, he]
    · simp [seeContext, movedTo, hc, he, Diagnostic.recoverable]

theorem seeAssumption_movedTo (a : Agreement) (nt : Nonterminal) :
    (a.movedTo span').seeAssumption span' nt = (a.seeAssumption span nt).movedTo span' := by
  cases ha : a.assumption with
  | none => simp [seeAssumption, movedTo, ha]
  | some first =>
    by_cases he : first.val = nt.val
    · simp [seeAssumption, movedTo, ha, he]
    · simp [seeAssumption, movedTo, ha, he, Diagnostic.recoverable]

end Agreement

theorem Registry.agree_movedTo (r : Registry) (parts : List JudgmentId) (span span' : Span) :
    r.agree parts span' = (r.agree parts span).movedTo span' := by
  have hcontexts : (parts.flatMap r.contextsOf).foldl (Agreement.seeContext span') {} =
      Agreement.movedTo span'
        ((parts.flatMap r.contextsOf).foldl (Agreement.seeContext span) {}) := by
    rw [← List.foldl_hom (Agreement.movedTo span') fun a nt => a.seeContext_movedTo span span' nt]
    rfl
  rw [agree, agree, hcontexts]
  exact List.foldl_hom (Agreement.movedTo span') fun a nt => a.seeAssumption_movedTo span span' nt

/-- A renamer's state without the places of the nonterminals it put in. -/
def RenamingState.unplaced (st : RenamingState) : NameSupply × List (Variable × Variable) :=
  (st.supply, st.renamings.map fun p => (p.1, p.2.val))

def Renamed.unplaced (x : Renamed) : List (List Symbol) × List (Variable × Variable) :=
  (x.components.map fun es => es.map (·.val), x.renamings.map fun p => (p.1, p.2.val))

theorem Renamed.map_val_renamed? (x : Renamed) (v : Variable) :
    (x.renamed? v).map (·.val) = (x.unplaced.2.find? (·.1 == v)).map (·.2) := by
  rw [renamed?, unplaced, List.find?_map, Option.map_map, Option.map_map]
  rfl

namespace RenamingState

variable {r r' : Registry} (context : Option Variable) (span span' : Span)
  {st st' : RenamingState}

theorem renameElement_unplaced (hbase : r.freshBase = r'.freshBase)
    (h : st.unplaced = st'.unplaced) (e : Element) :
    (renameElement r context span st e).1.unplaced =
        (renameElement r' context span' st' e).1.unplaced ∧
      (renameElement r context span st e).2.val = (renameElement r' context span' st' e).2.val := by
  obtain ⟨hsupply, hrenamings⟩ := Prod.ext_iff.mp h
  simp only [unplaced] at hsupply hrenamings
  obtain ⟨s, place⟩ := e
  cases s with
  | terminal token => exact ⟨h, rfl⟩
  | nonterminal v =>
    by_cases hc : context = some v
    · simp only [renameElement, if_pos hc]
      exact ⟨h, trivial⟩
    · simp only [renameElement, if_neg hc, hbase, hsupply, unplaced, List.map_append, hrenamings]
      exact ⟨rfl, rfl⟩

theorem renameElements_unplaced (hbase : r.freshBase = r'.freshBase)
    (h : st.unplaced = st'.unplaced) (es : List Element) :
    (renameElements r context span st es).1.unplaced =
        (renameElements r' context span' st' es).1.unplaced ∧
      (renameElements r context span st es).2.map (·.val) =
        (renameElements r' context span' st' es).2.map (·.val) := by
  induction es generalizing st st' with
  | nil => exact ⟨h, rfl⟩
  | cons e es ih =>
    obtain ⟨hstate, hval⟩ := renameElement_unplaced context span span' hbase h e
    obtain ⟨hstate, hvals⟩ := ih hstate
    simp only [renameElements, List.map_cons]
    exact ⟨hstate, by rw [hval, hvals]⟩

theorem renameForms_unplaced (hbase : r.freshBase = r'.freshBase)
    (h : st.unplaced = st'.unplaced) (fs : List Form) :
    (renameForms r context span st fs).1.unplaced =
        (renameForms r' context span' st' fs).1.unplaced ∧
      ((renameForms r context span st fs).2.map fun es => es.map (·.val)) =
        (renameForms r' context span' st' fs).2.map fun es => es.map (·.val) := by
  induction fs generalizing st st' with
  | nil => exact ⟨h, rfl⟩
  | cons f fs ih =>
    obtain ⟨hstate, hvals⟩ := renameElements_unplaced context span span' hbase h f.elements
    obtain ⟨hstate, hrest⟩ := ih hstate
    simp only [renameForms, List.map_cons]
    exact ⟨hstate, by rw [hvals, hrest]⟩

end RenamingState

/-- Apart from places, renaming depends on the texts that names are built on and on nothing else in
the table. -/
theorem NameSupply.rename_unplaced {r r' : Registry} (hbase : r.freshBase = r'.freshBase)
    (s : NameSupply) (forms : List Form) (context : Option Nonterminal) (span span' : Span) :
    (s.rename r forms context span).unplaced = (s.rename r' forms context span').unplaced := by
  let start : RenamingState := { supply := s.withContext context }
  have hstart : start.unplaced = start.unplaced := rfl
  obtain ⟨hstate, hvals⟩ :=
    RenamingState.renameForms_unplaced (context.map (·.val)) span span' hbase hstart forms
  exact Prod.ext hvals (Prod.ext_iff.mp hstate).2

theorem Form.symbols_assemble (parts : List (List Element)) (separator : String) (span : Span) :
    (Form.assemble parts separator span).symbols =
      [.terminal separator].intercalate (parts.map fun es => es.map (·.val)) := by
  rw [symbols, assemble]
  induction parts using joinWith.induct with
  | case1 => rfl
  | case2 part => simp [joinWith, List.intercalate]
  | case3 part next rest ih =>
    simp only [joinWith, List.map_append, List.map_cons, ih]
    simp [List.intercalate, Element.terminal]

namespace Registry

/-- The shape of the conjunction of judgments, when it is asked for at the place. -/
def conjoinedShape (r : Registry) (config : Config) (span : Span) (parts : List JudgmentId) :
    Shape :=
  let k := (r.construct config span parts (parts.filterMap r.formOf?)).1
  let premises := k.premises.map fun es => es.map (·.val)
  ⟨.conjunction parts, k.form.symbols, k.assumption.map (·.val),
    [⟨(parts.filterMap r.productionOf?).zip premises, k.form.symbols⟩]⟩

/-- The tables have the same categories, and at the handles the same judgments with the same
forms. -/
structure Agrees (r r' : Registry) (parts : List JudgmentId) : Prop where
  categories : r'.categories = r.categories
  judgment? : ∀ part ∈ parts, r'.judgment? part = r.judgment? part
  formOf? : ∀ part ∈ parts, r'.formOf? part = r.formOf? part

section Agrees

variable {r r' : Registry} {parts : List JudgmentId}

theorem Agrees.tail {part : JudgmentId} (h : r.Agrees r' (part :: parts)) : r.Agrees r' parts where
  categories := h.categories
  judgment? other hother := h.judgment? other (List.mem_cons_of_mem _ hother)
  formOf? other hother := h.formOf? other (List.mem_cons_of_mem _ hother)

theorem Agrees.componentForms (h : r.Agrees r' parts) (seen : List JudgmentId) :
    r'.componentForms seen parts = r.componentForms seen parts := by
  induction parts generalizing seen with
  | nil => rfl
  | cons part parts ih =>
    have hknown : r'.hasJudgment part = r.hasJudgment part := by
      rw [Bool.eq_iff_iff, hasJudgment_iff, hasJudgment_iff,
        h.judgment? part (List.mem_cons_self ..)]
    rw [Registry.componentForms, Registry.componentForms, hknown,
      h.formOf? part (List.mem_cons_self ..), ih h.tail]

theorem Agrees.conjunctionName (h : r.Agrees r' parts) (label : String) :
    r'.conjunctionName parts label = r.conjunctionName parts label := by
  have hnames : parts.map r'.judgmentText = parts.map r.judgmentText :=
    List.map_congr_left fun part hpart => by
      rw [judgmentText, judgmentText, h.judgment? part hpart]
  rw [Registry.conjunctionName, Registry.conjunctionName, hnames]

theorem Agrees.category? (h : r.Agrees r' parts) (id : CategoryId) :
    r'.category? id = r.category? id := by
  rw [Registry.category?, Registry.category?, h.categories]

theorem Agrees.freshBase (h : r.Agrees r' parts) : r'.freshBase = r.freshBase := by
  funext v
  rw [Registry.freshBase, Registry.freshBase, h.category?]

theorem Agrees.agree (h : r.Agrees r' parts) (span : Span) :
    r'.agree parts span = r.agree parts span := by
  have hcontext : r'.isContext = r.isContext := by
    funext id
    rw [isContext, isContext, h.category?]
  have hcontexts : parts.flatMap r'.contextsOf = parts.flatMap r.contextsOf :=
    List.flatMap_congr fun part hpart => by
      simp only [contextsOf, contextsIn, h.formOf? part hpart, hcontext]
  have hassumptions : parts.filterMap r'.assumptionOf? = parts.filterMap r.assumptionOf? :=
    List.filterMap_congr fun part hpart => by
      rw [assumptionOf?, assumptionOf?, h.judgment? part hpart]
  rw [Registry.agree, Registry.agree, hcontexts, hassumptions]

theorem conjoinedAssumption_movedTo (a : Agreement) (span : Span) (x : Renamed) :
    conjoinedAssumption (a.movedTo span) x = conjoinedAssumption a x := rfl

theorem map_val_conjoinedAssumption (a : Agreement) {x y : Renamed} (h : x.unplaced = y.unplaced) :
    (conjoinedAssumption a x).map (·.val) = (conjoinedAssumption a y).map (·.val) := by
  have hlookup : ∀ nt : Nonterminal,
      ((x.renamed? nt.val).getD nt).val = ((y.renamed? nt.val).getD nt).val := by
    intro nt
    have hfound : (x.renamed? nt.val).map (·.val) = (y.renamed? nt.val).map (·.val) := by
      rw [Renamed.map_val_renamed?, Renamed.map_val_renamed?, h]
    have hval : ∀ o : Option Nonterminal, (o.getD nt).val = (o.map (·.val)).getD nt.val :=
      fun o => (Option.getD_map (·.val) nt o).symm
    rw [hval, hval, hfound]
  rw [conjoinedAssumption, conjoinedAssumption, Option.map_map, Option.map_map]
  refine Option.map_congr fun nt _ => ?_
  by_cases hc : a.context.map (·.val) = some nt.val
  · simp only [Function.comp_apply, if_pos hc]
  · simp only [Function.comp_apply, if_neg hc, hlookup nt]

theorem Agrees.conjoinedShape (h : r.Agrees r' parts) (config : Config) (span span' : Span) :
    r'.conjoinedShape config span' parts = r.conjoinedShape config span parts := by
  have hforms : parts.filterMap r'.formOf? = parts.filterMap r.formOf? :=
    List.filterMap_congr h.formOf?
  have hproductions : parts.filterMap r'.productionOf? = parts.filterMap r.productionOf? :=
    List.filterMap_congr fun part hpart => by
      rw [productionOf?, productionOf?, h.judgment? part hpart]
  have hagree : r'.agree parts span' = (r.agree parts span).movedTo span' := by
    rw [h.agree, r.agree_movedTo parts span]
  have hrenamed := NameSupply.rename_unplaced h.freshBase .empty (parts.filterMap r.formOf?)
    (r.agree parts span).context span' span
  have hassumption := map_val_conjoinedAssumption (r.agree parts span) hrenamed
  have hcomponents := (Prod.ext_iff.mp hrenamed).1
  simp only [Renamed.unplaced] at hcomponents
  simp only [Registry.conjoinedShape, construct, hforms, hproductions, hagree,
    Form.symbols_assemble, Agreement.movedTo_context, conjoinedAssumption_movedTo, hassumption,
    hcomponents]

end Agrees

end Registry

/-- The name is the plain one, or the plain one with a number. -/
def NumberedFrom (plain name : String) : Prop :=
  name = plain ∨ ∃ n, 0 < n ∧ name = Text.numbered (plain ++ "#") n

theorem Registry.unusedName_numberedFrom (r : Registry) (plain : String) :
    NumberedFrom plain (r.unusedName plain) := by
  by_cases h : r.judgmentId? plain = none
  · exact .inl (unusedName_of_free h)
  · obtain ⟨n, hsearch, hname⟩ := search_unusedName h
    exact .inr ⟨n, hsearch.isLeast.1.1, hname⟩

namespace Workspace

/-! ## New conjunctions -/

variable {w w' : Workspace} {span : Span} {parts : List JudgmentId} {made : Synthesis}
  {forms : List Form} {clauses : List Clause}

theorem Makes.shape? (h : w.Makes span parts w' made forms clauses) :
    w'.registry.shape? made.judgment = some (w.registry.conjoinedShape w.config span parts) := by
  have hj : w'.registry.judgment? made.judgment =
      some (w.registry.enteredJudgment (w.construction span parts forms)) := by
    rw [h.registry, h.judgment, Registry.judgment?_entered_new]
  obtain ⟨hproductions, helements⟩ := h.premiseClauses
  have hproductions : parts.filterMap w.registry.productionOf? = clauses.map (·.production) :=
    filterMap_eq_of_forall₂ (List.forall₂_map_right_iff.mpr hproductions)
  have hpremises : (w.registry.renamedForms parts span forms).components.map
      (fun es => es.map (·.val)) = clauses.map (·.symbols) := by
    rw [← helements, List.map_map]
    rfl
  have hforms : parts.filterMap w.registry.formOf? = forms := filterMap_eq_of_forall₂ h.components
  rw [Registry.shape?, hj, h.formOf?, h.rulesFor, Registry.conjoinedShape, hforms, hproductions]
  refine congrArg some (congrArg (Shape.mk _ _ _) (congrArg (fun p => [RuleShape.mk p _]) ?_))
  change clauses.map (fun c => (c.production, c.symbols)) =
    (clauses.map (·.production)).zip ((w.registry.renamedForms parts span forms).components.map
      fun es => es.map (·.val))
  rw [hpremises, List.zip_map']

theorem Makes.judgmentText_numberedFrom (h : w.Makes span parts w' made forms clauses) :
    NumberedFrom (w.registry.conjunctionName parts w.config.label)
      (w'.registry.judgmentText made.judgment) := by
  rw [Registry.judgmentText, h.registry, h.judgment, Registry.judgment?_entered_new]
  exact w.registry.unusedName_numberedFrom _

/-- As many diagnostics are told as the components disagree, and one more if the conjunction is
checked and assumes something that is not in its form. -/
theorem Makes.diagnostics_length (h : w.Makes span parts w' made forms clauses) :
    made.diagnostics.length = (w.registry.agree parts span).diagnostics.length +
      if w.config.validate then (w.registry.conjoinedShape w.config span parts).problemCount
      else 0 := by
  have hforms : parts.filterMap w.registry.formOf? = forms := filterMap_eq_of_forall₂ h.components
  have hcount : (Checker.judgmentProblems w'.registry made.judgment).length =
      (w.registry.conjoinedShape w.config span parts).problemCount := by
    rw [h.judgmentProblems_eq, Registry.conjoinedShape, hforms, Shape.problemCount]
    change _ = match (w.construction span parts forms).assumption.map (·.val) with
      | none => 0
      | some v =>
        if Symbol.nonterminal v ∈ (w.construction span parts forms).form.symbols then 0 else 1
    cases (w.construction span parts forms).assumption with
    | none => rfl
    | some nt =>
      simp only [Option.map_some, Form.mem_symbols_nonterminal]
      split <;> rfl
  rw [h.diagnostics, List.length_append]
  split
  · rw [Registry.check_eq, List.length_map, hcount]
  · rfl

end Workspace
end Inference
