import Inference.Proofs.Registry.Consistent

/-!
# Inference.Proofs.Registry.Extends

Writes only add to the declaration table. Categories, productions and rules stay at their handles as
they are; a judgment keeps its name, and its production once it has one, while rules are added to it
at the end.

* `Extends`: one table has all that another has, at the same handles.
* `extends_of_step`, `extends_of_steps`: the table after accepted writes extends the one before.
* `Extends.formOf?`, `Extends.isContext`: what was declared is still found.
-/

namespace Inference

/-- The same judgment at a later time. Its assumption and its origin may have been set since. -/
structure Judgment.Extends (j j' : Judgment) : Prop where
  id : j'.id = j.id
  name : j'.name = j.name
  span : j'.span = j.span
  production : ∀ p, j.production = some p → j'.production = some p
  rules : j.rules <+: j'.rules

namespace Judgment.Extends

theorem refl (j : Judgment) : j.Extends j := ⟨rfl, rfl, rfl, fun _ h => h, List.prefix_refl _⟩

theorem trans {j j' j'' : Judgment} (h : j.Extends j') (h' : j'.Extends j'') : j.Extends j'' where
  id := h'.id.trans h.id
  name := h'.name.trans h.name
  span := h'.span.trans h.span
  production p hp := h'.production p (h.production p hp)
  rules := h.rules.trans h'.rules

end Judgment.Extends

namespace Registry

/-- Fresh names are built on the name of the category, if there is one. -/
theorem freshBase_of_category? {r : Registry} {v : Variable} {c : Category}
    (hc : r.category? v.category = some c) : r.freshBase v = c.name := by
  rw [freshBase, hc]

structure Extends (r r' : Registry) : Prop where
  categories : r.categories <+: r'.categories
  productions : r.productions <+: r'.productions
  rules : r.rules <+: r'.rules
  judgments : ∀ id j, r.judgment? id = some j → ∃ j', r'.judgment? id = some j' ∧ j.Extends j'

theorem getElem?_of_prefix {α : Type} {l m : List α} (h : l <+: m) {i : Nat} {a : α}
    (hi : l[i]? = some a) : m[i]? = some a := by
  obtain ⟨rest, rfl⟩ := h
  rw [List.getElem?_append_left (List.getElem?_eq_some_iff.mp hi).1, hi]

namespace Extends

variable {r r' r'' : Registry}

theorem refl (r : Registry) : r.Extends r where
  categories := List.prefix_refl _
  productions := List.prefix_refl _
  rules := List.prefix_refl _
  judgments _ j hj := ⟨j, hj, .refl j⟩

theorem trans (h : r.Extends r') (h' : r'.Extends r'') : r.Extends r'' where
  categories := h.categories.trans h'.categories
  productions := h.productions.trans h'.productions
  rules := h.rules.trans h'.rules
  judgments id j hj := by
    obtain ⟨j', hj', he⟩ := h.judgments id j hj
    obtain ⟨j'', hj'', he'⟩ := h'.judgments id j' hj'
    exact ⟨j'', hj'', he.trans he'⟩

theorem category? (h : r.Extends r') {id : CategoryId} {c : Category}
    (hc : r.category? id = some c) : r'.category? id = some c :=
  getElem?_of_prefix h.categories hc

theorem production? (h : r.Extends r') {id : ProductionId} {p : Production}
    (hp : r.production? id = some p) : r'.production? id = some p :=
  getElem?_of_prefix h.productions hp

theorem isContext (h : r.Extends r') {id : CategoryId} (hc : (r.category? id).isSome) :
    r'.isContext id = r.isContext id := by
  obtain ⟨c, hc⟩ := Option.isSome_iff_exists.mp hc
  rw [Registry.isContext, Registry.isContext, hc, h.category? hc]

theorem freshBase (h : r.Extends r') {v : Variable} (hc : (r.category? v.category).isSome) :
    r'.freshBase v = r.freshBase v := by
  obtain ⟨c, hc⟩ := Option.isSome_iff_exists.mp hc
  rw [freshBase_of_category? hc, freshBase_of_category? (h.category? hc)]

theorem productionOf? (h : r.Extends r') {id : JudgmentId} {p : ProductionId}
    (hp : r.productionOf? id = some p) : r'.productionOf? id = some p := by
  obtain ⟨j, hj, hp⟩ := productionOf?_eq_some_iff.mp hp
  obtain ⟨j', hj', he⟩ := h.judgments id j hj
  exact productionOf?_eq_some_iff.mpr ⟨j', hj', he.production p hp⟩

theorem formOf? (h : r.Extends r') {id : JudgmentId} {f : Form} (hf : r.formOf? id = some f) :
    r'.formOf? id = some f := by
  obtain ⟨pid, p, hpid, hp, hform⟩ := formOf?_eq_some_iff.mp hf
  exact formOf?_eq_some_iff.mpr ⟨pid, p, h.productionOf? hpid, h.production? hp, hform⟩

theorem isSome_formOf? (h : r.Extends r') {id : JudgmentId} (hf : (r.formOf? id).isSome) :
    (r'.formOf? id).isSome := by
  obtain ⟨f, hf⟩ := Option.isSome_iff_exists.mp hf
  exact Option.isSome_of_eq_some (h.formOf? hf)

/-- The forms of a list of judgments are still those. -/
theorem forms (h : r.Extends r') {parts : List JudgmentId} {forms : List Form}
    (hf : List.Forall₂ (fun part f => r.formOf? part = some f) parts forms) :
    List.Forall₂ (fun part f => r'.formOf? part = some f) parts forms :=
  hf.imp fun _ _ => h.formOf?

theorem isSome_judgment? (h : r.Extends r') {id : JudgmentId} (hj : (r.judgment? id).isSome) :
    (r'.judgment? id).isSome := by
  obtain ⟨j, hj⟩ := Option.isSome_iff_exists.mp hj
  obtain ⟨j', hj', _⟩ := h.judgments id j hj
  exact Option.isSome_of_eq_some hj'

end Extends

/-! ## Accepted writes -/

variable {r r' : Registry}

/-- A write that changes one judgment, and may add to the other tables. -/
theorem extends_of_modify {id : JudgmentId} {f : Judgment → Judgment}
    (hjudgments : r'.judgments = (r.modifyJudgment id f).judgments)
    (hf : ∀ j, r.judgment? id = some j → j.Extends (f j))
    (hcategories : r.categories <+: r'.categories) (hproductions : r.productions <+: r'.productions)
    (hrules : r.rules <+: r'.rules) : r.Extends r' := by
  refine ⟨hcategories, hproductions, hrules, fun other j hj => ?_⟩
  have hj' : r'.judgment? other =
      (r.judgment? other).map fun j => if other = id then f j else j := by
    rw [← judgment?_modifyJudgment, judgment?, hjudgments, judgment?]
  rw [hj] at hj'
  by_cases he : other = id
  · subst he
    exact ⟨f j, by simpa using hj', hf j hj⟩
  · exact ⟨j, by simpa [he] using hj', .refl j⟩

theorem extends_of_step (h : Step r r') : r.Extends r' := by
  cases h with
  | addCategory h =>
    obtain ⟨_, _, rfl⟩ := addCategory_eq_ok_iff.mp h
    exact { Extends.refl r with categories := List.prefix_append _ _ }
  | reserve h =>
    obtain ⟨_, _, rfl⟩ := reserve_eq_ok_iff.mp h
    exact { Extends.refl r with
      judgments := fun id j hj => ⟨j, getElem?_of_prefix (List.prefix_append _ _) hj, .refl j⟩ }
  | @define id _ _ _ h =>
    obtain ⟨⟨j, hj, hnone⟩, _, _, rfl⟩ := define_eq_ok_iff.mp h
    refine extends_of_modify rfl ?_ (List.prefix_refl _) (List.prefix_append _ _)
      (List.prefix_refl _)
    intro j' hj'
    cases hj.symm.trans hj'
    exact { Judgment.Extends.refl j with production := fun p hp => by rw [hnone] at hp; cases hp }
  | assume h =>
    obtain ⟨_, _, rfl⟩ := assume_eq_ok_iff.mp h
    exact extends_of_modify rfl (fun j _ => { Judgment.Extends.refl j with })
      (List.prefix_refl _) (List.prefix_refl _) (List.prefix_refl _)
  | setOrigin h =>
    obtain ⟨_, rfl⟩ := setOrigin_eq_ok_iff.mp h
    exact extends_of_modify rfl (fun j _ => { Judgment.Extends.refl j with })
      (List.prefix_refl _) (List.prefix_refl _) (List.prefix_refl _)
  | addRule h =>
    obtain ⟨_, _, _, rfl⟩ := addRule_eq_ok_iff.mp h
    exact extends_of_modify rfl
      (fun j _ => { Judgment.Extends.refl j with rules := List.prefix_append _ _ })
      (List.prefix_refl _) (List.prefix_refl _) (List.prefix_append _ _)

theorem extends_of_steps (h : Steps r r') : r.Extends r' := by
  induction h with
  | refl => exact .refl r
  | tail _ hstep ih => exact ih.trans (extends_of_step hstep)

theorem extends_write (r : Registry) (w : Write) : r.Extends (r.write w) :=
  extends_of_steps (steps_write r w)

theorem extends_synthesize (w : Workspace) (span : Span) (parts : List JudgmentId) :
    w.registry.Extends (w.synthesize span parts).1.registry :=
  extends_of_steps (steps_synthesize w span parts)

end Registry
end Inference
