import Inference.Proofs.Registry.NameIndex
import Inference.Registry.Write
import Mathlib.Logic.Relation

/-!
# Inference.Proofs.Registry.Write

What each write to the declaration table does when it is accepted, and when it is; a write that is
refused leaves the table as it was. `Step` is one accepted write and `Steps` any number of them;
properties of tables are proved for one step and then hold after any number.

* `formOf?_eq_some_iff`: where the form of a judgment is found.
* `addCategory_eq_ok_iff`, …, `addRule_eq_ok_iff`: the accepted writes, one for each of the six.
* `addCategory_atomic`, …, `addRule_atomic`: the refused ones.
* `withLast`: the table with a new judgment that is being written; `define_withLast`, …, what the
  writes to it give.
* `Step`, `Steps`: one accepted write, and any number of them.
-/

namespace Inference
namespace Registry

theorem productionOf?_eq_some_iff {r : Registry} {id : JudgmentId} {p : ProductionId} :
    r.productionOf? id = some p ↔ ∃ j, r.judgment? id = some j ∧ j.production = some p :=
  Option.bind_eq_some_iff

theorem formOf?_eq_some_iff {r : Registry} {id : JudgmentId} {f : Form} :
    r.formOf? id = some f ↔
      ∃ pid p, r.productionOf? id = some pid ∧ r.production? pid = some p ∧ p.form = f := by
  simp only [formOf?, Option.map_eq_some_iff, Option.bind_eq_some_iff, ← exists_and_right,
    and_assoc]
  exact exists_comm

theorem exists_production_of_formOf? {r : Registry} {id : JudgmentId} {f : Form}
    (h : r.formOf? id = some f) : ∃ p ∈ r.productions, p.form = f := by
  obtain ⟨_, p, _, hp, hform⟩ := formOf?_eq_some_iff.mp h
  exact ⟨p, List.mem_of_getElem? hp, hform⟩

theorem exists_judgment_of_formOf? {r : Registry} {id : JudgmentId} {f : Form}
    (h : r.formOf? id = some f) : ∃ j, r.judgment? id = some j := by
  obtain ⟨_, _, hpid, _⟩ := formOf?_eq_some_iff.mp h
  obtain ⟨j, hj, _⟩ := productionOf?_eq_some_iff.mp hpid
  exact ⟨j, hj⟩

def newCategory (r : Registry) (name : String) (isContext : Bool) (span : Span) : Category :=
  { id := ⟨r.categories.length⟩, name, isContext, span }

def newJudgment (r : Registry) (name : String) (span : Span) : Judgment :=
  { id := ⟨r.judgments.length⟩, name, span }

def newProduction (r : Registry) (judgment : JudgmentId) (name : String) (form : Form) :
    Production :=
  { id := ⟨r.productions.length⟩, name, judgment, form }

def newRule (r : Registry) (name : String) (judgment : JudgmentId) (premises : List Clause)
    (conclusion : Clause) (span : Span) : Rule :=
  { id := ⟨r.rules.length⟩, name, judgment, premises, conclusion, span }

/-- All nonterminals of the form are over declared categories. -/
def Declares (r : Registry) (form : Form) : Prop :=
  ∀ nt ∈ form.nonterminals, (r.category? nt.val.category).isSome

theorem undeclaredIn?_eq_none_iff {r : Registry} {form : Form} :
    r.undeclaredIn? form = none ↔ r.Declares form := by
  simp [undeclaredIn?, Declares, List.find?_eq_none, Option.isSome_iff_ne_none]

instance (r : Registry) (form : Form) : Decidable (r.Declares form) :=
  decidable_of_iff _ undeclaredIn?_eq_none_iff

theorem danglingIn?_eq_none_iff {r : Registry} {clauses : List Clause} :
    r.danglingIn? clauses = none ↔ ∀ c ∈ clauses, (r.production? c.production).isSome := by
  simp [danglingIn?, List.find?_eq_none, Option.isSome_iff_ne_none]

theorem answer_eq_iff {α ε : Type} {r r' : Registry} {a b : α} :
    ((r, .ok a) : Registry × Except ε α) = (r', .ok b) ↔ b = a ∧ r' = r := by
  constructor
  · intro h; cases h; exact ⟨rfl, rfl⟩
  · rintro ⟨rfl, rfl⟩; rfl

theorem error_ne_ok {α ε : Type} {r r' : Registry} {e : ε} {a : α} :
    ((r, .error e) : Registry × Except ε α) ≠ (r', .ok a) := by
  intro h
  cases h

theorem addCategory_eq_ok_iff {r r' : Registry} {name : String} {isContext : Bool} {span : Span}
    {id : CategoryId} :
    r.addCategory name isContext span = (r', .ok id) ↔
      r.categoryId? name = none ∧ id = ⟨r.categories.length⟩ ∧
      r' = { r with
        categoryNames := r.categoryNames.insert name ⟨r.categories.length⟩
        categories := r.categories ++ [r.newCategory name isContext span] } := by
  simp only [addCategory, newCategory, categoryId?, ← NameIndex.contains_eq_false_iff]
  split
  · rename_i hs
    simp [hs]
  · rename_i hn
    simp only [hn, answer_eq_iff, true_and]

theorem reserve_eq_ok_iff {r r' : Registry} {name : String} {span : Span} {id : JudgmentId} :
    r.reserve name span = (r', .ok id) ↔
      r.judgmentId? name = none ∧ id = ⟨r.judgments.length⟩ ∧
      r' = { r with
        judgmentNames := r.judgmentNames.insert name ⟨r.judgments.length⟩
        judgments := r.judgments ++ [r.newJudgment name span] } := by
  simp only [reserve, newJudgment, judgmentId?, ← NameIndex.contains_eq_false_iff]
  split
  · rename_i hs
    simp [hs]
  · rename_i hn
    simp only [hn, answer_eq_iff, true_and]

theorem define_eq_ok_iff {r r' : Registry} {judgment : JudgmentId} {name : String} {form : Form}
    {id : ProductionId} :
    r.define judgment name form = (r', .ok id) ↔
      (∃ j, r.judgment? judgment = some j ∧ j.production = none) ∧ r.Declares form ∧
      id = ⟨r.productions.length⟩ ∧
      r' = { r with
        productions := r.productions ++ [r.newProduction judgment name form]
        judgments := r.judgments.modify judgment.index fun j =>
          { j with production := some ⟨r.productions.length⟩ } } := by
  simp only [define, newProduction, ← undeclaredIn?_eq_none_iff]
  split
  · rename_i hj; simp [hj]
  · rename_i j hj
    split
    · rename_i p hp; simp [hj, hp]
    · rename_i hp
      split
      · rename_i nt hnt; simp [hnt]
      · rename_i hnt
        simp only [hj, hp, hnt, answer_eq_iff, Option.some.injEq, exists_eq_left', true_and]
        rfl

theorem assume_eq_ok_iff {r r' : Registry} {judgment : JudgmentId}
    {assumption : Option Nonterminal} :
    r.assume judgment assumption = (r', .ok ()) ↔
      (∀ nt, assumption = some nt → (r.category? nt.val.category).isSome) ∧
      (r.judgment? judgment).isSome ∧
      r' = r.modifyJudgment judgment fun j => { j with assumption } := by
  simp only [assume]
  split
  · rename_i nt hnt
    obtain ⟨rfl, hc⟩ := Option.filter_eq_some_iff.mp hnt
    simp only [error_ne_ok, Option.some.injEq, forall_eq', false_iff, not_and]
    intro hs
    rw [Option.isNone_iff_eq_none.mp hc] at hs
    cases hs
  · rename_i hnt
    have hdecl : ∀ nt, assumption = some nt → (r.category? nt.val.category).isSome := by
      rintro nt rfl
      rw [Option.filter_eq_none_iff] at hnt
      simpa [Option.isSome_iff_ne_none] using hnt nt rfl
    split
    · rename_i hj; simp [hj]
    · rename_i j hj
      simp only [hj, answer_eq_iff, Option.isSome_some, true_and]
      exact ⟨fun h => ⟨hdecl, h⟩, fun h => h.2⟩

theorem setOrigin_eq_ok_iff {r r' : Registry} {judgment : JudgmentId} {origin : Origin} :
    r.setOrigin judgment origin = (r', .ok ()) ↔
      (r.judgment? judgment).isSome ∧
      r' = r.modifyJudgment judgment fun j => { j with origin } := by
  simp only [setOrigin]
  split
  · rename_i hj; simp [hj]
  · rename_i j hj
    simp only [hj, answer_eq_iff, Option.isSome_some, true_and]

theorem addRule_eq_ok_iff {r r' : Registry} {name : String} {judgment : JudgmentId}
    {premises : List Clause} {conclusion : Clause} {span : Span} {id : RuleId} :
    r.addRule name judgment premises conclusion span = (r', .ok id) ↔
      (r.judgment? judgment).isSome ∧
      (∀ c ∈ premises ++ [conclusion], (r.production? c.production).isSome) ∧
      id = ⟨r.rules.length⟩ ∧
      r' = { r with
        rules := r.rules ++ [r.newRule name judgment premises conclusion span]
        judgments := r.judgments.modify judgment.index fun j =>
          { j with rules := j.rules ++ [⟨r.rules.length⟩] } } := by
  simp only [addRule, newRule, ← danglingIn?_eq_none_iff]
  split
  · rename_i hj; simp [hj]
  · rename_i j hj
    split
    · rename_i c hc; simp [hc]
    · rename_i hc
      simp only [hj, hc, answer_eq_iff, Option.isSome_some, true_and]
      rfl

/-- The table is as it was if the answer is an error. -/
def Atomic {α ε : Type} (r : Registry) (answer : Registry × Except ε α) : Prop :=
  ∀ e, answer.2 = .error e → answer.1 = r

theorem atomic_error {α ε : Type} (r : Registry) (e : ε) :
    r.Atomic ((r, .error e) : Registry × Except ε α) := fun _ _ => rfl

theorem atomic_ok {α ε : Type} (r r' : Registry) (a : α) :
    r.Atomic ((r', .ok a) : Registry × Except ε α) := fun _ h => by cases h

/-- A write that is all or nothing is refused with the table as it was, or accepted. -/
theorem Atomic.cases {α ε : Type} {r : Registry} {answer : Registry × Except ε α}
    (h : r.Atomic answer) :
    (∃ e, answer = (r, .error e)) ∨ ∃ r' a, answer = (r', .ok a) := by
  obtain ⟨r', answer⟩ := answer
  cases answer with
  | error e => exact .inl ⟨e, Prod.ext (h e rfl) rfl⟩
  | ok a => exact .inr ⟨r', a, rfl⟩

theorem addCategory_atomic (r : Registry) (name : String) (isContext : Bool) (span : Span) :
    r.Atomic (r.addCategory name isContext span) := by
  rw [addCategory]
  split
  · exact atomic_error r _
  · exact atomic_ok r _ _

theorem reserve_atomic (r : Registry) (name : String) (span : Span) :
    r.Atomic (r.reserve name span) := by
  rw [reserve]
  split
  · exact atomic_error r _
  · exact atomic_ok r _ _

theorem define_atomic (r : Registry) (judgment : JudgmentId) (name : String) (form : Form) :
    r.Atomic (r.define judgment name form) := by
  rw [define]
  split
  · exact atomic_error r _
  split
  · exact atomic_error r _
  split
  · exact atomic_error r _
  · exact atomic_ok r _ _

theorem assume_atomic (r : Registry) (judgment : JudgmentId) (assumption : Option Nonterminal) :
    r.Atomic (r.assume judgment assumption) := by
  rw [assume]
  split
  · exact atomic_error r _
  split
  · exact atomic_error r _
  · exact atomic_ok r _ _

theorem setOrigin_atomic (r : Registry) (judgment : JudgmentId) (origin : Origin) :
    r.Atomic (r.setOrigin judgment origin) := by
  rw [setOrigin]
  split
  · exact atomic_error r _
  · exact atomic_ok r _ _

theorem addRule_atomic (r : Registry) (name : String) (judgment : JudgmentId)
    (premises : List Clause) (conclusion : Clause) (span : Span) :
    r.Atomic (r.addRule name judgment premises conclusion span) := by
  rw [addRule]
  split
  · exact atomic_error r _
  split
  · exact atomic_error r _
  · exact atomic_ok r _ _

/-- The handle that the next judgment gets. -/
def enteredId (r : Registry) : JudgmentId := ⟨r.judgments.length⟩

theorem modify_append_length {α : Type} (l : List α) (a : α) (f : α → α) :
    (l ++ [a]).modify l.length f = l ++ [f a] := by
  induction l with
  | nil => rfl
  | cons b l ih => simp [ih]

/-- The table between two of the writes that enter a judgment, when `j` is the new judgment. -/
def withLast (r : Registry) (j : Judgment) : Registry :=
  { r with
    judgmentNames := r.judgmentNames.insert j.name r.enteredId
    judgments := r.judgments ++ [j] }

theorem withLast_judgment? (r : Registry) (j : Judgment) :
    (r.withLast j).judgment? r.enteredId = some j := by
  simp [withLast, judgment?, enteredId]

theorem withLast_modify {f : Judgment → Judgment} (r : Registry) (j : Judgment)
    (hname : (f j).name = j.name) :
    (r.withLast j).modifyJudgment r.enteredId f = r.withLast (f j) := by
  simp [withLast, modifyJudgment, enteredId, modify_append_length, hname]

theorem reserve_withLast {r : Registry} {name : String} (h : r.judgmentId? name = none)
    (span : Span) :
    r.reserve name span = (r.withLast (r.newJudgment name span), .ok r.enteredId) :=
  reserve_eq_ok_iff.mpr ⟨h, rfl, rfl⟩

theorem define_withLast {r : Registry} {j : Judgment} (hj : j.production = none) (name : String)
    {form : Form} (h : r.Declares form) :
    (r.withLast j).define r.enteredId name form =
      (withLast { r with productions := r.productions ++ [r.newProduction r.enteredId name form] }
        { j with production := some ⟨r.productions.length⟩ }, .ok ⟨r.productions.length⟩) := by
  refine define_eq_ok_iff.mpr ⟨⟨j, withLast_judgment? r j, hj⟩, h, rfl, ?_⟩
  simp [withLast, enteredId, modify_append_length, newProduction]

theorem assume_withLast {r : Registry} (j : Judgment) {assumption : Option Nonterminal}
    (h : ∀ nt, assumption = some nt → (r.category? nt.val.category).isSome) :
    (r.withLast j).assume r.enteredId assumption =
      (r.withLast { j with assumption }, .ok ()) := by
  refine assume_eq_ok_iff.mpr ⟨h, Option.isSome_of_eq_some (withLast_judgment? r j), ?_⟩
  rw [withLast_modify r j rfl]

theorem setOrigin_withLast (r : Registry) (j : Judgment) (origin : Origin) :
    (r.withLast j).setOrigin r.enteredId origin = (r.withLast { j with origin }, .ok ()) := by
  refine setOrigin_eq_ok_iff.mpr ⟨Option.isSome_of_eq_some (withLast_judgment? r j), ?_⟩
  rw [withLast_modify r j rfl]

theorem addRule_withLast {r : Registry} (j : Judgment) (name : String) (span : Span)
    {premises : List Clause} {conclusion : Clause}
    (h : ∀ c ∈ premises ++ [conclusion], (r.production? c.production).isSome) :
    (r.withLast j).addRule name r.enteredId premises conclusion span =
      (withLast
        { r with rules := r.rules ++ [r.newRule name r.enteredId premises conclusion span] }
        { j with rules := j.rules ++ [⟨r.rules.length⟩] }, .ok ⟨r.rules.length⟩) := by
  refine addRule_eq_ok_iff.mpr
    ⟨Option.isSome_of_eq_some (withLast_judgment? r j), h, rfl, ?_⟩
  simp [withLast, enteredId, modify_append_length, newRule]

/-! ## One accepted write, and many -/

inductive Step (r r' : Registry) : Prop where
  | addCategory {name : String} {isContext : Bool} {span : Span} {id : CategoryId} :
      r.addCategory name isContext span = (r', .ok id) → Step r r'
  | reserve {name : String} {span : Span} {id : JudgmentId} :
      r.reserve name span = (r', .ok id) → Step r r'
  | define {judgment : JudgmentId} {name : String} {form : Form} {id : ProductionId} :
      r.define judgment name form = (r', .ok id) → Step r r'
  | assume {judgment : JudgmentId} {assumption : Option Nonterminal} :
      r.assume judgment assumption = (r', .ok ()) → Step r r'
  | setOrigin {judgment : JudgmentId} {origin : Origin} :
      r.setOrigin judgment origin = (r', .ok ()) → Step r r'
  | addRule {name : String} {judgment : JudgmentId} {premises : List Clause} {conclusion : Clause}
      {span : Span} {id : RuleId} :
      r.addRule name judgment premises conclusion span = (r', .ok id) → Step r r'

/-- Any number of accepted writes. -/
abbrev Steps : Registry → Registry → Prop := Relation.ReflTransGen Step

/-- Such a write is made of at most one step. -/
theorem steps_of_atomic {α ε : Type} {r : Registry} {answer : Registry × Except ε α}
    (h : r.Atomic answer) (hstep : ∀ r' a, answer = (r', .ok a) → Step r r') :
    Steps r answer.1 := by
  rcases h.cases with ⟨e, rfl⟩ | ⟨r', a, rfl⟩
  · exact .refl
  · exact .single (hstep r' a rfl)

theorem steps_addCategory (r : Registry) (name : String) (isContext : Bool) (span : Span) :
    Steps r (r.addCategory name isContext span).1 :=
  steps_of_atomic (r.addCategory_atomic name isContext span) fun _ _ => .addCategory

theorem steps_reserve (r : Registry) (name : String) (span : Span) :
    Steps r (r.reserve name span).1 :=
  steps_of_atomic (r.reserve_atomic name span) fun _ _ => .reserve

theorem steps_define (r : Registry) (judgment : JudgmentId) (name : String) (form : Form) :
    Steps r (r.define judgment name form).1 :=
  steps_of_atomic (r.define_atomic judgment name form) fun _ _ => .define

theorem steps_assume (r : Registry) (judgment : JudgmentId) (assumption : Option Nonterminal) :
    Steps r (r.assume judgment assumption).1 :=
  steps_of_atomic (r.assume_atomic judgment assumption) fun _ _ => .assume

theorem steps_setOrigin (r : Registry) (judgment : JudgmentId) (origin : Origin) :
    Steps r (r.setOrigin judgment origin).1 :=
  steps_of_atomic (r.setOrigin_atomic judgment origin) fun _ _ => .setOrigin

theorem steps_addRule (r : Registry) (name : String) (judgment : JudgmentId)
    (premises : List Clause) (conclusion : Clause) (span : Span) :
    Steps r (r.addRule name judgment premises conclusion span).1 :=
  steps_of_atomic (r.addRule_atomic name judgment premises conclusion span) fun _ _ => .addRule

end Registry
end Inference
