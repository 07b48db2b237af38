import Inference.Proofs.Registry.Declaration
import Inference.Proofs.Registry.Extends
import Inference.Proofs.Registry.Lookup

/-!
# Inference.Proofs.Registry.Persistence

What is found in a table is found there for good. A handle or a name that has been given out leads
to the same entry after any further writes, and a write that is refused might as well not have been
made. Conjunctions and declarations are sequences of single writes, so this goes for them as well.

* `Extends.categoryNamed?`, `Extends.judgmentNamed?`: names lead to what they led to.
* `Keeps`: all that is found in one table is found in another; `Extends.keeps`.
* `Refuses`: a single write is answered with an error.
* `Written`: one table is made from another by single writes; `written_of_steps`.
* `Reachable.writes_keep`: all of it, for the tables that a program can arrive at.
-/

namespace Inference

/-- The six writes that all others are made of. -/
def Write.isSingle : Write → Bool
  | .register .. | .synthesize .. => false
  | _ => true

namespace Registry

variable {r r' : Registry}

theorem Extends.categoryId? (h : r.Extends r') (hr : r.Consistent) (hr' : r'.Consistent)
    {name : String} {id : CategoryId} (hid : r.categoryId? name = some id) :
    r'.categoryId? name = some id := by
  obtain ⟨c, hc, hname⟩ := Option.map_eq_some_iff.mp (hr.categoryId?_eq_some_iff.mp hid)
  rw [hr'.categoryId?_eq_some_iff, h.category? hc, Option.map_some, hname]

theorem Extends.categoryNamed? (h : r.Extends r') (hr : r.Consistent) (hr' : r'.Consistent)
    {name : String} {c : Category} (hc : r.categoryNamed? name = some c) :
    r'.categoryNamed? name = some c := by
  obtain ⟨id, hid, hc⟩ := Option.bind_eq_some_iff.mp hc
  exact Option.bind_eq_some_iff.mpr ⟨id, h.categoryId? hr hr' hid, h.category? hc⟩

theorem Extends.judgmentId?_eq_some_iff (h : r.Extends r') (hr : r.Consistent)
    (hr' : r'.Consistent) {name : String} {id : JudgmentId} (hknown : (r.judgment? id).isSome) :
    r'.judgmentId? name = some id ↔ r.judgmentId? name = some id := by
  obtain ⟨j, hj⟩ := Option.isSome_iff_exists.mp hknown
  obtain ⟨j', hj', he⟩ := h.judgments id j hj
  rw [hr.judgmentId?_eq_some_iff, hr'.judgmentId?_eq_some_iff, hj, hj', Option.map_some,
    Option.map_some, he.name]

theorem Consistent.isSome_of_judgmentId? (hr : r.Consistent) {name : String} {id : JudgmentId}
    (h : r.judgmentId? name = some id) : (r.judgment? id).isSome := by
  obtain ⟨j, hj, _⟩ := Option.map_eq_some_iff.mp (hr.judgmentId?_eq_some_iff.mp h)
  exact Option.isSome_of_eq_some hj

theorem Extends.judgmentId? (h : r.Extends r') (hr : r.Consistent) (hr' : r'.Consistent)
    {name : String} {id : JudgmentId} (hid : r.judgmentId? name = some id) :
    r'.judgmentId? name = some id :=
  (h.judgmentId?_eq_some_iff hr hr' (hr.isSome_of_judgmentId? hid)).mpr hid

theorem Extends.judgmentNamed? (h : r.Extends r') (hr : r.Consistent) (hr' : r'.Consistent)
    {name : String} {j : Judgment} (hj : r.judgmentNamed? name = some j) :
    ∃ j', r'.judgmentNamed? name = some j' ∧ j.Extends j' := by
  obtain ⟨id, hid, hj⟩ := Option.bind_eq_some_iff.mp hj
  obtain ⟨j', hj', he⟩ := h.judgments id j hj
  exact ⟨j', Option.bind_eq_some_iff.mpr ⟨id, h.judgmentId? hr hr' hid, hj'⟩, he⟩

/-- All that is found in one table is found in the other: entries under their handles and under
their names, the productions and the forms of judgments, and which categories are contexts. Only a
judgment may be a later version of the one it was. -/
structure Keeps (r r' : Registry) : Prop where
  category? : ∀ id c, r.category? id = some c → r'.category? id = some c
  production? : ∀ id p, r.production? id = some p → r'.production? id = some p
  rule? : ∀ id rule, r.rule? id = some rule → r'.rule? id = some rule
  judgment? : ∀ id j, r.judgment? id = some j → ∃ j', r'.judgment? id = some j' ∧ j.Extends j'
  categoryId? : ∀ name id, r.categoryId? name = some id → r'.categoryId? name = some id
  categoryNamed? : ∀ name c, r.categoryNamed? name = some c → r'.categoryNamed? name = some c
  judgmentNamed? : ∀ name j, r.judgmentNamed? name = some j →
    ∃ j', r'.judgmentNamed? name = some j' ∧ j.Extends j'
  judgmentId? : ∀ name id, r.judgmentId? name = some id → r'.judgmentId? name = some id
  isContext : ∀ id, (r.category? id).isSome → r'.isContext id = r.isContext id
  productionOf? : ∀ id p, r.productionOf? id = some p → r'.productionOf? id = some p
  formOf? : ∀ id f, r.formOf? id = some f → r'.formOf? id = some f

theorem Extends.keeps (h : r.Extends r') (hr : r.Consistent) (hr' : r'.Consistent) :
    r.Keeps r' where
  category? _ _ := h.category?
  production? _ _ := h.production?
  rule? _ _ := getElem?_of_prefix h.rules
  judgment? := h.judgments
  categoryId? _ _ := h.categoryId? hr hr'
  categoryNamed? _ _ := h.categoryNamed? hr hr'
  judgmentNamed? _ _ := h.judgmentNamed? hr hr'
  judgmentId? _ _ := h.judgmentId? hr hr'
  isContext _ := h.isContext
  productionOf? _ _ := h.productionOf?
  formOf? _ _ := h.formOf?

theorem keeps_of_steps (hr : r.Consistent) (h : Steps r r') : r.Keeps r' :=
  (extends_of_steps h).keeps hr (consistent_of_steps hr h)

/-- A single write is answered with an error. -/
inductive Refuses (r : Registry) : Write → DeclarationError → Prop where
  | addCategory {name : String} {isContext : Bool} {span : Span} {e : DeclarationError} :
      (r.addCategory name isContext span).2 = .error e →
      Refuses r (.addCategory name isContext span) e
  | reserve {name : String} {span : Span} {e : DeclarationError} :
      (r.reserve name span).2 = .error e → Refuses r (.reserve name span) e
  | define {judgment : JudgmentId} {name : String} {form : Form} {e : DeclarationError} :
      (r.define judgment name form).2 = .error e → Refuses r (.define judgment name form) e
  | assume {judgment : JudgmentId} {assumption : Option Nonterminal} {e : DeclarationError} :
      (r.assume judgment assumption).2 = .error e → Refuses r (.assume judgment assumption) e
  | setOrigin {judgment : JudgmentId} {origin : Origin} {e : DeclarationError} :
      (r.setOrigin judgment origin).2 = .error e → Refuses r (.setOrigin judgment origin) e
  | addRule {name : String} {judgment : JudgmentId} {premises : List Clause} {conclusion : Clause}
      {span : Span} {e : DeclarationError} :
      (r.addRule name judgment premises conclusion span).2 = .error e →
      Refuses r (.addRule name judgment premises conclusion span) e

/-- A single write that is refused leaves the table as it was. -/
theorem write_of_refuses {w : Write} {e : DeclarationError} (h : r.Refuses w e) :
    r.write w = r := by
  cases h with
  | addCategory h => exact r.addCategory_atomic _ _ _ e h
  | reserve h => exact r.reserve_atomic _ _ e h
  | define h => exact r.define_atomic _ _ _ e h
  | assume h => exact r.assume_atomic _ _ e h
  | setOrigin h => exact r.setOrigin_atomic _ _ e h
  | addRule h => exact r.addRule_atomic _ _ _ _ _ e h

theorem run_append (r : Registry) (writes writes' : List Write) :
    r.run (writes ++ writes') = (r.run writes).run writes' := List.foldl_append

theorem run_of_refuses {earlier : List Write} {w : Write} {e : DeclarationError}
    (h : (r.run earlier).Refuses w e) (later : List Write) :
    r.run (earlier ++ w :: later) = r.run (earlier ++ later) := by
  have hfirst : (r.run earlier).run (w :: later) = ((r.run earlier).write w).run later := rfl
  rw [run_append, run_append, hfirst, write_of_refuses h]

def Written (r r' : Registry) : Prop :=
  ∃ writes : List Write, (∀ w ∈ writes, w.isSingle = true) ∧ r.run writes = r'

theorem exists_write_of_step (h : Step r r') : ∃ w : Write, w.isSingle = true ∧ r.write w = r' := by
  cases h with
  | @addCategory name isContext span _ h =>
    exact ⟨.addCategory name isContext span, rfl, by rw [write, h]⟩
  | @reserve name span _ h => exact ⟨.reserve name span, rfl, by rw [write, h]⟩
  | @define judgment name form _ h =>
    exact ⟨.define judgment name form, rfl, by rw [write, h]⟩
  | @assume judgment assumption h =>
    exact ⟨.assume judgment assumption, rfl, by rw [write, h]⟩
  | @setOrigin judgment origin h =>
    exact ⟨.setOrigin judgment origin, rfl, by rw [write, h]⟩
  | @addRule name judgment premises conclusion span _ h =>
    exact ⟨.addRule name judgment premises conclusion span, rfl, by rw [write, h]⟩

theorem written_of_steps (h : Steps r r') : r.Written r' := by
  induction h with
  | refl => exact ⟨[], by simp, rfl⟩
  | tail _ hstep ih =>
    obtain ⟨writes, hsingle, rfl⟩ := ih
    obtain ⟨w, hw, rfl⟩ := exists_write_of_step hstep
    exact ⟨writes ++ [w], by simpa [or_imp, forall_and] using ⟨hsingle, hw⟩, run_append ..⟩

/-! ## Tables of programs -/

/-- In every table that a program can arrive at, and whatever is written to it afterwards: a single
write that is refused leaves the table exactly as it was, so the writes around it do what they do
without it; all that is found before any writes is found after them, under its handle and under its
name; and conjunctions and declarations, accepted or refused, are made of single writes. -/
theorem Reachable.writes_keep (h : r.Reachable) :
    (∀ earlier w e, (r.run earlier).Refuses w e → (r.run earlier).write w = r.run earlier) ∧
    (∀ earlier w e later, (r.run earlier).Refuses w e →
      r.run (earlier ++ w :: later) = r.run (earlier ++ later)) ∧
    (∀ writes, r.Keeps (r.run writes)) ∧
    (∀ w, r.Written (r.write w)) ∧
    ∀ d, r.Written (r.declare d).1 :=
  ⟨fun _ _ _ => write_of_refuses, fun _ _ _ later hrefused => run_of_refuses hrefused later,
    fun writes => keeps_of_steps h.consistent (steps_run r writes),
    fun w => written_of_steps (steps_write r w),
    fun d => written_of_steps (steps_declare r d)⟩

/-- A second form for the typing judgment is refused between a rule and a conjunction. -/
theorem writes_keep_sample : ∃ (earlier later : List Write) (w : Write) (form : Form),
    sample.Reachable ∧ (sample.run earlier).Refuses w (.alreadyDefined ⟨0⟩) ∧
    (sample.run earlier).write w = sample.run earlier ∧
    sample.run (earlier ++ w :: later) = sample.run (earlier ++ later) ∧
    sample.formOf? ⟨0⟩ = some form ∧ (sample.run (earlier ++ later)).formOf? ⟨0⟩ = some form ∧
    (sample.run (earlier ++ later)).judgmentId? "halts" = some ⟨1⟩ ∧
    sample.rule? ⟨0⟩ = none ∧ ((sample.run (earlier ++ later)).rule? ⟨1⟩).isSome := by
  let rule : Write := .addRule "value" ⟨1⟩ [] { elements := [], span := {}, production := ⟨1⟩ } {}
  let conjunction : Write := .synthesize {} {} {} [⟨0⟩, ⟨1⟩]
  have hrefused : (sample.run [rule]).Refuses (.define ⟨0⟩ "typing" (.empty {}))
      (.alreadyDefined ⟨0⟩) := .define (by decide +kernel)
  obtain ⟨hsame, hunmade, hkeeps, _, _⟩ := sample_reachable.writes_keep
  have hkept := hkeeps ([rule] ++ [conjunction])
  exact ⟨[rule], [conjunction], _, _, sample_reachable, hrefused, hsame _ _ _ hrefused,
    hunmade _ _ _ _ hrefused, rfl,
    hkept.formOf? ⟨0⟩ _ rfl, hkept.judgmentId? "halts" ⟨1⟩ (by decide +kernel), rfl,
    by decide +kernel⟩

end Registry
end Inference
