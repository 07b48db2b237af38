import Inference.Proofs.Check.Severity
import Inference.Proofs.Registry.Consistent

/-!
# Inference.Proofs.Registry.Lookup

What is found in a consistent table: every entry at its own handle and under its own name, every
production from its judgment and back, and the rules of a judgment in the order they were declared.

* `categoryId?_eq_some_iff`, `judgmentId?_eq_some_iff`: what a name leads to.
* `categoryNamed?_map_id`, `judgmentNamed?_map_id`: the entries found by name.
* `rulesFor_eq_filter`, `existsUnique_productionOf?`: what rules and productions belong to.
* `checkAll_recoverable`: checking a consistent table finds nothing fatal.
* `Reachable.representation`: all of it for the tables that a program can arrive at.
-/

namespace Inference
namespace Registry

open Checker

variable {r : Registry}

theorem Consistent.category?_id (hr : r.Consistent) {id : CategoryId} {c : Category}
    (h : r.category? id = some c) : c.id = id :=
  hr.category_ids.eq_of_getElem? h

theorem Consistent.judgment?_id (hr : r.Consistent) {id : JudgmentId} {j : Judgment}
    (h : r.judgment? id = some j) : j.id = id :=
  hr.judgment_ids.eq_of_getElem? h

theorem Consistent.production?_id (hr : r.Consistent) {id : ProductionId} {p : Production}
    (h : r.production? id = some p) : p.id = id :=
  hr.production_ids.eq_of_getElem? h

theorem Consistent.rule?_id (hr : r.Consistent) {id : RuleId} {rule : Rule}
    (h : r.rule? id = some rule) : rule.id = id :=
  hr.rule_ids.eq_of_getElem? h

theorem Consistent.judgment?_of_mem (hr : r.Consistent) {j : Judgment} (h : j ∈ r.judgments) :
    r.judgment? j.id = some j := by
  obtain ⟨i, hi⟩ := List.mem_iff_getElem?.mp h
  have hid : j.id = ⟨i⟩ := hr.judgment?_id hi
  rw [hid]
  exact hi

theorem Consistent.rule?_of_mem (hr : r.Consistent) {rule : Rule} (h : rule ∈ r.rules) :
    r.rule? rule.id = some rule := by
  obtain ⟨i, hi⟩ := List.mem_iff_getElem?.mp h
  have hid : rule.id = ⟨i⟩ := hr.rule?_id hi
  rw [hid]
  exact hi

theorem Consistent.isSome_rule? (hr : r.Consistent) {id : JudgmentId} {j : Judgment}
    (hj : r.judgment? id = some j) {rid : RuleId} (h : rid ∈ j.rules) : (r.rule? rid).isSome := by
  rw [hr.judgment_rules id j hj] at h
  obtain ⟨rule, hrule, rfl⟩ := List.mem_map.mp h
  rw [hr.rule?_of_mem (List.mem_of_mem_filter hrule)]
  rfl

theorem Consistent.isSome_production? (hr : r.Consistent) {id : JudgmentId} {j : Judgment}
    (hj : r.judgment? id = some j) {p : ProductionId} (hp : j.production = some p) :
    (r.production? p).isSome := by
  have hof : r.productionOf? id = some p := by rw [productionOf?, hj]; exact hp
  have h := (hr.production_iff id p).mp hof
  exact Option.isSome_map ▸ Option.isSome_of_eq_some h

theorem Consistent.category_names (hr : r.Consistent) : (r.categories.map (·.name)).Nodup :=
  hr.category_index.nodup

theorem Consistent.judgment_names (hr : r.Consistent) : (r.judgments.map (·.name)).Nodup :=
  hr.judgment_index.nodup

theorem Consistent.categoryId?_eq_some_iff (hr : r.Consistent) {name : String} {id : CategoryId} :
    r.categoryId? name = some id ↔ (r.category? id).map (·.name) = some name := by
  rw [categoryId?, hr.category_index name id, List.getElem?_map, category?]

theorem Consistent.judgmentId?_eq_some_iff (hr : r.Consistent) {name : String} {id : JudgmentId} :
    r.judgmentId? name = some id ↔ (r.judgment? id).map (·.name) = some name := by
  rw [judgmentId?, hr.judgment_index name id, List.getElem?_map, judgment?]

/-- A handle that is always found leads to an entry with that handle. -/
theorem map_bind_eq {α β : Type} {handle : Option β} {find : β → Option α} {idOf : α → β}
    (hid : ∀ b a, find b = some a → idOf a = b)
    (hfound : ∀ b, handle = some b → (find b).isSome) :
    (handle.bind find).map idOf = handle := by
  cases handle with
  | none => rfl
  | some b =>
    obtain ⟨a, ha⟩ := Option.isSome_iff_exists.mp (hfound b rfl)
    rw [Option.bind_some, ha, Option.map_some, hid b a ha]

theorem Consistent.categoryNamed?_map_id (hr : r.Consistent) (name : String) :
    (r.categoryNamed? name).map (·.id) = r.categoryId? name := by
  refine map_bind_eq (fun _ _ => hr.category?_id) fun id hid => ?_
  rw [← Option.isSome_map, hr.categoryId?_eq_some_iff.mp hid, Option.isSome_some]

theorem Consistent.judgmentNamed?_map_id (hr : r.Consistent) (name : String) :
    (r.judgmentNamed? name).map (·.id) = r.judgmentId? name := by
  refine map_bind_eq (fun _ _ => hr.judgment?_id) fun id hid => ?_
  rw [← Option.isSome_map, hr.judgmentId?_eq_some_iff.mp hid, Option.isSome_some]

/-- Every production is that of exactly one judgment. -/
theorem Consistent.existsUnique_productionOf? (hr : r.Consistent) {p : ProductionId}
    (hp : (r.production? p).isSome) : ∃! id, r.productionOf? id = some p := by
  obtain ⟨found, hfound⟩ := Option.isSome_iff_exists.mp hp
  refine ⟨found.judgment, (hr.production_iff _ _).mpr (by rw [hfound]; rfl), fun id hid => ?_⟩
  have hjudgment := (hr.production_iff id p).mp hid
  rw [hfound] at hjudgment
  exact (Option.some.inj hjudgment).symm

theorem mem_rules_of_mem_rulesFor {id : JudgmentId} {rule : Rule} (h : rule ∈ r.rulesFor id) :
    rule ∈ r.rules := by
  rw [rulesFor] at h
  split at h
  · obtain ⟨rid, _, hrule⟩ := List.mem_filterMap.mp h
    exact List.mem_of_getElem? hrule
  · cases h

/-- The rules found for a judgment are the rules of the table that introduce it. -/
theorem Consistent.rulesFor_eq_filter (hr : r.Consistent) (id : JudgmentId) :
    r.rulesFor id = r.rules.filter (·.judgment = id) := by
  rw [rulesFor]
  split
  · rename_i j hj
    rw [hr.judgment_rules id j hj, List.filterMap_map]
    have hfound : ∀ rule ∈ r.rules.filter (·.judgment = id), r.rule? rule.id = some rule :=
      fun rule hrule => hr.rule?_of_mem (List.mem_of_mem_filter hrule)
    exact (List.filterMap_congr hfound).trans List.filterMap_some
  · rename_i hnone
    refine (List.filter_eq_nil_iff.mpr fun rule hrule he => ?_).symm
    have hsome := hr.rule_judgments rule hrule
    rw [of_decide_eq_true he, hnone] at hsome
    cases hsome

theorem Consistent.pairwise_rules (hr : r.Consistent) :
    r.rules.Pairwise fun a b => a.id.index < b.id.index := by
  have hids : (r.rules.map (·.id)).Pairwise fun a b => a.index < b.index := by
    rw [hr.rule_ids]
    exact List.pairwise_map.mpr List.pairwise_lt_range
  rwa [List.pairwise_map] at hids

theorem Consistent.pairwise_rulesFor (hr : r.Consistent) (id : JudgmentId) :
    (r.rulesFor id).Pairwise fun a b => a.id.index < b.id.index := by
  rw [hr.rulesFor_eq_filter]
  exact hr.pairwise_rules.filter _

theorem Consistent.judgmentProblems_recoverable (hr : r.Consistent) {id : JudgmentId}
    (h : (r.judgment? id).isSome) : Recoverable (judgmentProblems r id) := by
  obtain ⟨j, hj⟩ := Option.isSome_iff_exists.mp h
  rw [judgmentProblems, hj]
  refine recoverable_append
    (formProblems_recoverable fun p hp => hr.isSome_production? hj hp) fun p hp => ?_
  obtain ⟨rule, hrule, hp⟩ := List.mem_flatMap.mp hp
  exact ruleProblems_recoverable j (hr.clauses_known rule (mem_rules_of_mem_rulesFor hrule)) p hp

/-- Checking a consistent table finds nothing fatal. -/
theorem Consistent.checkAll_recoverable (hr : r.Consistent) {d : Diagnostic}
    (h : d ∈ r.checkAll.1) : d.severity = .recoverable := by
  rw [checkAll_eq] at h
  obtain ⟨p, hp, rfl⟩ := List.mem_map.mp h
  obtain ⟨j, hj, hp⟩ := List.mem_flatMap.mp hp
  exact hr.judgmentProblems_recoverable (Option.isSome_of_eq_some (hr.judgment?_of_mem hj)) p hp

/-! ## The tables of programs -/

/-- In every table that a program can arrive at, by writes that are accepted or refused: entries
stand at their handles; no two categories and no two judgments have one name, the indexes are in
step with the names, and a name leads to the entry that has it; a judgment has a production exactly
when the production names the judgment, and every production is that of one judgment; the rules
found for a judgment are those that introduce it, in the order of their handles; forms and
assumptions are over declared categories and clauses over defined productions. So checking the table
finds nothing fatal. -/
theorem Reachable.representation (h : r.Reachable) :
    ((∀ id c, r.category? id = some c → c.id = id) ∧
      (∀ id j, r.judgment? id = some j → j.id = id) ∧
      (∀ id p, r.production? id = some p → p.id = id) ∧
      (∀ id rule, r.rule? id = some rule → rule.id = id)) ∧
    ((r.categories.map (·.name)).Nodup ∧ (r.judgments.map (·.name)).Nodup ∧
      (∀ name id, r.categoryNames.get? name = some id ↔
        (r.category? id).map (·.name) = some name) ∧
      (∀ name id, r.judgmentNames.get? name = some id ↔
        (r.judgment? id).map (·.name) = some name) ∧
      (∀ name id, (r.categoryNamed? name).map (·.id) = some id ↔
        (r.category? id).map (·.name) = some name) ∧
      (∀ name id, (r.judgmentNamed? name).map (·.id) = some id ↔
        (r.judgment? id).map (·.name) = some name) ∧
      (∀ name id, r.judgmentId? name = some id ↔
        (r.judgment? id).map (·.name) = some name)) ∧
    ((∀ id p, r.productionOf? id = some p ↔
        (r.production? p).map (·.judgment) = some id) ∧
      (∀ p, (r.production? p).isSome → ∃! id, r.productionOf? id = some p)) ∧
    (∀ id, (∀ rule, rule ∈ r.rulesFor id ↔ rule ∈ r.rules ∧ rule.judgment = id) ∧
      (r.rulesFor id).Pairwise fun a b => a.id.index < b.id.index) ∧
    ((∀ p ∈ r.productions, ∀ nt ∈ p.form.nonterminals, (r.category? nt.val.category).isSome) ∧
      (∀ j ∈ r.judgments, ∀ nt, j.assumption = some nt →
        (r.category? nt.val.category).isSome) ∧
      (∀ rule ∈ r.rules, ∀ c ∈ rule.clauses, (r.production? c.production).isSome)) ∧
    ∀ d ∈ r.checkAll.1, d.isFatal = false := by
  have hr := h.consistent
  refine ⟨⟨fun _ _ => hr.category?_id, fun _ _ => hr.judgment?_id, fun _ _ => hr.production?_id,
    fun _ _ => hr.rule?_id⟩, ⟨hr.category_names, hr.judgment_names,
    fun _ _ => hr.categoryId?_eq_some_iff, fun _ _ => hr.judgmentId?_eq_some_iff,
    fun name _ => hr.categoryNamed?_map_id name ▸ hr.categoryId?_eq_some_iff,
    fun name _ => hr.judgmentNamed?_map_id name ▸ hr.judgmentId?_eq_some_iff,
    fun _ _ => hr.judgmentId?_eq_some_iff⟩,
    ⟨hr.production_iff, fun _ => hr.existsUnique_productionOf?⟩,
    fun id => ⟨fun rule => ?_, hr.pairwise_rulesFor id⟩,
    ⟨hr.forms_declared, hr.assumptions_declared, hr.clauses_known⟩, fun d hd => ?_⟩
  · simp [hr.rulesFor_eq_filter]
  · rw [Diagnostic.isFatal, hr.checkAll_recoverable hd]
    rfl

/-- Rules of two judgments in turn, all of the wrong length, with refused writes in between
and a conjunction at the end. -/
theorem representation_sample : ∃ r : Registry, r.Reachable ∧
    (r.rulesFor ⟨1⟩).map (·.id) = [⟨0⟩, ⟨2⟩] ∧
    (∀ rule, rule ∈ r.rulesFor ⟨1⟩ ↔ rule ∈ r.rules ∧ rule.judgment = ⟨1⟩) ∧
    r.checkAll.2 = 3 ∧ ∀ d ∈ r.checkAll.1, d.isFatal = false := by
  let clause (production : Nat) : Clause :=
    { elements := [], span := {}, production := ⟨production⟩ }
  let writes : List Write := [.addRule "one" ⟨1⟩ [] (clause 1) {}, .reserve "typing" {},
    .addRule "two" ⟨0⟩ [] { elements := [], span := {}, production := ⟨7⟩ } {},
    .addRule "two" ⟨0⟩ [] (clause 0) {}, .addRule "three" ⟨1⟩ [] (clause 1) {},
    .synthesize {} {} {} [⟨0⟩, ⟨1⟩]]
  have h : (sample.run writes).Reachable := ⟨typingAndHalting ++ writes, List.foldl_append⟩
  obtain ⟨_, _, _, hrules, _, hfatal⟩ := h.representation
  exact ⟨_, h, by decide +kernel, (hrules ⟨1⟩).1, by decide +kernel, hfatal⟩

end Registry
end Inference
