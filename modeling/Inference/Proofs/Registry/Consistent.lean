import Inference.Proofs.Registry.Reachable
import Mathlib.Data.List.Nodup

/-!
# Inference.Proofs.Registry.Consistent

The tables that writes give rise to are consistent: handles are positions, the indexes are in step
with the names of the entries, and the references between entries lead somewhere and agree with each
other.

* `Consistent`: what it is for a table to be consistent.
* `consistent_of_step`, `consistent_of_steps`: accepted writes keep a table consistent.
* `Reachable.consistent`: so every table a program can arrive at is consistent.
-/

namespace Inference
namespace Registry

/-- The handles are the positions, in order. -/
def Positions {kind : Kind} (ids : List (Handle kind)) : Prop :=
  ids = (List.range ids.length).map Handle.mk

structure Consistent (r : Registry) : Prop where
  category_ids : Positions (r.categories.map (·.id))
  judgment_ids : Positions (r.judgments.map (·.id))
  production_ids : Positions (r.productions.map (·.id))
  rule_ids : Positions (r.rules.map (·.id))
  category_index : r.categoryNames.Indexes (r.categories.map (·.name))
  judgment_index : r.judgmentNames.Indexes (r.judgments.map (·.name))
  /-- A judgment has a production exactly when the production names the judgment. -/
  production_iff : ∀ id p, r.productionOf? id = some p ↔ (r.production? p).map (·.judgment) = some id
  /-- A judgment lists the rules that introduce it, in order. -/
  judgment_rules : ∀ id j, r.judgment? id = some j →
    j.rules = (r.rules.filter (·.judgment = id)).map (·.id)
  rule_judgments : ∀ rule ∈ r.rules, (r.judgment? rule.judgment).isSome
  forms_declared : ∀ p ∈ r.productions, r.Declares p.form
  assumptions_declared : ∀ j ∈ r.judgments, ∀ nt, j.assumption = some nt →
    (r.category? nt.val.category).isSome
  clauses_known : ∀ rule ∈ r.rules, ∀ c ∈ rule.clauses, (r.production? c.production).isSome

theorem Positions.append {kind : Kind} {ids : List (Handle kind)} (h : Positions ids) :
    Positions (ids ++ [⟨ids.length⟩]) := by
  rw [Positions, List.length_append, List.length_singleton, List.range_succ, List.map_append, ← h]
  rfl

theorem Positions.eq_of_getElem? {kind : Kind} {α : Type} {f : α → Handle kind} {l : List α}
    (h : Positions (l.map f)) {i : Nat} {a : α} (hi : l[i]? = some a) : f a = ⟨i⟩ := by
  obtain ⟨hlt, rfl⟩ := List.getElem?_eq_some_iff.mp hi
  have hget : (l.map f)[i]? = some (f l[i]) := by rw [List.getElem?_map, hi]; rfl
  rw [h, List.getElem?_map, List.length_map, List.getElem?_range hlt] at hget
  exact (Option.some.inj hget).symm

theorem map_modify {α β : Type} {f : α → α} {g : α → β} (l : List α) (i : Nat)
    (h : ∀ a, g (f a) = g a) : (l.modify i f).map g = l.map g := by
  induction l generalizing i with
  | nil => simp
  | cons a l ih =>
    cases i with
    | zero => simp [h]
    | succ i => simp [ih]

theorem mem_modify {α : Type} {f : α → α} {l : List α} {i : Nat} {a : α} (h : a ∈ l.modify i f) :
    a ∈ l ∨ ∃ b ∈ l, a = f b := by
  induction l generalizing i with
  | nil => simp at h
  | cons b l ih =>
    cases i with
    | zero =>
      rcases List.mem_cons.mp h with rfl | h
      · exact .inr ⟨b, List.mem_cons_self .., rfl⟩
      · exact .inl (List.mem_cons_of_mem _ h)
    | succ i =>
      rcases List.mem_cons.mp h with rfl | h
      · exact .inl (List.mem_cons_self ..)
      · rcases ih h with h | ⟨c, hc, rfl⟩
        · exact .inl (List.mem_cons_of_mem _ h)
        · exact .inr ⟨c, List.mem_cons_of_mem _ hc, rfl⟩

theorem isSome_getElem?_append {α : Type} {l : List α} {i : Nat} (h : l[i]?.isSome) (m : List α) :
    (l ++ m)[i]?.isSome := by
  obtain ⟨a, ha⟩ := Option.isSome_iff_exists.mp h
  rw [List.getElem?_append_left (List.getElem?_eq_some_iff.mp ha).1, ha]
  rfl

variable {r r' : Registry}

theorem consistent_empty : Registry.empty.Consistent where
  category_ids := rfl
  judgment_ids := rfl
  production_ids := rfl
  rule_ids := rfl
  category_index := NameIndex.indexes_nil
  judgment_index := NameIndex.indexes_nil
  production_iff := fun id p => by
    simp [productionOf?, judgment?, production?, Registry.empty]
  judgment_rules := fun id j h => by simp [judgment?, Registry.empty] at h
  rule_judgments := fun rule h => by simp [Registry.empty] at h
  forms_declared := fun p h => by simp [Registry.empty] at h
  assumptions_declared := fun j h => by simp [Registry.empty] at h
  clauses_known := fun rule h => by simp [Registry.empty] at h

theorem Consistent.addCategory {name : String} {isContext : Bool} {span : Span} {id : CategoryId}
    (hr : r.Consistent) (h : r.addCategory name isContext span = (r', .ok id)) :
    r'.Consistent := by
  obtain ⟨hn, rfl, rfl⟩ := addCategory_eq_ok_iff.mp h
  refine { hr with
    category_ids := ?_, category_index := ?_, forms_declared := ?_, assumptions_declared := ?_ }
  · have hids := hr.category_ids.append
    rw [List.length_map] at hids
    rw [List.map_append]
    exact hids
  · have hindex := hr.category_index.insert hn
    rw [List.length_map] at hindex
    rw [List.map_append]
    exact hindex
  · intro p hp nt hnt
    exact isSome_getElem?_append (hr.forms_declared p hp nt hnt) _
  · intro j hj nt hnt
    exact isSome_getElem?_append (hr.assumptions_declared j hj nt hnt) _

theorem productionOf?_withLast {j : Judgment} (hj : j.production = none) (id : JudgmentId) :
    (r.withLast j).productionOf? id = r.productionOf? id := by
  simp only [productionOf?, judgment?, withLast]
  rcases Nat.lt_or_ge id.index r.judgments.length with hlt | hge
  · rw [List.getElem?_append_left hlt]
  · rw [List.getElem?_eq_none hge, List.getElem?_append_right hge]
    cases id.index - r.judgments.length with
    | zero => simp [hj]
    | succ n => simp

theorem Consistent.reserve {name : String} {span : Span} {id : JudgmentId} (hr : r.Consistent)
    (h : r.reserve name span = (r', .ok id)) : r'.Consistent := by
  obtain ⟨hn, rfl, rfl⟩ := reserve_eq_ok_iff.mp h
  refine { hr with
    judgment_ids := ?_, judgment_index := ?_, production_iff := ?_, judgment_rules := ?_,
    rule_judgments := ?_, assumptions_declared := ?_ }
  · have hids := hr.judgment_ids.append
    rw [List.length_map] at hids
    rw [List.map_append]
    exact hids
  · have hindex := hr.judgment_index.insert hn
    rw [List.length_map] at hindex
    rw [List.map_append]
    exact hindex
  · intro id p
    have hiff := hr.production_iff id p
    rw [← productionOf?_withLast (j := r.newJudgment name span) rfl] at hiff
    exact hiff
  · intro id j hj
    rcases NameIndex.getElem?_concat_eq_some_iff.mp hj with hj | ⟨hid, rfl⟩
    · exact hr.judgment_rules id j hj
    · have hnone : r.rules.filter (·.judgment = id) = [] := by
        refine List.filter_eq_nil_iff.mpr fun rule hrule he => ?_
        have hsome := hr.rule_judgments rule hrule
        rw [of_decide_eq_true he, judgment?, hid, List.getElem?_eq_none (Nat.le_refl _)] at hsome
        cases hsome
      rw [hnone]
      rfl
  · intro rule hrule
    exact isSome_getElem?_append (hr.rule_judgments rule hrule) _
  · intro j hj nt hnt
    rcases List.mem_append.mp hj with hj | hj
    · exact hr.assumptions_declared j hj nt hnt
    · cases List.mem_singleton.mp hj
      cases hnt

theorem judgment?_modifyJudgment (r : Registry) (id other : JudgmentId) (f : Judgment → Judgment) :
    (r.modifyJudgment id f).judgment? other =
      (r.judgment? other).map fun j => if other = id then f j else j := by
  simp only [judgment?, modifyJudgment, List.getElem?_modify, Option.map_eq_map]
  congr 1
  funext j
  have hiff : id.index = other.index ↔ other = id := by
    cases id; cases other; simp [eq_comm]
  simp only [hiff]

theorem productionOf?_modifyJudgment {f : Judgment → Judgment}
    (hf : ∀ j, (f j).production = j.production) (r : Registry) (id other : JudgmentId) :
    (r.modifyJudgment id f).productionOf? other = r.productionOf? other := by
  simp only [productionOf?, judgment?_modifyJudgment]
  cases r.judgment? other with
  | none => rfl
  | some j => by_cases he : other = id <;> simp [he, hf]

theorem Consistent.judgment_ids_modify {f : Judgment → Judgment} (hr : r.Consistent) (i : Nat)
    (hf : ∀ j, (f j).id = j.id) : Positions ((r.judgments.modify i f).map (·.id)) := by
  rw [map_modify _ _ hf]
  exact hr.judgment_ids

theorem Consistent.judgment_index_modify {f : Judgment → Judgment} (hr : r.Consistent) (i : Nat)
    (hf : ∀ j, (f j).name = j.name) :
    r.judgmentNames.Indexes ((r.judgments.modify i f).map (·.name)) := by
  rw [map_modify _ _ hf]
  exact hr.judgment_index

/-- A change that keeps names, productions and rules, and assumes only what is declared. -/
theorem Consistent.modify {f : Judgment → Judgment} (hr : r.Consistent) (id : JudgmentId)
    (hid : ∀ j, (f j).id = j.id) (hname : ∀ j, (f j).name = j.name)
    (hprod : ∀ j, (f j).production = j.production) (hrules : ∀ j, (f j).rules = j.rules)
    (hassume : ∀ j ∈ r.judgments, ∀ nt, (f j).assumption = some nt →
      (r.category? nt.val.category).isSome) : (r.modifyJudgment id f).Consistent := by
  refine { hr with
    judgment_ids := ?_, judgment_index := ?_, production_iff := ?_, judgment_rules := ?_,
    rule_judgments := ?_, assumptions_declared := ?_ }
  · exact hr.judgment_ids_modify id.index hid
  · exact hr.judgment_index_modify id.index hname
  · intro other p
    rw [productionOf?_modifyJudgment hprod]
    exact hr.production_iff other p
  · intro other j hj
    rw [judgment?_modifyJudgment] at hj
    obtain ⟨j', hj', rfl⟩ := Option.map_eq_some_iff.mp hj
    have hrule := hr.judgment_rules other j' hj'
    by_cases he : other = id
    · rw [if_pos he, hrules]; exact hrule
    · rw [if_neg he]; exact hrule
  · intro rule hrule
    rw [judgment?_modifyJudgment, Option.isSome_map]
    exact hr.rule_judgments rule hrule
  · intro j hj nt hnt
    rcases mem_modify hj with hj | ⟨j', hj', rfl⟩
    · exact hr.assumptions_declared j hj nt hnt
    · exact hassume j' hj' nt hnt

theorem Consistent.assume {judgment : JudgmentId} {assumption : Option Nonterminal}
    (hr : r.Consistent) (h : r.assume judgment assumption = (r', .ok ())) : r'.Consistent := by
  obtain ⟨ha, _, rfl⟩ := assume_eq_ok_iff.mp h
  exact hr.modify _ (fun _ => rfl) (fun _ => rfl) (fun _ => rfl) (fun _ => rfl)
    fun _ _ nt hnt => ha nt hnt

theorem Consistent.setOrigin {judgment : JudgmentId} {origin : Origin} (hr : r.Consistent)
    (h : r.setOrigin judgment origin = (r', .ok ())) : r'.Consistent := by
  obtain ⟨_, rfl⟩ := setOrigin_eq_ok_iff.mp h
  exact hr.modify _ (fun _ => rfl) (fun _ => rfl) (fun _ => rfl) (fun _ => rfl)
    fun j hj nt hnt => hr.assumptions_declared j hj nt hnt

/-- Where a form is defined, the new production is that of the judgment, and of no other. -/
theorem productionOf?_define {judgment : JudgmentId} {j : Judgment}
    (hj : r.judgment? judgment = some j) (new : Production) (other : JudgmentId) :
    (({ r with productions := r.productions ++ [new] } : Registry).modifyJudgment judgment
      fun j => { j with production := some ⟨r.productions.length⟩ }).productionOf? other =
      if other = judgment then some ⟨r.productions.length⟩ else r.productionOf? other := by
  rw [productionOf?, judgment?_modifyJudgment]
  by_cases he : other = judgment
  · subst he
    have hj : ({ r with productions := r.productions ++ [new] } : Registry).judgment? other =
      some j := hj
    simp [hj]
  · simp only [if_neg he, Option.map_id']
    rfl

theorem production?_append (new : Production) (p : ProductionId) :
    ({ r with productions := r.productions ++ [new] } : Registry).production? p =
      if p = ⟨r.productions.length⟩ then some new else r.production? p := by
  simp only [production?]
  split
  · rename_i he
    rw [he, List.getElem?_concat_length]
  · rename_i hne
    have hne : p.index ≠ r.productions.length := fun he => hne (by rw [← he])
    rcases Nat.lt_or_gt_of_ne hne with hlt | hgt
    · rw [List.getElem?_append_left hlt]
    · rw [List.getElem?_eq_none (Nat.le_of_lt hgt), List.getElem?_eq_none (by simp; omega)]

theorem Consistent.define {judgment : JudgmentId} {name : String} {form : Form}
    {id : ProductionId} (hr : r.Consistent) (h : r.define judgment name form = (r', .ok id)) :
    r'.Consistent := by
  obtain ⟨⟨j, hj, hnone⟩, hd, rfl, hr'⟩ := define_eq_ok_iff.mp h
  have hproduction : ∀ other, r'.productionOf? other =
      if other = judgment then some ⟨r.productions.length⟩ else r.productionOf? other := by
    intro other
    rw [hr']
    exact productionOf?_define hj _ other
  have hfound : ∀ p, r'.production? p = if p = ⟨r.productions.length⟩ then
      some (r.newProduction judgment name form) else r.production? p := by
    intro p
    rw [hr']
    exact production?_append _ p
  subst hr'
  let f : Judgment → Judgment := fun j => { j with production := some ⟨r.productions.length⟩ }
  have hlookup : ∀ other, (r.judgments.modify judgment.index f)[other.index]? =
      (r.judgment? other).map fun j => if other = judgment then f j else j :=
    fun other => r.judgment?_modifyJudgment judgment other f
  refine { hr with
    judgment_ids := ?_, production_ids := ?_, judgment_index := ?_, production_iff := ?_,
    judgment_rules := ?_, rule_judgments := ?_, forms_declared := ?_, assumptions_declared := ?_,
    clauses_known := ?_ }
  · exact hr.judgment_ids_modify (f := f) judgment.index fun _ => rfl
  · have hids := hr.production_ids.append
    rw [List.length_map] at hids
    rw [List.map_append]
    exact hids
  · exact hr.judgment_index_modify (f := f) judgment.index fun _ => rfl
  · intro other p
    have hiff := hr.production_iff other p
    rw [hproduction, hfound]
    by_cases he : other = judgment <;> by_cases hp : p = ⟨r.productions.length⟩
    · simp [he, hp, newProduction]
    · have hold : r.productionOf? other = none := by
        rw [productionOf?, he, hj]; exact hnone
      rw [hold] at hiff
      simp only [if_pos he, if_neg hp, ← hiff, reduceCtorEq, iff_false, Option.some.injEq]
      exact Ne.symm hp
    · have hold : r.production? p = none := by
        rw [hp]; exact List.getElem?_eq_none (Nat.le_refl _)
      rw [hold] at hiff
      simp [if_neg he, if_pos hp, hiff, newProduction, Ne.symm he]
    · rw [if_neg he, if_neg hp]
      exact hiff
  · intro other j' hj'
    obtain ⟨j'', hj'', rfl⟩ := Option.map_eq_some_iff.mp ((hlookup other).symm.trans hj')
    have hrule := hr.judgment_rules other j'' hj''
    by_cases he : other = judgment
    · rw [if_pos he]; exact hrule
    · rw [if_neg he]; exact hrule
  · intro rule hrule
    have hsome := hr.rule_judgments rule hrule
    rw [← Option.isSome_map, ← hlookup] at hsome
    exact hsome
  · intro p hp
    rcases List.mem_append.mp hp with hp | hp
    · exact hr.forms_declared p hp
    · cases List.mem_singleton.mp hp
      exact hd
  · intro j' hj' nt hnt
    rcases mem_modify hj' with hj' | ⟨j'', hj'', rfl⟩
    · exact hr.assumptions_declared j' hj' nt hnt
    · exact hr.assumptions_declared j'' hj'' nt hnt
  · intro rule hrule c hc
    exact isSome_getElem?_append (hr.clauses_known rule hrule c hc) _

theorem Consistent.addRule {name : String} {judgment : JudgmentId} {premises : List Clause}
    {conclusion : Clause} {span : Span} {id : RuleId} (hr : r.Consistent)
    (h : r.addRule name judgment premises conclusion span = (r', .ok id)) : r'.Consistent := by
  obtain ⟨hj, hp, rfl, rfl⟩ := addRule_eq_ok_iff.mp h
  let f : Judgment → Judgment := fun j => { j with rules := j.rules ++ [⟨r.rules.length⟩] }
  have hlookup : ∀ other, (r.judgments.modify judgment.index f)[other.index]? =
      (r.judgment? other).map fun j => if other = judgment then f j else j :=
    fun other => r.judgment?_modifyJudgment judgment other f
  refine { hr with
    judgment_ids := ?_, rule_ids := ?_, judgment_index := ?_, production_iff := ?_,
    judgment_rules := ?_, rule_judgments := ?_, assumptions_declared := ?_, clauses_known := ?_ }
  · exact hr.judgment_ids_modify (f := f) judgment.index fun _ => rfl
  · have hids := hr.rule_ids.append
    rw [List.length_map] at hids
    rw [List.map_append]
    exact hids
  · exact hr.judgment_index_modify (f := f) judgment.index fun _ => rfl
  · intro other p
    have hiff := hr.production_iff other p
    rw [← productionOf?_modifyJudgment (f := f) (fun _ => rfl) r judgment other] at hiff
    exact hiff
  · intro other j' hj'
    obtain ⟨j'', hj'', rfl⟩ := Option.map_eq_some_iff.mp ((hlookup other).symm.trans hj')
    have hrule := hr.judgment_rules other j'' hj''
    simp only [List.filter_append, List.map_append, ← hrule, newRule]
    by_cases he : other = judgment
    · simp [he, f]
    · simp [he, Ne.symm he]
  · intro rule hrule
    have hsome : (r.judgment? rule.judgment).isSome := by
      rcases List.mem_append.mp hrule with hrule | hrule
      · exact hr.rule_judgments rule hrule
      · cases List.mem_singleton.mp hrule
        exact hj
    rw [← Option.isSome_map, ← hlookup] at hsome
    exact hsome
  · intro j' hj' nt hnt
    rcases mem_modify hj' with hj' | ⟨j'', hj'', rfl⟩
    · exact hr.assumptions_declared j' hj' nt hnt
    · exact hr.assumptions_declared j'' hj'' nt hnt
  · intro rule hrule c hc
    rcases List.mem_append.mp hrule with hrule | hrule
    · exact hr.clauses_known rule hrule c hc
    · cases List.mem_singleton.mp hrule
      exact hp c hc

/-! ## Any number of writes -/

theorem consistent_of_step (hr : r.Consistent) (h : Step r r') : r'.Consistent := by
  cases h with
  | addCategory h => exact hr.addCategory h
  | reserve h => exact hr.reserve h
  | define h => exact hr.define h
  | assume h => exact hr.assume h
  | setOrigin h => exact hr.setOrigin h
  | addRule h => exact hr.addRule h

theorem consistent_of_steps (hr : r.Consistent) (h : Steps r r') : r'.Consistent := by
  induction h with
  | refl => exact hr
  | tail _ hstep ih => exact consistent_of_step ih hstep

theorem Reachable.consistent (h : r.Reachable) : r.Consistent :=
  consistent_of_steps consistent_empty h.steps

end Registry
end Inference
