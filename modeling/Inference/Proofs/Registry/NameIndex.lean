import Inference.Registry.NameIndex
import Mathlib.Data.List.Nodup

/-!
# Inference.Proofs.Registry.NameIndex

An index kept beside a list of names. `Indexes` says that the two are in step: a name leads to a
position exactly when it stands there. They stay in step when a name that is not in the index yet is
put at the end of the list and into the index.

* `get?_insert`: what names lead to after one is entered.
* `Indexes.insert`: index and list grow together.
* `Indexes.nodup`: in a list with an index no name stands twice.
-/

namespace Inference
namespace NameIndex

variable {kind : Kind} {x : NameIndex kind}

theorem get?_insert (x : NameIndex kind) (name other : String) (id : Handle kind) :
    (x.insert name id).get? other = if other = name then some id else x.get? other := by
  rw [get?, insert, List.find?_cons, get?]
  by_cases h : other = name
  · simp [h]
  · have hne : (name == other) = false := beq_eq_false_iff_ne.mpr (Ne.symm h)
    simp only [hne, if_neg h]

theorem contains_eq_false_iff {name : String} : x.contains name = false ↔ x.get? name = none := by
  rw [contains, Option.isSome_eq_false_iff, Option.isNone_iff_eq_none]

theorem get?_ne_none_iff {name : String} : x.get? name ≠ none ↔ name ∈ x.names := by
  rw [← Option.isSome_iff_ne_none, get?, names, Option.isSome_map, List.find?_isSome, List.mem_map]
  simp only [beq_iff_eq]

theorem getElem?_concat_eq_some_iff {α : Type} {l : List α} {a b : α} {i : Nat} :
    (l ++ [a])[i]? = some b ↔ l[i]? = some b ∨ i = l.length ∧ a = b := by
  rcases Nat.lt_trichotomy i l.length with hlt | rfl | hgt
  · rw [List.getElem?_append_left hlt]
    simp [Nat.ne_of_lt hlt]
  · rw [List.getElem?_concat_length, List.getElem?_eq_none (Nat.le_refl _)]
    simp
  · rw [List.getElem?_eq_none (by simp; omega), List.getElem?_eq_none (Nat.le_of_lt hgt)]
    simp [Nat.ne_of_gt hgt]

/-- A name leads to a position of the list exactly when it is the name there. -/
def Indexes (x : NameIndex kind) (names : List String) : Prop :=
  ∀ name id, x.get? name = some id ↔ names[id.index]? = some name

variable {names : List String}

theorem indexes_nil : ({} : NameIndex kind).Indexes [] := by
  intro name id
  simp [get?]

theorem Indexes.get?_eq_none_iff (h : x.Indexes names) {name : String} :
    x.get? name = none ↔ name ∉ names := by
  rw [← not_iff_not, not_not, List.mem_iff_getElem?]
  constructor
  · intro hsome
    obtain ⟨id, hid⟩ := Option.ne_none_iff_exists'.mp hsome
    exact ⟨id.index, (h name id).mp hid⟩
  · rintro ⟨i, hi⟩
    rw [(h name ⟨i⟩).mpr hi]
    exact Option.some_ne_none _

theorem Indexes.insert (h : x.Indexes names) {name : String} (hnew : x.get? name = none) :
    (x.insert name ⟨names.length⟩).Indexes (names ++ [name]) := by
  intro other id
  have hold := h other id
  rw [get?_insert, getElem?_concat_eq_some_iff, ← hold]
  by_cases he : other = name
  · subst he
    rw [if_pos rfl, hnew, Option.some.injEq]
    constructor
    · rintro rfl
      exact .inr ⟨rfl, rfl⟩
    · rintro (hid | ⟨hid, _⟩)
      · cases hid
      · exact hid ▸ rfl
  · rw [if_neg he]
    exact ⟨.inl, fun hor => hor.resolve_right fun ⟨_, hname⟩ => he hname.symm⟩

/-- Two positions of one name would both be what the name leads to. -/
theorem Indexes.nodup (h : x.Indexes names) : names.Nodup := by
  rw [List.nodup_iff_getElem?_ne_getElem?]
  intro i j hij hj heq
  have hi : i < names.length := Nat.lt_trans hij hj
  have hfirst := (h names[i] ⟨i⟩).mpr (List.getElem?_eq_getElem hi)
  have hsecond := (h names[i] ⟨j⟩).mpr (heq ▸ List.getElem?_eq_getElem hi)
  have hsame := Option.some.inj (hfirst.symm.trans hsecond)
  exact Nat.ne_of_lt hij (congrArg Handle.index hsame)

end NameIndex
end Inference
