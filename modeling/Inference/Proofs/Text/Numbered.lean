import Inference.Text.Numbered
import Mathlib.Data.List.Nodup
import Mathlib.Data.List.Perm.Subperm
import Mathlib.Order.Bounds.Defs

/-!
# Inference.Proofs.Text.Numbered

What the search for a free number gives. `firstFree` is the least number from its start on that is
not taken, provided it looks at more numbers than are taken.

* `Search`: the search without a bound, which may go on for ever; `Search.isLeast`, what it finds.
* `search_firstFree`: with a free number within reach, the bounded search is this one.
* `search_numbered`: over any finite collection of names the search comes to an end.
-/

namespace Inference
namespace Text

theorem numbered_inj {base : String} {m n : Nat} : numbered base m = numbered base n ↔ m = n := by
  constructor
  · intro h
    have ht : toString m = toString n := (String.append_right_inj base).mp h
    rw [Nat.toString_eq_ofList_toDigits, Nat.toString_eq_ofList_toDigits] at ht
    have hd : Nat.toDigits 10 m = Nat.toDigits 10 n := String.ofList_injective ht
    rw [← Nat.ofDigitChars_ten_toDigits (n := m), hd, Nat.ofDigitChars_ten_toDigits]
  · rintro rfl; rfl

/-! ## The search -/

/-- The search from a number on comes to an end at another. It stops at a number that is free, and
goes on from the next one when the number is taken. -/
inductive Search (Taken : Nat → Prop) : Nat → Nat → Prop where
  | stop {n : Nat} : ¬ Taken n → Search Taken n n
  | next {start n : Nat} : Taken start → Search Taken (start + 1) n → Search Taken start n

theorem Search.isLeast {Taken : Nat → Prop} {start n : Nat} (h : Search Taken start n) :
    IsLeast {m | start ≤ m ∧ ¬ Taken m} n := by
  induction h with
  | stop hfree =>
    refine ⟨⟨Nat.le_refl _, hfree⟩, ?_⟩
    intro m hm
    exact hm.1
  | @next start n htaken _ ih =>
    obtain ⟨⟨hle, hfree⟩, hleast⟩ := ih
    refine ⟨⟨by omega, hfree⟩, ?_⟩
    rintro m ⟨hm, hmfree⟩
    have hne : m ≠ start := by
      rintro rfl
      exact hmfree htaken
    exact hleast ⟨by omega, hmfree⟩

theorem search_firstFree {taken : Nat → Bool} {Taken : Nat → Prop}
    (htaken : ∀ n, taken n = true ↔ Taken n) {fuel start n : Nat} (hn : start ≤ n)
    (hle : n ≤ start + fuel) (hfree : ¬ Taken n) :
    Search Taken start (firstFree taken fuel start) := by
  induction fuel generalizing start with
  | zero =>
    have he : n = start := by omega
    exact .stop (he ▸ hfree)
  | succ fuel ih =>
    simp only [firstFree]
    split
    · rename_i ht
      have hstart : Taken start := (htaken start).mp ht
      have hne : n ≠ start := by
        rintro rfl
        exact hfree hstart
      exact .next hstart (ih (by omega) (by omega))
    · rename_i ht
      exact .stop fun hstart => ht ((htaken start).mpr hstart)

theorem exists_unused (base : String) (names : List String) (start : Nat) :
    ∃ n, start ≤ n ∧ n ≤ start + names.length ∧ numbered base n ∉ names := by
  by_contra hall
  have hsub : (List.range' start (names.length + 1)).map (numbered base) ⊆ names := by
    intro name hname
    obtain ⟨n, hn, rfl⟩ := List.mem_map.mp hname
    rw [List.mem_range'_1] at hn
    by_contra hfree
    exact hall ⟨n, by omega, by omega, hfree⟩
  have hnd : ((List.range' start (names.length + 1)).map (numbered base)).Nodup :=
    List.Nodup.map (fun _ _ => numbered_inj.mp) List.nodup_range'
  have hlen := (List.subperm_of_subset hnd hsub).length_le
  rw [List.length_map, List.length_range'] at hlen
  omega

/-- With as much fuel as there are names, the search for a name that is not among them comes to an
end. -/
theorem search_numbered (base : String) (names : List String) {taken : Nat → Bool}
    (htaken : ∀ n, taken n = true ↔ numbered base n ∈ names) (start : Nat) :
    Search (fun n => numbered base n ∈ names) start (firstFree taken names.length start) := by
  obtain ⟨n, hn, hle, hfree⟩ := exists_unused base names start
  exact search_firstFree htaken hn hle hfree

end Text
end Inference
