import Inference.Conjunction.NameSupply
import Inference.Proofs.Text.Numbered

/-!
# Inference.Proofs.Conjunction.NameSupply

A name supply never gives out a name that is reserved or that it gave out before.

* `search_nextNumber`: the next number is found, and it is the first whose name is not in use.
* `fresh_unused`: the next name is not in use.
* `mem_used_fresh`: afterwards exactly that name is in use in addition.
* `exists_number_of_fresh`: the name ends in a number that the supply has not come to before.
* `SupplyRequest`, `NameSupply.run`: a supply at work.
* `mem_used_run`: the names in use are those that were reserved or given out.
* `nodup_given`: no name is given out twice.
* `fresh_run`: the next name, after any requests.
-/

namespace Inference

/-- What can be asked of a name supply. -/
inductive SupplyRequest where
  | reserve (name : String)
  | fresh (base : String)

namespace NameSupply

theorem mem_used_reserve {s : NameSupply} {name other : String} :
    other ∈ (s.reserve name).used ↔ other = name ∨ other ∈ s.used := by
  simp only [reserve]
  split
  · rename_i hmem
    constructor
    · exact .inr
    · rintro (rfl | h)
      · exact hmem
      · exact h
  · exact List.mem_cons

theorem mem_used_fresh {s s' : NameSupply} {base name other : String}
    (h : s.fresh base = (s', name)) : other ∈ s'.used ↔ other = name ∨ other ∈ s.used := by
  cases h
  exact List.mem_cons

theorem search_nextNumber (s : NameSupply) (base : String) :
    Text.Search (fun n => Text.numbered base n ∈ s.used) (s.counter + 1) (s.nextNumber base) :=
  Text.search_numbered base s.used (fun _ => decide_eq_true_iff) _

theorem fresh_unused {s s' : NameSupply} {base name : String} (h : s.fresh base = (s', name)) :
    name ∉ s.used := by
  cases h
  exact (s.search_nextNumber base).isLeast.1.2

theorem exists_number_of_fresh {s s' : NameSupply} {base name : String}
    (h : s.fresh base = (s', name)) :
    s.counter < s'.counter ∧ name = Text.numbered base s'.counter := by
  cases h
  exact ⟨(s.search_nextNumber base).isLeast.1.1, rfl⟩

/-! ## A supply at work -/

def perform (s : NameSupply) : SupplyRequest → NameSupply
  | .reserve name => s.reserve name
  | .fresh base => (s.fresh base).1

def run (s : NameSupply) (requests : List SupplyRequest) : NameSupply := requests.foldl perform s

def nameOf (s : NameSupply) : SupplyRequest → String
  | .reserve name => name
  | .fresh base => (s.fresh base).2

/-- The names that requests reserve and are given, one for each request. -/
def namesOf (s : NameSupply) : List SupplyRequest → List String
  | [] => []
  | request :: requests => s.nameOf request :: (s.perform request).namesOf requests

theorem mem_used_perform {s : NameSupply} {request : SupplyRequest} {name : String} :
    name ∈ (s.perform request).used ↔ name = s.nameOf request ∨ name ∈ s.used := by
  cases request with
  | reserve other => exact mem_used_reserve
  | fresh base => exact mem_used_fresh rfl

theorem mem_used_run {s : NameSupply} {requests : List SupplyRequest} {name : String} :
    name ∈ (s.run requests).used ↔ name ∈ s.namesOf requests ∨ name ∈ s.used := by
  induction requests generalizing s with
  | nil => simp [run, namesOf]
  | cons request requests ih =>
    calc name ∈ ((s.perform request).run requests).used
      _ ↔ name ∈ (s.perform request).namesOf requests ∨ name ∈ (s.perform request).used := ih
      _ ↔ name ∈ s.namesOf (request :: requests) ∨ name ∈ s.used := by
        rw [mem_used_perform, namesOf, List.mem_cons]
        tauto

/-- The names that requests are given, without those that they reserve. -/
def given (s : NameSupply) : List SupplyRequest → List String
  | [] => []
  | .reserve name :: requests => (s.reserve name).given requests
  | .fresh base :: requests => (s.fresh base).2 :: (s.fresh base).1.given requests

theorem given_unused {s : NameSupply} {requests : List SupplyRequest} :
    ∀ name ∈ s.given requests, name ∉ s.used := by
  induction requests generalizing s with
  | nil => simp [given]
  | cons request requests ih =>
    intro name hname hused
    cases request with
    | reserve other => exact ih name hname (mem_used_reserve.mpr (.inr hused))
    | fresh base =>
      rcases List.mem_cons.mp hname with rfl | hname
      · exact fresh_unused rfl hused
      · exact ih name hname ((mem_used_fresh rfl).mpr (.inr hused))

theorem nodup_given (s : NameSupply) (requests : List SupplyRequest) :
    (s.given requests).Nodup := by
  induction requests generalizing s with
  | nil => exact .nil
  | cons request requests ih =>
    cases request with
    | reserve name => exact ih (s.reserve name)
    | fresh base =>
      refine List.nodup_cons.mpr ⟨?_, ih (s.fresh base).1⟩
      intro hagain
      exact given_unused _ hagain ((mem_used_fresh rfl).mpr (.inl rfl))

/-- A new supply after any requests: the search for the next name over a base, from the number after
the last one on, comes to an end. It finds the least number whose name was neither reserved nor
given out before; the name with this number is given, and the number is the last one from then on.
So no name is given out twice, whatever the names are built on. -/
theorem fresh_run (requests : List SupplyRequest) (base : String) :
    let s := NameSupply.empty.run requests
    let names := NameSupply.empty.namesOf requests
    (∃ n, Text.Search (fun m => Text.numbered base m ∈ names) (s.counter + 1) n ∧
      IsLeast {m | s.counter < m ∧ Text.numbered base m ∉ names} n ∧
      s.fresh base = (⟨n, Text.numbered base n :: s.used⟩, Text.numbered base n)) ∧
    (NameSupply.empty.given requests).Nodup := by
  intro s names
  have hused : ∀ name, name ∈ s.used ↔ name ∈ names := by
    intro name
    simp [s, names, mem_used_run, NameSupply.empty]
  have hsearch := s.search_nextNumber base
  simp only [hused] at hsearch
  exact ⟨⟨s.nextNumber base, hsearch, hsearch.isLeast, rfl⟩, nodup_given _ requests⟩

/-- The names over `t` pass over `t11`, which was the first name over `t1`. -/
example : NameSupply.empty.given (.fresh "t1" :: .reserve "t2" :: List.replicate 9 (.fresh "t")) =
    ["t11", "t3", "t4", "t5", "t6", "t7", "t8", "t9", "t10", "t12"] := by
  decide +kernel

end NameSupply
end Inference
