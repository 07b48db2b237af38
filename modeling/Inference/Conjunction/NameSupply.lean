import Inference.Text.Numbered

/-!
# Inference.Conjunction.NameSupply

A supply of fresh names. All names it gives out share one counter, so the numbers in them grow from
one name to the next whatever the names are built on.

* `NameSupply.fresh`: the next name over a base, which was neither reserved nor given out before.
-/

namespace Inference

structure NameSupply where
  /-- The number in the name given out last. -/
  counter : Nat := 0
  used : List String := []
  deriving DecidableEq

namespace NameSupply

def empty : NameSupply := {}

def reserve (s : NameSupply) (name : String) : NameSupply :=
  if name ∈ s.used then s else { s with used := name :: s.used }

/-- The number of the next name over a base. At most as many numbers are taken as names are used,
which bounds the search. -/
def nextNumber (s : NameSupply) (base : String) : Nat :=
  Text.firstFree (fun n => decide (Text.numbered base n ∈ s.used)) s.used.length (s.counter + 1)

def fresh (s : NameSupply) (base : String) : NameSupply × String :=
  let n := s.nextNumber base
  (⟨n, Text.numbered base n :: s.used⟩, Text.numbered base n)

end NameSupply
end Inference
