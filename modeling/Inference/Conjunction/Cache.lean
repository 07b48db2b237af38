import Inference.Handle

/-!
# Inference.Conjunction.Cache

The conjunctions made so far, by their ordered lists of components. An entry is never replaced.

* `Cache.insert`: records a conjunction and answers with the one on record.
-/

namespace Inference

structure Cache where
  /-- Component lists and their conjunctions, in the order they were recorded. No list occurs
  twice. -/
  entries : List (List JudgmentId × JudgmentId) := []
  deriving DecidableEq

namespace Cache

def empty : Cache := {}

/-- The conjunction of exactly these components, in this order. -/
def get? (c : Cache) (parts : List JudgmentId) : Option JudgmentId :=
  (c.entries.find? (·.1 == parts)).map (·.2)

def contains (c : Cache) (parts : List JudgmentId) : Bool := (c.get? parts).isSome

def insert (c : Cache) (parts : List JudgmentId) (judgment : JudgmentId) : Cache × JudgmentId :=
  match c.get? parts with
  | some known => (c, known)
  | none => (⟨c.entries ++ [(parts, judgment)]⟩, judgment)

def size (c : Cache) : Nat := c.entries.length

def isEmpty (c : Cache) : Bool := c.entries.isEmpty

end Cache
end Inference
