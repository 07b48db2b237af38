/-!
# Inference.Handle

Handles name the entries of the declaration table. There is one kind of handle for each kind of
entry, and a handle is the position of its entry among those of its kind.
-/

namespace Inference

inductive Kind where
  | category
  | judgment
  | production
  | rule
  deriving DecidableEq

/-- The letter that handles of a kind are written with. Categories are sorts, hence `s`. -/
def Kind.letter : Kind → String
  | .category => "s"
  | .judgment => "j"
  | .production => "p"
  | .rule => "r"

structure Handle (kind : Kind) where
  index : Nat
  deriving DecidableEq

def Handle.text {kind : Kind} (h : Handle kind) : String := kind.letter ++ toString h.index

instance {kind : Kind} : Inhabited (Handle kind) := ⟨⟨0⟩⟩

abbrev CategoryId := Handle .category
abbrev JudgmentId := Handle .judgment
abbrev ProductionId := Handle .production
abbrev RuleId := Handle .rule

end Inference
