import Inference.Handle

/-!
# Inference.Registry.NameIndex

The handles of entries by their names. The declaration table keeps one index for its categories and
one for its judgments, beside the entries themselves.

* `NameIndex.get?`: the handle that a name leads to.
* `NameIndex.insert`: enters a name. It leads to the new handle from then on.
-/

namespace Inference

structure NameIndex (kind : Kind) where
  /-- The names entered and their handles, the latest first. -/
  entries : List (String × Handle kind) := []
  deriving DecidableEq

namespace NameIndex

variable {kind : Kind}

def get? (x : NameIndex kind) (name : String) : Option (Handle kind) :=
  (x.entries.find? (·.1 == name)).map (·.2)

def contains (x : NameIndex kind) (name : String) : Bool := (x.get? name).isSome

def insert (x : NameIndex kind) (name : String) (id : Handle kind) : NameIndex kind :=
  ⟨(name, id) :: x.entries⟩

def names (x : NameIndex kind) : List String := x.entries.map (·.1)

end NameIndex
end Inference
