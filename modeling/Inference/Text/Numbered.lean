/-!
# Inference.Text.Numbered

Finding the next free number. The fresh variables of a conjunction and the name of a new
conjunction are both a fixed text followed by a number, and in both the number is the first whose
text is not taken.

* `firstFree taken fuel start`: the least number from `start` on that is not taken, provided that
  at most `fuel` numbers are taken.
-/

namespace Inference
namespace Text

def firstFree (taken : Nat → Bool) : Nat → Nat → Nat
  | 0, n => n
  | fuel + 1, n => if taken n then firstFree taken fuel (n + 1) else n

def numbered (base : String) (n : Nat) : String := base ++ toString n

end Text
end Inference
