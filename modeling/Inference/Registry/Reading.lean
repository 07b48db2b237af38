import Inference.Registry.Basic
import Inference.Text.Blank

/-!
# Inference.Registry.Reading

Forms are written as words. A word is a nonterminal when it is the name of a declared category, or
when its base name is; any other word is a terminal.

* `Registry.readForm`: the form that a text is read as.
* `Registry.readNonterminal?`: the same for a single word.
-/

namespace Inference
namespace Registry

/-- The category that a word is a variable over. The whole word comes before its base name, so
that `t1` belongs to the category `t1` when there is one. -/
def categoryOfWord? (r : Registry) (word : String) : Option CategoryId :=
  match r.categoryId? word with
  | some id => some id
  | none => r.categoryId? (baseName word)

def readSymbol (r : Registry) (word : String) : Symbol :=
  match r.categoryOfWord? word with
  | some category => .nonterminal ⟨word, category⟩
  | none => .terminal word

def readForm (r : Registry) (text : String) (span : Span) : Form :=
  ⟨(Text.words text).map fun word => ⟨r.readSymbol word, span⟩, span⟩

def readNonterminal? (r : Registry) (word : String) (span : Span) : Option Nonterminal :=
  (r.categoryOfWord? word).map fun category => ⟨⟨word, category⟩, span⟩

end Registry
end Inference
