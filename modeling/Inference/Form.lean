import Inference.Symbol

/-!
# Inference.Form

A form is the written shape of a judgment: a list of elements. A clause is a form used as an
instance of a production, which is how judgments stand in the premises and conclusions of rules.

* `Form.text`: the form written out, its elements joined by single spaces.
* `Form.sameAs`: equality of forms up to the places of their elements.
-/

namespace Inference

structure Form where
  elements : List Element
  span : Span
  deriving DecidableEq

namespace Form

def empty (span : Span) : Form := ⟨[], span⟩

def symbols (f : Form) : List Symbol := f.elements.map (·.val)

def length (f : Form) : Nat := f.elements.length

def nonterminals (f : Form) : List Nonterminal := f.elements.filterMap Element.nonterminal?

def text (f : Form) : String := String.intercalate " " (f.symbols.map Symbol.text)

/-- Forms are the same when they have the same symbols and stand at the same place as a whole. -/
def sameAs (f g : Form) : Bool := f.symbols == g.symbols && f.span == g.span

end Form

/-- A form that instantiates a production. -/
structure Clause extends Form where
  production : ProductionId
  deriving DecidableEq

def Clause.sameAs (c d : Clause) : Bool :=
  c.production == d.production && c.toForm.sameAs d.toForm

end Inference
