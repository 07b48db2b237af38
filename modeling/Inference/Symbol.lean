import Inference.Handle
import Inference.Span

/-!
# Inference.Symbol

What forms are made of. A symbol is a terminal, which stands for its own token, or a nonterminal,
a variable over a syntactic category. An element is a symbol with the place it was written at.

Two elements are the same element when their symbols are equal: places take no part in it. In
particular a nonterminal is identified by its name together with its category (`Variable`).

* `baseName`: the name that a variable is named after, `e` for `e12'`.
-/

namespace Inference

/-- A value with the place it was written at. -/
structure Located (α : Type) where
  val : α
  span : Span
  deriving DecidableEq

/-- A variable over a category, identified by its name and the category. -/
structure Variable where
  name : String
  category : CategoryId
  deriving DecidableEq

/-- Digits, primes and underscores number the variables over one category. -/
def isSuffixChar (c : Char) : Bool := c.isDigit || c == '\'' || c == '_'

/-- The name without its trailing digits, primes and underscores; a name that holds nothing else
is kept whole. -/
def baseName (name : String) : String :=
  let kept := (name.toList.reverse.dropWhile isSuffixChar).reverse
  if kept = [] then name else String.ofList kept

def Variable.baseName (v : Variable) : String := Inference.baseName v.name

inductive Symbol where
  | terminal (token : String)
  | nonterminal (v : Variable)
  deriving DecidableEq

namespace Symbol

def text : Symbol → String
  | terminal token => token
  | nonterminal v => v.name

def token? : Symbol → Option String
  | terminal token => some token
  | nonterminal _ => none

def nonterminal? : Symbol → Option Variable
  | terminal _ => none
  | nonterminal v => some v

end Symbol

abbrev Element := Located Symbol

/-- A variable as it stands in a form. -/
abbrev Nonterminal := Located Variable

namespace Element

def terminal (token : String) (span : Span) : Element := ⟨.terminal token, span⟩

def ofNonterminal (nt : Nonterminal) : Element := ⟨.nonterminal nt.val, nt.span⟩

def nonterminal? (e : Element) : Option Nonterminal :=
  e.val.nonterminal?.map fun v => ⟨v, e.span⟩

end Element

end Inference
