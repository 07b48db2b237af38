import Inference.Conjunction.NameSupply
import Inference.Registry.Basic

/-!
# Inference.Conjunction.Renaming

Each judgment is declared in a scope of its own, so two of them may both mention `e` without
meaning the same term. Before their forms are joined, every occurrence of a nonterminal gets a name
of its own. Only the context that the judgments share keeps its name throughout.

* `NameSupply.rename`: renames the nonterminals of forms apart.
* `Renamed.renamed?`: the fresh nonterminal that stands for the first occurrence of a variable.
-/

namespace Inference

structure Renamed where
  components : List (List Element) := []
  /-- Each renamed occurrence, from left to right: the variable and what stands for it now. -/
  renamings : List (Variable × Nonterminal) := []
  deriving DecidableEq

namespace Renamed

def renamed? (r : Renamed) (v : Variable) : Option Nonterminal :=
  (r.renamings.find? (·.1 == v)).map (·.2)

def elementCount (r : Renamed) : Nat := r.components.flatten.length

end Renamed

structure RenamingState where
  supply : NameSupply
  renamings : List (Variable × Nonterminal) := []
  deriving DecidableEq

/-- The text that fresh names for a variable are built on: the name of its category, or else the
base name of the variable. -/
def Registry.freshBase (r : Registry) (v : Variable) : String :=
  match r.category? v.category with
  | some c => c.name
  | none => v.baseName

namespace RenamingState

/-- Renames one element. Terminals and the shared context stay as they are, with their places. -/
def renameElement (r : Registry) (context : Option Variable) (span : Span) (st : RenamingState)
    (e : Element) : RenamingState × Element :=
  match e.val with
  | .terminal _ => (st, e)
  | .nonterminal v =>
    if context = some v then (st, e)
    else
      let (supply, name) := st.supply.fresh (r.freshBase v)
      let fresh : Nonterminal := ⟨⟨name, v.category⟩, span⟩
      (⟨supply, st.renamings ++ [(v, fresh)]⟩, .ofNonterminal fresh)

def renameElements (r : Registry) (context : Option Variable) (span : Span) :
    RenamingState → List Element → RenamingState × List Element
  | st, [] => (st, [])
  | st, e :: es =>
    let (st, e) := renameElement r context span st e
    let (st, es) := renameElements r context span st es
    (st, e :: es)

def renameForms (r : Registry) (context : Option Variable) (span : Span) :
    RenamingState → List Form → RenamingState × List (List Element)
  | st, [] => (st, [])
  | st, f :: fs =>
    let (st, es) := renameElements r context span st f.elements
    let (st, ess) := renameForms r context span st fs
    (st, es :: ess)

end RenamingState

/-- Renames the nonterminals of forms apart, but for occurrences of the context. Fresh
nonterminals are over the categories of those they stand for, and are placed at the span. -/
def NameSupply.rename (s : NameSupply) (r : Registry) (forms : List Form)
    (context : Option Nonterminal) (span : Span) : Renamed :=
  let supply :=
    match context with
    | none => s
    | some nt => s.reserve nt.val.name
  let (st, components) :=
    RenamingState.renameForms r (context.map (·.val)) span { supply } forms
  ⟨components, st.renamings⟩

end Inference
