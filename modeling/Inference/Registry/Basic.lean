import Inference.Form
import Inference.Registry.NameIndex

/-!
# Inference.Registry.Basic

The declaration table of a program: its syntactic categories, its judgments, the productions that
give judgments their forms, and the rules that introduce them. Each kind of entry has a list of its
own, and a handle is a position in that list. Categories and judgments are found by name as well,
through an index that is kept beside the list.

* `Registry.categoryNamed?`, `Registry.judgmentNamed?`: the entry that a name leads to.
* `Registry.formOf?`: the form of a judgment, once its production is defined.
* `Registry.contextOf?`: the first nonterminal of that form whose category carries a context.
* `Registry.rulesFor`: the rules that introduce a judgment.
-/

namespace Inference

/-- A syntactic category. Variables over the category `e` are written `e`, `e1`, `e'` and so on. -/
structure Category where
  id : CategoryId
  name : String
  /-- Whether the category stands for an ambient context, such as a typing environment. -/
  isContext : Bool
  span : Span
  deriving DecidableEq

/-- Where a judgment comes from: the program text, or the conjunction of other judgments. -/
inductive Origin where
  | declared
  | conjunction (components : List JudgmentId)
  deriving DecidableEq

structure Judgment where
  id : JudgmentId
  name : String
  /-- Missing only until the form of the judgment is known. -/
  production : Option ProductionId := none
  assumption : Option Nonterminal := none
  /-- The rules that introduce the judgment, in the order they were declared. -/
  rules : List RuleId := []
  origin : Origin := .declared
  span : Span
  deriving DecidableEq

namespace Judgment

/-- A judgment without a form, whose name is already taken. -/
def isPlaceholder (j : Judgment) : Bool := j.production.isNone

def isSynthesized (j : Judgment) : Bool :=
  match j.origin with
  | .declared => false
  | .conjunction _ => true

/-- The conjoined judgments, in order; none for a declared judgment. -/
def components (j : Judgment) : List JudgmentId :=
  match j.origin with
  | .declared => []
  | .conjunction parts => parts

end Judgment

structure Production where
  id : ProductionId
  name : String
  judgment : JudgmentId
  form : Form
  deriving DecidableEq

structure Rule where
  id : RuleId
  name : String
  judgment : JudgmentId
  premises : List Clause
  conclusion : Clause
  span : Span
  deriving DecidableEq

namespace Rule

def hasNoPremises (r : Rule) : Bool := r.premises.isEmpty

def clauses (r : Rule) : List Clause := r.premises ++ [r.conclusion]

end Rule

structure Registry where
  categories : List Category := []
  categoryNames : NameIndex .category := {}
  judgments : List Judgment := []
  judgmentNames : NameIndex .judgment := {}
  productions : List Production := []
  rules : List Rule := []
  deriving DecidableEq

namespace Registry

def empty : Registry := {}

def category? (r : Registry) (id : CategoryId) : Option Category := r.categories[id.index]?

def categoryId? (r : Registry) (name : String) : Option CategoryId := r.categoryNames.get? name

def categoryNamed? (r : Registry) (name : String) : Option Category :=
  (r.categoryId? name).bind r.category?

def isContext (r : Registry) (id : CategoryId) : Bool := (r.category? id).any (·.isContext)

/-- The name of a category, or its handle when there is no such category. -/
def categoryText (r : Registry) (id : CategoryId) : String :=
  match r.category? id with
  | some c => c.name
  | none => id.text

def judgment? (r : Registry) (id : JudgmentId) : Option Judgment := r.judgments[id.index]?

def judgmentId? (r : Registry) (name : String) : Option JudgmentId := r.judgmentNames.get? name

def judgmentNamed? (r : Registry) (name : String) : Option Judgment :=
  (r.judgmentId? name).bind r.judgment?

def hasJudgment (r : Registry) (id : JudgmentId) : Bool := decide (id.index < r.judgments.length)

/-- The name of a judgment, or its handle when there is no such judgment. -/
def judgmentText (r : Registry) (id : JudgmentId) : String :=
  match r.judgment? id with
  | some j => j.name
  | none => id.text

/-! ## Productions and rules -/

def production? (r : Registry) (id : ProductionId) : Option Production := r.productions[id.index]?

def rule? (r : Registry) (id : RuleId) : Option Rule := r.rules[id.index]?

def productionOf? (r : Registry) (id : JudgmentId) : Option ProductionId :=
  (r.judgment? id).bind (·.production)

def formOf? (r : Registry) (id : JudgmentId) : Option Form :=
  ((r.productionOf? id).bind r.production?).map (·.form)

def contextsIn (r : Registry) (f : Form) : List Nonterminal :=
  f.nonterminals.filter fun nt => r.isContext nt.val.category

def contextOf? (r : Registry) (id : JudgmentId) : Option Nonterminal :=
  (r.formOf? id).bind fun f => (r.contextsIn f).head?

def assumptionOf? (r : Registry) (id : JudgmentId) : Option Nonterminal :=
  (r.judgment? id).bind (·.assumption)

def rulesFor (r : Registry) (id : JudgmentId) : List Rule :=
  match r.judgment? id with
  | some j => j.rules.filterMap r.rule?
  | none => []

end Registry

end Inference
