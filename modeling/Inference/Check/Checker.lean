import Inference.Check.Problem
import Inference.Check.Scope
import Inference.Registry.Basic

/-!
# Inference.Check.Checker

Checks judgments against the declaration table. All problems of a judgment are found in one pass:
those of its form, then those of each of its rules. A rule is checked in a frame of its own, clause
by clause, with the conclusion last.

* `Checker.checkJudgment`: checks one judgment and counts its problems.
* `Checker.checkJudgments`: checks judgments one after the other with the same checker.
* `Registry.check`, `Registry.checkAll`: the diagnostics of one judgment, and of all of them.
-/

namespace Inference

/-- Two symbols fit when they are the same token, or variables over the same category. -/
def Symbol.fits : Symbol → Symbol → Bool
  | .terminal a, .terminal b => a == b
  | .nonterminal a, .nonterminal b => a.category == b.category
  | _, _ => false

/-- What a symbol stands for: its token, or the name of its category. -/
def Registry.describe (r : Registry) : Symbol → String
  | .terminal token => token
  | .nonterminal v => r.categoryText v.category

structure Checker where
  scope : Scope := {}
  problems : List Problem := []
  deriving DecidableEq

namespace Checker

def empty : Checker := {}

def add (c : Checker) (problems : List Problem) : Checker :=
  { c with problems := c.problems ++ problems }

def productionProblems (r : Registry) (j : Judgment) (p : Production) : List Problem :=
  let foreign := if p.judgment = j.id then [] else [.ofFault (.foreignProduction j.name) j.span]
  let undeclared := p.form.nonterminals.filterMap fun nt =>
    match r.category? nt.val.category with
    | some _ => none
    | none => some (.ofFault (.unknownCategory nt.val.name nt.val.category) nt.span)
  let assumption :=
    match j.assumption with
    | none => []
    | some nt =>
      if p.form.nonterminals.any (·.val == nt.val) then []
      else [.ofFault (.assumptionNotInForm j.name nt.val.name) nt.span]
  foreign ++ undeclared ++ assumption

def formProblems (r : Registry) (j : Judgment) : List Problem :=
  match j.production with
  | none => [.ofFault (.missingProduction j.name) j.span]
  | some id =>
    match r.production? id with
    | none => [.ofFault (.unknownProduction id) j.span]
    | some p => productionProblems r j p

/-- The positions at which a clause does not fit a form of the same length. -/
def mismatches (r : Registry) (form : Form) (clause : Clause) : List Problem :=
  (form.symbols.zip clause.elements).filterMap fun (want, got) =>
    if want.fits got.val then none
    else some
      (.ofFault (.elementMismatch clause.text (r.describe want) (r.describe got.val)) got.span)

def shapeProblems (r : Registry) (form : Form) (clause : Clause) : List Problem :=
  if form.length = clause.length then mismatches r form clause
  else [.ofFault (.arityMismatch clause.text form.length clause.length) clause.span]

/-- A name keeps the category it is first used at throughout the rule. -/
def checkVariable (r : Registry) (c : Checker) (nt : Nonterminal) : Checker :=
  match c.scope.categoryOf? nt.val.name with
  | none => { c with scope := (c.scope.define nt.val).1 }
  | some category =>
    if category = nt.val.category then c
    else c.add [.ofFault (.inconsistentVariable nt.val.name (r.categoryText category)
      (r.categoryText nt.val.category)) nt.span]

def checkClause (r : Registry) (c : Checker) (clause : Clause) : Checker :=
  match r.production? clause.production with
  | none => c.add [.ofFault (.unknownProduction clause.production) clause.span]
  | some p =>
    clause.nonterminals.foldl (checkVariable r) (c.add (shapeProblems r p.form clause))

/-- The conclusion of a rule is over the production of the judgment that the rule introduces. -/
def conclusionProblems (j : Judgment) (rule : Rule) : List Problem :=
  if j.production = some rule.conclusion.production then []
  else [.ofFault (.conclusionMismatch rule.name j.name) rule.conclusion.span]

def checkRule (r : Registry) (j : Judgment) (c : Checker) (rule : Rule) : Checker :=
  let opened := { c.add (conclusionProblems j rule) with scope := c.scope.push }
  let checked := rule.clauses.foldl (checkClause r) opened
  { checked with scope := checked.scope.pop }

/-! ## Judgments -/

/-- Checks one judgment. The number is that of the problems found in it. -/
def checkJudgment (r : Registry) (c : Checker) (id : JudgmentId) : Checker × Nat :=
  let checked :=
    match r.judgment? id with
    | none => c.add [.ofFault (.unknownJudgment id) {}]
    | some j => (r.rulesFor id).foldl (checkRule r j) (c.add (formProblems r j))
  (checked, checked.problems.length - c.problems.length)

/-- Checks judgments in turn, with the number found in each. -/
def checkJudgments (r : Registry) : Checker → List JudgmentId → Checker × List Nat
  | c, [] => (c, [])
  | c, id :: ids =>
    let (c, count) := checkJudgment r c id
    let (c, counts) := checkJudgments r c ids
    (c, count :: counts)

end Checker

namespace Registry

def check (r : Registry) (id : JudgmentId) : List Diagnostic × Nat :=
  let (checked, count) := Checker.checkJudgment r .empty id
  (checked.problems.map Problem.diagnostic, count)

def checkAll (r : Registry) : List Diagnostic × Nat :=
  let (checked, counts) := Checker.checkJudgments r .empty (r.judgments.map (·.id))
  (checked.problems.map Problem.diagnostic, counts.foldr (· + ·) 0)

end Registry
end Inference
