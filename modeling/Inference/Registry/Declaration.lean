import Inference.Registry.Reading
import Inference.Registry.Write

/-!
# Inference.Registry.Declaration

A program declares its categories, judgments and rules one after the other, by name and with their
forms as text. Each text is read against the table as it stands at that moment, so a declaration
comes after whatever it mentions.

* `Registry.declare`: makes one declaration. With an error comes the table as it is by then.
* `Registry.ofDeclarations`: the table of a whole program, which fails with its first error.
-/

namespace Inference

inductive Declaration where
  | category (name : String) (isContext : Bool) (span : Span)
  /-- The production has the name of the judgment unless another is given. -/
  | judgment (name form : String) (assumes productionName : Option String) (span : Span)
  /-- Each premise is the name of a judgment and an instance of its form. -/
  | rule (name judgment : String) (premises : List (String × String)) (conclusion : Option String)
      (span : Span)
  /-- A judgment that never gets a form. -/
  | placeholder (name : String)
  deriving DecidableEq

inductive Declared where
  | category (id : CategoryId)
  | judgment (id : JudgmentId)
  | rule (id : RuleId)
  deriving DecidableEq

namespace Registry

/-- Reads a text as an instance of the form of a judgment. -/
def readClause (r : Registry) (judgment : JudgmentId) (text : String) (span : Span) :
    Except DeclarationError Clause :=
  match r.productionOf? judgment with
  | none => .error (.missingProduction judgment)
  | some production => .ok { r.readForm text span with production }

/-- Reads a text as an instance of the form of the judgment with the given name. -/
def readPremise (r : Registry) (judgment text : String) (span : Span) :
    Except DeclarationError Clause :=
  match r.judgmentId? judgment with
  | none => .error (.unknownJudgmentName judgment)
  | some id => r.readClause id text span

def readPremises (r : Registry) (span : Span) :
    List (String × String) → Except DeclarationError (List Clause)
  | [] => .ok []
  | (judgment, text) :: rest =>
    match r.readPremise judgment text span with
    | .error e => .error e
    | .ok clause =>
      match r.readPremises span rest with
      | .error e => .error e
      | .ok clauses => .ok (clause :: clauses)

def readAssumption (r : Registry) (word : Option String) (span : Span) :
    Except DeclarationError (Option Nonterminal) :=
  match word with
  | none => .ok none
  | some word =>
    match r.readNonterminal? word span with
    | none => .error (.unknownAssumption word)
    | some nt => .ok (some nt)

/-- Declares a judgment with its form. The assumption is read first, before anything is written. -/
def declareJudgment (r : Registry) (name form : String) (assumes productionName : Option String)
    (span : Span) : Registry × Except DeclarationError JudgmentId :=
  match r.readAssumption assumes span with
  | .error e => (r, .error e)
  | .ok assumption =>
    match r.reserve name span with
    | (reserved, .error e) => (reserved, .error e)
    | (reserved, .ok id) =>
      match reserved.define id (productionName.getD name) (r.readForm form span) with
      | (defined, .error e) => (defined, .error e)
      | (defined, .ok _) =>
        match defined.assume id assumption with
        | (assumed, .error e) => (assumed, .error e)
        | (assumed, .ok ()) => (assumed, .ok id)

/-- Declares a rule. The judgment is looked up first, then the conclusion must be there, then the
premises are read in order, and the conclusion last. -/
def declareRule (r : Registry) (name judgment : String) (premises : List (String × String))
    (conclusion : Option String) (span : Span) : Registry × Except DeclarationError RuleId :=
  match r.judgmentId? judgment with
  | none => (r, .error (.unknownJudgmentName judgment))
  | some id =>
    match conclusion with
    | none => (r, .error (.missingConclusion name))
    | some text =>
      match r.readPremises span premises with
      | .error e => (r, .error e)
      | .ok clauses =>
        match r.readClause id text span with
        | .error e => (r, .error e)
        | .ok clause => r.addRule name id clauses clause span

def declare (r : Registry) (d : Declaration) : Registry × Except DeclarationError Declared :=
  match d with
  | .category name isContext span =>
    let (r, answer) := r.addCategory name isContext span
    (r, answer.map .category)
  | .judgment name form assumes productionName span =>
    let (r, answer) := r.declareJudgment name form assumes productionName span
    (r, answer.map .judgment)
  | .rule name judgment premises conclusion span =>
    let (r, answer) := r.declareRule name judgment premises conclusion span
    (r, answer.map .rule)
  | .placeholder name =>
    let (r, answer) := r.reserve name {}
    (r, answer.map .judgment)

/-- The table as it is handed over once all declarations are made: no judgment may lack a form. -/
def complete (r : Registry) : Except DeclarationError Registry :=
  match r.judgments.find? (·.isPlaceholder) with
  | some j => .error (.missingProduction j.id)
  | none => .ok r

/-- Makes declarations in order, up to the first that fails. -/
def declareAll (r : Registry) : List Declaration → Except DeclarationError Registry
  | [] => .ok r
  | d :: ds =>
    match r.declare d with
    | (_, .error e) => .error e
    | (r, .ok _) => r.declareAll ds

end Registry

def Declaration.isPlaceholder : Declaration → Bool
  | .placeholder _ => true
  | _ => false

/-- The table of a program: everything but the placeholders in order, then the placeholders. -/
def Registry.ofDeclarations (ds : List Declaration) : Except DeclarationError Registry :=
  match Registry.empty.declareAll (ds.filter (!·.isPlaceholder)) with
  | .error e => .error e
  | .ok r =>
    match r.complete with
    | .error e => .error e
    | .ok r => r.declareAll (ds.filter (·.isPlaceholder))

end Inference
