import Inference.Session
import Inference.Text.Quoted

/-!
# Inference.Scenario.Assertion

What a step of a scenario is expected to give. An assertion is made of expectations, and holds when
each of them does; the first that fails is told.

* `Outcome`: what a step gave, as text. `Outcome.formLength`: the number of words in its form.
* `Assertion.ofExpectations`: an assertion from a list of expectations.
* `Assertion.verify`: holds a step against an assertion.
* `Assertion.text`: an assertion written out.
-/

namespace Inference

structure Outcome where
  name : String := ""
  form : String := ""
  premises : List String := []
  conclusion : String := ""
  context : Option String := none
  assumption : Option String := none
  /-- What the step added to the diagnostics of the session. -/
  diagnostics : List Diagnostic := []
  /-- Whether the step made the conjunction. -/
  fresh : Bool := false
  deriving DecidableEq

/-- The number of words of the form, which stand apart by single spaces. -/
def Outcome.formLength (o : Outcome) : Nat :=
  if o.form = "" then 0 else o.form.toList.count ' ' + 1

inductive ScenarioError where
  | setup (scenario message : String)
  | assertionFailed (step message : String)
  /-- An assertion speaks of a step that did not run. -/
  | stepNotFound (step : String)
  | session (e : SessionError)
  deriving DecidableEq

def ScenarioError.message : ScenarioError → String
  | setup scenario message => "setup of scenario '" ++ scenario ++ "' failed: " ++ message
  | assertionFailed step message =>
    "assertion failed for step '" ++ step ++ "': " ++ message
  | stepNotFound step => "step '" ++ step ++ "' not found"
  | session e => "session error: " ++ e.message

/-- What a step has to be like. A part that is missing is not looked at. -/
structure Assertion where
  name : Option String := none
  form : Option String := none
  formLength : Option Nat := none
  premises : Option (List String) := none
  conclusion : Option String := none
  context : Option (Option String) := none
  assumption : Option (Option String) := none
  diagnostics : Option Nat := none
  /-- Messages with the number of diagnostics that carry each. -/
  messages : List (String × Nat) := []
  fresh : Option Bool := none
  /-- Earlier steps that gave the same judgment. -/
  sameAs : List String := []
  /-- Earlier steps that gave another judgment. -/
  differsFrom : List String := []
  /-- A text in the message of the error that the step fails with. -/
  error : Option String := none
  custom : Option (Outcome → Bool) := none

inductive Expectation where
  | name (text : String)
  | form (text : String)
  | formLength (n : Nat)
  | premises (texts : List String)
  | conclusion (text : String)
  | context (name : String)
  | noContext
  | assumption (name : String)
  | diagnostics (n : Nat)
  | noDiagnostics
  | message (text : String) (n : Nat)
  | fresh
  | cached
  | sameAs (step : String)
  | differsFrom (step : String)
  | error (text : String)
  | custom (holds : Outcome → Bool)

namespace Assertion

/-- Adds an expectation. Messages and steps to compare with add up; any other expectation takes the
place of an earlier one of its kind. -/
def expect (a : Assertion) : Expectation → Assertion
  | .name text => { a with name := some text }
  | .form text => { a with form := some text }
  | .formLength n => { a with formLength := some n }
  | .premises texts => { a with premises := some texts }
  | .conclusion text => { a with conclusion := some text }
  | .context name => { a with context := some (some name) }
  | .noContext => { a with context := some none }
  | .assumption name => { a with assumption := some (some name) }
  | .diagnostics n => { a with diagnostics := some n }
  | .noDiagnostics => { a with diagnostics := some 0 }
  | .message text n => { a with messages := a.messages ++ [(text, n)] }
  | .fresh => { a with fresh := some true }
  | .cached => { a with fresh := some false }
  | .sameAs step => { a with sameAs := a.sameAs ++ [step] }
  | .differsFrom step => { a with differsFrom := a.differsFrom ++ [step] }
  | .error text => { a with error := some text }
  | .custom holds => { a with custom := some holds }

def ofExpectations (es : List Expectation) : Assertion := es.foldl expect {}

/-! ## Verification -/

def firstFailure : List (Option String) → Option String
  | [] => none
  | some message :: _ => some message
  | none :: rest => firstFailure rest

/-- Compares a part with what is expected of it, if anything is. -/
def comparePart {α : Type} [DecidableEq α] (what : String) (shown : α → String)
    (expected : Option α) (actual : α) : Option String :=
  match expected with
  | none => none
  | some wanted =>
    if wanted = actual then none
    else some ("expected " ++ what ++ " " ++ shown wanted ++ ", got " ++ shown actual)

def checkCustom (a : Assertion) (o : Outcome) : Option String :=
  match a.custom with
  | none => none
  | some holds => if holds o then none else some "custom assertion failed"

def checkDiagnostics (a : Assertion) (o : Outcome) : Option String :=
  match a.diagnostics with
  | none => none
  | some n =>
    if o.diagnostics.length = n then none
    else some ("expected " ++ toString n ++ " diagnostics, got " ++
      toString o.diagnostics.length ++ ": " ++ Text.quoteList (o.diagnostics.map (·.text)))

def checkMessage (o : Outcome) (message : String) (n : Nat) : Option String :=
  let count := countMessage message o.diagnostics
  if count = n then none
  else some ("expected " ++ toString n ++ " diagnostics '" ++ message ++ "', got " ++
    toString count)

def occursIn (part : List Char) : List Char → Bool
  | [] => part.isEmpty
  | c :: cs => part.isPrefixOf (c :: cs) || occursIn part cs

def failure? (a : Assertion) (o : Outcome) : Option String :=
  let optional := Text.showOption Text.quote
  firstFailure <|
    [a.checkCustom o,
      comparePart "name" Text.quote a.name o.name,
      comparePart "form" Text.quote a.form o.form,
      comparePart "conclusion" Text.quote a.conclusion o.conclusion,
      comparePart "premises" Text.quoteList a.premises o.premises,
      comparePart "context" optional a.context o.context,
      comparePart "assumption" optional a.assumption o.assumption,
      comparePart "fresh" toString a.fresh o.fresh,
      comparePart "form length" toString a.formLength o.formLength,
      a.checkDiagnostics o] ++
    a.messages.map fun (message, n) => checkMessage o message n

/-- Holds what a step gave, or the message it failed with, against the assertion. An expected error
is all that is looked at. -/
def verify (a : Assertion) (step : String) (result : Except String Outcome) :
    Except ScenarioError Unit :=
  let fail (message : String) : Except ScenarioError Unit :=
    .error (.assertionFailed step message)
  match a.error, result with
  | some text, .error message =>
    if occursIn text.toList message.toList then .ok ()
    else fail ("expected error containing '" ++ text ++ "', got: " ++ message)
  | some text, .ok _ => fail ("expected error containing '" ++ text ++ "', but step succeeded")
  | none, .error message => fail ("step failed: " ++ message)
  | none, .ok o =>
    match a.failure? o with
    | some message => fail message
    | none => .ok ()

def inspected (a : Assertion) (result : Except String Outcome) : List Outcome :=
  match a.error, a.custom, result with
  | none, some _, .ok o => [o]
  | _, _, _ => []

/-- The assertion written out, in the parts that identify it. -/
def text (a : Assertion) : String :=
  let optional := Text.showOption Text.quote
  "Assertion \x7b name: " ++ optional a.name ++
    ", form: " ++ optional a.form ++
    ", premises: " ++ Text.showOption Text.quoteList a.premises ++
    ", context: " ++ Text.showOption optional a.context ++
    ", diagnostics: " ++ Text.showOption toString a.diagnostics ++
    ", fresh: " ++ Text.showOption toString a.fresh ++
    ", same_as: " ++ Text.quoteList a.sameAs ++
    ", error: " ++ optional a.error ++
    ", custom: " ++ optional (a.custom.map fun _ => "<fn>") ++ " \x7d"

end Assertion
end Inference
