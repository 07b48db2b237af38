import Inference.Conjunction.Workspace

/-!
# Inference.Session

A checking session: a declaration table, the conjunctions made in it, and the diagnostics found on
the way. A session starts with the trivial conjunction in place and can be set back to its start.
Sessions share nothing.

* `Session.start`: a new session over a table.
* `synthesize`, `synthesizeNamed`, `takeDiagnostics`, `checkDeclarations`, `reset`: its operations.
* `SessionNumbers`: hands out the numbers of sessions.
-/

namespace Inference

inductive SessionError where
  | synthesis (e : SynthesisError)
  | declaration (e : DeclarationError)
  | config (e : InvalidSeparator)
  | unknownJudgmentName (name : String)
  deriving DecidableEq

def SessionError.message : SessionError → String
  | synthesis e => "synthesis error: " ++ e.message
  | declaration e => "registry error: " ++ e.message
  | config e => "config error: " ++ e.message
  | unknownJudgmentName name => "unknown judgment: " ++ name

structure Session where
  id : Nat
  workspace : Workspace
  baseline : Registry
  /-- What was found and not yet taken, in order. -/
  diagnostics : List Diagnostic := []
  trivial : JudgmentId := default
  deriving DecidableEq

namespace Session

def registry (s : Session) : Registry := s.workspace.registry

def config (s : Session) : Config := s.workspace.config

/-- How many conjunctions were made, the trivial one among them. -/
def conjunctionCount (s : Session) : Nat := s.workspace.cache.size

def seed (s : Session) : Session × Except SessionError Unit :=
  match s.workspace.seedTrivial with
  | (workspace, .error e) => ({ s with workspace }, .error (.synthesis e))
  | (workspace, .ok made) =>
    ({ s with
        workspace
        trivial := made.judgment
        diagnostics := s.diagnostics ++ made.diagnostics }, .ok ())

def start (id : Nat) (registry : Registry) (config : Config) : Except SessionError Session :=
  match config.check with
  | .error e => .error (.config e)
  | .ok () =>
    match seed { id, workspace := { registry, config }, baseline := registry } with
    | (_, .error e) => .error e
    | (s, .ok ()) => .ok s

def takeDiagnostics (s : Session) : Session × List Diagnostic :=
  ({ s with diagnostics := [] }, s.diagnostics)

/-- The conjunction of components in order. What is found while it is made is kept. -/
def synthesize (s : Session) (span : Span) (parts : List JudgmentId) :
    Session × Except SessionError JudgmentId :=
  match s.workspace.synthesize span parts with
  | (workspace, .error e) => ({ s with workspace }, .error (.synthesis e))
  | (workspace, .ok made) =>
    ({ s with workspace, diagnostics := s.diagnostics ++ made.diagnostics }, .ok made.judgment)

def resolve (s : Session) : List String → Except SessionError (List JudgmentId)
  | [] => .ok []
  | name :: names =>
    match s.registry.judgmentId? name with
    | none => .error (.unknownJudgmentName name)
    | some id =>
      match s.resolve names with
      | .error e => .error e
      | .ok ids => .ok (id :: ids)

def synthesizeNamed (s : Session) (span : Span) (names : List String) :
    Session × Except SessionError JudgmentId :=
  match s.resolve names with
  | .error e => (s, .error e)
  | .ok parts => s.synthesize span parts

/-- Checks every declaration, the conjunctions included, and counts the problems. -/
def checkDeclarations (s : Session) : Session × Nat :=
  let (found, count) := s.registry.checkAll
  ({ s with diagnostics := s.diagnostics ++ found }, count)

/-- Goes back to the declarations at the start. Conjunctions and diagnostics are forgotten, and
the trivial conjunction is made again. -/
def reset (s : Session) : Session × Except SessionError Unit :=
  seed { s with
    workspace := { s.workspace.clear with registry := s.baseline }
    diagnostics := [] }

end Session

structure SessionNumbers where
  next : Nat := 1
  deriving DecidableEq

namespace SessionNumbers

def take (n : SessionNumbers) : SessionNumbers × Nat := (⟨n.next + 1⟩, n.next)

/-- Starts a session under the next number. The number is used up even if that fails. -/
def startSession (n : SessionNumbers) (registry : Registry) (config : Config) :
    SessionNumbers × Except SessionError Session :=
  let (n, id) := n.take
  (n, Session.start id registry config)

end SessionNumbers
end Inference
