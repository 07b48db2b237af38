import Inference.Config.Reader
import Inference.Scenario.Run
import Inference.Proofs.Check.Checker
import Inference.Proofs.Check.Scope
import Inference.Proofs.Check.Sequence
import Inference.Proofs.Check.Severity
import Inference.Proofs.Check.WellFormed
import Inference.Proofs.Config.Json
import Inference.Proofs.Conjunction.Acceptance
import Inference.Proofs.Conjunction.Agreement
import Inference.Proofs.Conjunction.Assembly
import Inference.Proofs.Conjunction.Assumption
import Inference.Proofs.Conjunction.Clean
import Inference.Proofs.Conjunction.Context
import Inference.Proofs.Conjunction.Faithful
import Inference.Proofs.Conjunction.Generality
import Inference.Proofs.Conjunction.History
import Inference.Proofs.Conjunction.NameSupply
import Inference.Proofs.Conjunction.Numbering
import Inference.Proofs.Conjunction.Refusal
import Inference.Proofs.Conjunction.Registration
import Inference.Proofs.Conjunction.Regrouping
import Inference.Proofs.Conjunction.Renaming
import Inference.Proofs.Conjunction.Shape
import Inference.Proofs.Conjunction.Synthesis
import Inference.Proofs.Conjunction.Validation
import Inference.Proofs.Form
import Inference.Proofs.Json.Grammar
import Inference.Proofs.Json.Lexing
import Inference.Proofs.Json.Scalar
import Inference.Proofs.Registry.Consistent
import Inference.Proofs.Registry.Extends
import Inference.Proofs.Registry.Lookup
import Inference.Proofs.Registry.Persistence
import Inference.Proofs.Registry.Reachable
import Inference.Proofs.Registry.Reading
import Inference.Proofs.Registry.Write
import Inference.Proofs.Scenario.Restart
import Inference.Proofs.Session.Independence
import Inference.Proofs.Session.Readable
import Inference.Proofs.Session.Reset
import Inference.Proofs.Session.Run
import Inference.Proofs.Session.Store
import Inference.Proofs.Text.Numbered
import Inference.Proofs.Text.Words
import Inference.Proofs.Conjunction.Apart
import Inference.Proofs.Conjunction.Anonymity
import Inference.Proofs.Conjunction.Leftover
import Inference.Proofs.Registry.Declaration
import Inference.Proofs.Session.Naming
import Inference.Proofs.Scenario.Progress
import Inference.Proofs.Scenario.Identity
import Inference.Proofs.Registry.Declared
import Inference.Proofs.Check.Program
import Inference.Proofs.Conjunction.Cutting
import Inference.Proofs.Session.Ledger
import Inference.Proofs.Conjunction.Naming
import Inference.Proofs.Registry.Spelling
import Inference.Proofs.Session.Spelling
import Inference.Proofs.Scenario.Assertion
import Inference.Proofs.Scenario.FormLength
