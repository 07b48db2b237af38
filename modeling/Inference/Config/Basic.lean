import Inference.Text.Blank
import Inference.Text.Quoted

/-!
# Inference.Config.Basic

How conjunctions are made: the token between conjuncts, the label in front of generated names, and
whether new judgments are checked.

* `Config.check`: a separator has to be a single token.
-/

namespace Inference

structure Config where
  separator : String := "and"
  /-- The label in front of the bracketed component names. -/
  label : String := "and"
  validate : Bool := true
  deriving DecidableEq

/-- The separator is empty or holds a blank. -/
structure InvalidSeparator where
  separator : String
  deriving DecidableEq

def InvalidSeparator.message (e : InvalidSeparator) : String :=
  "separator must be a single non-empty token, got " ++ Text.quote e.separator

namespace Config

def check (c : Config) : Except InvalidSeparator Unit :=
  if c.separator = "" || c.separator.toList.any Text.isBlank then .error ⟨c.separator⟩ else .ok ()

end Config
end Inference
