import Inference.Text.Unprinted

/-!
# Inference.Text.Quoted

The quoted form of a text, used wherever a message shows a value: double quotes around it, and
inside an escape for each character that would be misread or not be seen.

* `quote`: the quoted text. `quoteList`, `showOption`: lists and optional values of shown texts.
-/

namespace Inference
namespace Text

/-- A number in base sixteen, lower case, without leading zeros. -/
def hex (n : Nat) : String := String.ofList (Nat.toDigits 16 n)

/-- How a character stands inside quotes. Only `"` and `\` among the characters with a glyph are
escaped; a combining mark is, since it would join the character before it. -/
def quoteChar (c : Char) : String :=
  match c with
  | '\x00' => "\\0"
  | '\t' => "\\t"
  | '\r' => "\\r"
  | '\n' => "\\n"
  | '"' => "\\\""
  | '\\' => "\\\\"
  | _ => if isUnprinted c then "\\u\x7b" ++ hex c.toNat ++ "\x7d" else c.toString

def quote (s : String) : String :=
  "\"" ++ String.join (s.toList.map quoteChar) ++ "\""

def bracket (shown : List String) : String :=
  "[" ++ String.intercalate ", " shown ++ "]"

def quoteList (texts : List String) : String :=
  bracket (texts.map quote)

/-- An optional value, shown by `f` when it is there. -/
def showOption {α : Type} (f : α → String) : Option α → String
  | none => "None"
  | some a => "Some(" ++ f a ++ ")"

end Text
end Inference
