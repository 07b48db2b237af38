import Inference.Json.Numeral
import Inference.Json.Text

/-!
# Inference.Json.Token

A JSON text as a list of tokens. Where the text stops being JSON the list ends with `broken`, so
whoever reads the tokens from the front meets every other fault before this one first.

* `Token.readAll`: the tokens of a text.
* `Skipping.step`: passes over a value one token at a time, keeping only the brackets that are open.
-/

namespace Inference
namespace Json

inductive Bracket where
  | array
  | object
  deriving DecidableEq

inductive Literal where
  | null
  | bool (b : Bool)
  deriving DecidableEq

inductive Token where
  | begins (b : Bracket)
  | ends (b : Bracket)
  | comma
  | colon
  | text (pieces : List Piece)
  | number (n : Numeral)
  | literal (l : Literal)
  | broken
  deriving DecidableEq

def isLayout (c : Char) : Bool := c == ' ' || c == '\t' || c == '\n' || c == '\r'

namespace Token

/-- Reads the token at the front of a text that starts with one. -/
def read? : List Char → Option (Token × List Char)
  | '[' :: rest => some (.begins .array, rest)
  | ']' :: rest => some (.ends .array, rest)
  | '\x7b' :: rest => some (.begins .object, rest)
  | '\x7d' :: rest => some (.ends .object, rest)
  | ',' :: rest => some (.comma, rest)
  | ':' :: rest => some (.colon, rest)
  | 'n' :: 'u' :: 'l' :: 'l' :: rest => some (.literal .null, rest)
  | 't' :: 'r' :: 'u' :: 'e' :: rest => some (.literal (.bool true), rest)
  | 'f' :: 'a' :: 'l' :: 's' :: 'e' :: rest => some (.literal (.bool false), rest)
  | '"' :: rest =>
    match readPieces? rest with
    | some (pieces, rest) => some (.text pieces, rest)
    | none => none
  | cs =>
    match Numeral.read? cs with
    | some (n, rest) => some (.number n, rest)
    | none => none

/-- Reads tokens, one for each unit of fuel. Every token has a character, so the length of the
text is fuel enough. -/
def readWithin : Nat → List Char → List Token
  | 0, _ => []
  | fuel + 1, cs =>
    match cs.dropWhile isLayout with
    | [] => []
    | cs =>
      match read? cs with
      | none => [.broken]
      | some (t, rest) => t :: readWithin fuel rest

def readAll (cs : List Char) : List Token := readWithin cs.length cs

end Token

/-! ## Passing over a value -/

inductive Expect where
  | value
  /-- A value, or the end of an empty array. -/
  | firstItem
  | key
  /-- A key, or the end of an empty object. -/
  | firstKey
  | colon
  /-- A comma, or the end of the innermost bracket. -/
  | next
  deriving DecidableEq

structure Skipping where
  /-- The brackets that are open, innermost first. -/
  opened : List Bracket := []
  expect : Expect := .value
  deriving DecidableEq

/-- A value is passed over, or not yet. -/
inductive Skipped where
  | whole
  | partly (s : Skipping)
  deriving DecidableEq

namespace Skipping

def valueEnded : List Bracket → Skipped
  | [] => .whole
  | opened => .partly ⟨opened, .next⟩

def startValue (opened : List Bracket) : Token → Option Skipped
  | .begins .array => some (.partly ⟨.array :: opened, .firstItem⟩)
  | .begins .object => some (.partly ⟨.object :: opened, .firstKey⟩)
  | .text _ | .number _ | .literal _ => some (valueEnded opened)
  | _ => none

def endBracket (opened : List Bracket) (b : Bracket) : Option Skipped :=
  match opened with
  | [] => none
  | innermost :: rest => if b = innermost then some (valueEnded rest) else none

def step (s : Skipping) (t : Token) : Option Skipped :=
  match s.expect, t with
  | .firstItem, .ends b => endBracket s.opened b
  | .value, t | .firstItem, t => startValue s.opened t
  | .firstKey, .ends b => endBracket s.opened b
  | .key, .text _ | .firstKey, .text _ => some (.partly { s with expect := .colon })
  | .colon, .colon => some (.partly { s with expect := .value })
  | .next, .ends b => endBracket s.opened b
  | .next, .comma =>
    match s.opened with
    | [] => none
    | .array :: _ => some (.partly { s with expect := .value })
    | .object :: _ => some (.partly { s with expect := .key })
  | _, _ => none

end Skipping
end Json
end Inference
