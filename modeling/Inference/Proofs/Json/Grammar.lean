/-!
# Inference.Proofs.Json.Grammar

The grammar of JSON texts, as it is commonly given: which characters may be written, and nothing
about how they are read.

* `Quoted`, `Spells`: the inside of a string, and the text that it stands for.
* `IsNumber`: numbers.
* `Written`: values, with layout between their tokens.
-/

namespace Inference
namespace Json
namespace Grammar

def Layout (ws : List Char) : Prop := ∀ c ∈ ws, c ∈ [' ', '\t', '\n', '\r']

def lowerHex : List Char :=
  ['0', '1', '2', '3', '4', '5', '6', '7', '8', '9', 'a', 'b', 'c', 'd', 'e', 'f']

def upperHex : List Char :=
  ['0', '1', '2', '3', '4', '5', '6', '7', '8', '9', 'A', 'B', 'C', 'D', 'E', 'F']

def HexDigit (c : Char) (n : Nat) : Prop := lowerHex[n]? = some c ∨ upperHex[n]? = some c

inductive HexUnit : List Char → Nat → Prop where
  | digits {a b c d : Char} {i j k l : Nat} : HexDigit a i → HexDigit b j → HexDigit c k →
      HexDigit d l → HexUnit [a, b, c, d] (i * 0x1000 + j * 0x100 + k * 0x10 + l)

/-- What may stand after a backslash, with the character that is meant. -/
def shortEscapes : List (Char × Char) :=
  [('"', '"'), ('\\', '\\'), ('/', '/'), ('b', '\x08'), ('f', '\x0c'), ('n', '\n'), ('r', '\r'),
    ('t', '\t')]

/-- The character may stand in a string as it is. -/
structure Plain (c : Char) : Prop where
  not_control : 0x20 ≤ c.toNat
  not_quote : c ≠ '"'
  not_backslash : c ≠ '\\'

inductive Quoted : List Char → Prop where
  | nil : Quoted []
  | plain {c : Char} {cs : List Char} : Plain c → Quoted cs → Quoted (c :: cs)
  | short {e c : Char} {cs : List Char} : (e, c) ∈ shortEscapes → Quoted cs →
      Quoted ('\\' :: e :: cs)
  | unit {ds : List Char} {n : Nat} {cs : List Char} : HexUnit ds n → Quoted cs →
      Quoted ('\\' :: 'u' :: (ds ++ cs))

/-- The inside of a string and the text it stands for. A character may be written as it is or be
escaped, by its own escape or by its units of 16 bits, which are two beyond the first 65536
characters. -/
inductive Spells : List Char → List Char → Prop where
  | nil : Spells [] []
  | plain {c : Char} {cs s : List Char} : Plain c → Spells cs s → Spells (c :: cs) (c :: s)
  | short {e c : Char} {cs s : List Char} : (e, c) ∈ shortEscapes → Spells cs s →
      Spells ('\\' :: e :: cs) (c :: s)
  | unit {c : Char} {ds cs s : List Char} : HexUnit ds c.toNat → Spells cs s →
      Spells ('\\' :: 'u' :: (ds ++ cs)) (c :: s)
  | pair {c : Char} {high low cs s : List Char} : 0x10000 ≤ c.toNat →
      HexUnit high (0xd800 + (c.toNat - 0x10000) / 0x400) →
      HexUnit low (0xdc00 + (c.toNat - 0x10000) % 0x400) → Spells cs s →
      Spells ('\\' :: 'u' :: (high ++ '\\' :: 'u' :: (low ++ cs))) (c :: s)

/-- A string that stands for the text. -/
inductive IsString (s : String) : List Char → Prop where
  | quoted {cs : List Char} : Spells cs s.toList → IsString s ('"' :: (cs ++ ['"']))

def Digits (ds : List Char) : Prop := ∀ d ∈ ds, d.isDigit

inductive WholePart : List Char → Prop where
  | zero : WholePart ['0']
  | positive {d : Char} {ds : List Char} : Digits (d :: ds) → d ≠ '0' → WholePart (d :: ds)

inductive FractionPart : List Char → Prop where
  | none : FractionPart []
  | some {ds : List Char} : ds ≠ [] → Digits ds → FractionPart ('.' :: ds)

inductive ExponentPart : List Char → Prop where
  | none : ExponentPart []
  | some {e : Char} {sign ds : List Char} : e ∈ ['e', 'E'] → sign ∈ [[], ['+'], ['-']] →
      ds ≠ [] → Digits ds → ExponentPart (e :: (sign ++ ds))

inductive IsNumber : List Char → Prop where
  | signed {sign whole fraction exponent : List Char} : sign ∈ [[], ['-']] → WholePart whole →
      FractionPart fraction → ExponentPart exponent →
      IsNumber (sign ++ (whole ++ (fraction ++ exponent)))

/-! ## Values -/

inductive Phrase where
  | value
  /-- A value with layout around it. -/
  | element
  | elements
  | member
  | members

inductive Written : Phrase → List Char → Prop where
  | literal {cs : List Char} :
      cs ∈ [['n', 'u', 'l', 'l'], ['t', 'r', 'u', 'e'], ['f', 'a', 'l', 's', 'e']] →
      Written .value cs
  | number {cs : List Char} : IsNumber cs → Written .value cs
  | string {cs : List Char} : Quoted cs → Written .value ('"' :: (cs ++ ['"']))
  | emptyArray {ws : List Char} : Layout ws → Written .value ('[' :: (ws ++ [']']))
  | array {cs : List Char} : Written .elements cs → Written .value ('[' :: (cs ++ [']']))
  | emptyObject {ws : List Char} : Layout ws → Written .value ('\x7b' :: (ws ++ ['\x7d']))
  | object {cs : List Char} : Written .members cs → Written .value ('\x7b' :: (cs ++ ['\x7d']))
  | element {ws cs ws' : List Char} : Layout ws → Written .value cs → Layout ws' →
      Written .element (ws ++ (cs ++ ws'))
  | lastElement {cs : List Char} : Written .element cs → Written .elements cs
  | elements {cs more : List Char} : Written .element cs → Written .elements more →
      Written .elements (cs ++ ',' :: more)
  | member {ws key ws' cs : List Char} : Layout ws → Quoted key → Layout ws' →
      Written .element cs → Written .member (ws ++ ('"' :: (key ++ ['"']) ++ ws') ++ ':' :: cs)
  | lastMember {cs : List Char} : Written .member cs → Written .members cs
  | members {cs more : List Char} : Written .member cs → Written .members more →
      Written .members (cs ++ ',' :: more)

end Grammar
end Json
end Inference
