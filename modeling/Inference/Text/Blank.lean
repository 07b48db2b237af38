/-!
# Inference.Text.Blank

Blank characters are those with the Unicode property White_Space. A text is read as its words,
the longest runs of characters that are not blank.

* `words`: the words of a text, in order. No word is empty and none holds a blank.
-/

namespace Inference
namespace Text

/-- The characters with the property White_Space. The characters U+001C to U+001F, U+180E, U+200B,
U+2060 and U+FEFF are not among them. -/
def isBlank (c : Char) : Bool :=
  let n := c.toNat
  (0x9 ≤ n && n ≤ 0xd) || n == 0x20 || n == 0x85 || n == 0xa0 || n == 0x1680 ||
    (0x2000 ≤ n && n ≤ 0x200a) || n == 0x2028 || n == 0x2029 || n == 0x202f || n == 0x205f ||
    n == 0x3000

/-- Puts a run in front of the words after it, unless it is empty. -/
def consRun (run : List Char) (rest : List (List Char)) : List (List Char) :=
  if run = [] then rest else run :: rest

/-- The run of characters before the first blank, and the words after it. -/
def splitRun : List Char → List Char × List (List Char)
  | [] => ([], [])
  | c :: cs =>
    let (run, rest) := splitRun cs
    if isBlank c then ([], consRun run rest) else (c :: run, rest)

def wordChars (cs : List Char) : List (List Char) :=
  consRun (splitRun cs).1 (splitRun cs).2

def words (s : String) : List String :=
  (wordChars s.toList).map String.ofList

end Text
end Inference
