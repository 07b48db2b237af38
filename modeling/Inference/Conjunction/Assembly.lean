import Inference.Registry.Basic
import Inference.Text.Numbered

/-!
# Inference.Conjunction.Assembly

The form and the name of a conjunction. The form is that of its components one after the other,
with a separator token between neighbours.

* `Form.assemble`: joins parts. `Form.append`: adds one more part to a form.
* `Registry.conjunctionName`: the name of a conjunction, such as `and[typing,value]`.
* `Registry.unusedName`: the first name that no judgment has, numbered when the plain name is taken.
-/

namespace Inference

namespace Form

def joinWith (separator : Element) : List (List Element) → List Element
  | [] => []
  | [part] => part
  | part :: next :: rest => part ++ separator :: joinWith separator (next :: rest)

/-- The form made of the parts. There is no separator before the first part or after the last. -/
def assemble (parts : List (List Element)) (separator : String) (span : Span) : Form :=
  ⟨joinWith (.terminal separator span) parts, span⟩

/-- Extends a form by a separator and another form. The whole stays at its place. -/
def append (f : Form) (separator : String) (span : Span) (more : Form) : Form :=
  { f with elements := f.elements ++ .terminal separator span :: more.elements }

end Form

namespace Registry

/-- A label with the names of the components in brackets. -/
def conjunctionName (r : Registry) (parts : List JudgmentId) (label : String) : String :=
  label ++ "[" ++ String.intercalate "," (parts.map r.judgmentText) ++ "]"

def isJudgmentName (r : Registry) (name : String) : Bool := (r.judgmentId? name).isSome

/-- The name itself when it is free, and otherwise the name with the first number from one on that
makes it free. No more names are taken than the table has entered. -/
def unusedName (r : Registry) (name : String) : String :=
  if r.isJudgmentName name then
    let numbered := Text.numbered (name ++ "#")
    numbered (Text.firstFree (fun n => r.isJudgmentName (numbered n)) r.judgmentNames.names.length 1)
  else name

end Registry
end Inference
